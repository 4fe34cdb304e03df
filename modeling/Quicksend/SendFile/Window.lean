import Quicksend.SendFile.Emits
import Mathlib.Algebra.Order.Floor.Div

/-!
# The frames of `sendFile` and its window

The loop sends the frames of the file one after the other, each when fewer than
`WINDOW_SIZE` of those before it are unacknowledged. The invariant puts the loop
at a chunk: the frames before it have been sent (on a socket that has closed,
some of them in vain), and no more than a window of them is unacknowledged.
-/

namespace Quicksend

/-- The chunk frame that the message is, if it is one. -/
def Message.frame? : Message → Option Bytes
  | .binary data => some data
  | .text _ => none

namespace SendFile

/-- The chunk frames among what was put on the socket. -/
def chunkFrames (log : List Message) : List Bytes := log.filterMap Message.frame?

variable (a : SendArgs)

/-- The frame of chunk `i`: its plaintext encrypted under the file's key, behind
the header of the chunk. -/
def canonicalFrame (i : Nat) : Bytes :=
  let isLast := i = a.file.totalChunks - 1
  buildChunkFrame a.fileId i isLast
    (a.w.aesGcmEncrypt (fileKeyOf a) (chunkNonce i) (chunkAAD a.fileId.bytes i isLast)
      (a.file.chunk i))

/-- The frames of the first `k` chunks of the file, as `sendFile` makes them. -/
def firstFrames (k : Nat) : List Bytes := (List.range k).map (canonicalFrame a)

/-- The frames of the whole file, from its first chunk to its last. -/
def canonicalFrames : List Bytes := firstFrames a a.file.totalChunks

/-- The call, with what it has put on the socket. -/
def observe (x : State × List Message) (e : Event) : Option (State × List Message) :=
  (step a x.1 e).map fun r => (r.1, x.2 ++ r.2)

/-- An ack of this file is of a chunk that was sent, and none before the last one. -/
def AcksSent (x : State × List Message) : Event → Prop
  | .message (.chunkAck (some p)) => p.fileId = some a.fileId.hex →
      x.1.ackedUpTo ≤ p.ackedUpTo ∧ p.ackedUpTo < (chunkFrames x.2).length
  | _ => True

instance (x : State × List Message) (e : Event) : Decidable (AcksSent a x e) :=
  match e with
  | .message (.chunkAck (some _)) => inferInstanceAs (Decidable (_ → _))
  | .message (.chunkAck none) | .message (.fileMeta _) | .message (.fileAbort _)
  | .message .other | .keyDerived _ | .metaEncrypted _ | .sliceRead _ | .chunkEncrypted _
  | .close | .signalAbort => isTrue trivial

/-- Where the loop is suspended when the chunks before `i` have been sent. -/
def RestsAt (i : Nat) (ackedUpTo : Int) : Pc → Prop
  | .derivingKey | .encryptingMeta => i = 0
  | .windowWait j => i = j
  | .readingSlice j | .encryptingChunk j _ => i = j ∧ (i : Int) - 1 - ackedUpTo < WINDOW_SIZE
  | .ackWait => i = a.file.totalChunks
  | .settled o => o = .resolved → (a.file.totalChunks : Int) - 1 ≤ ackedUpTo

/-- `k` frames of the `i` before the loop's place have reached an open socket, and
at most a window of the `i` is unacknowledged. -/
structure InWindow (i k : Nat) (x : State × List Message) : Prop where
  frames : chunkFrames x.2 = firstFrames a k
  sent : k ≤ i
  le : i ≤ a.file.totalChunks
  complete : x.1.socketClosed = false → k = i
  acked : x.1.ackedUpTo < k
  window : (i : Int) - 1 - x.1.ackedUpTo ≤ WINDOW_SIZE

/-- The invariant of a call: where it rests, what it has sent so far, and that
this is within the window. -/
def Progress (x : State × List Message) : Prop :=
  ∃ i k, RestsAt a i x.1.ackedUpTo x.1.pc ∧ InWindow a i k x

variable {a : SendArgs} {s t : State} {e : Event} {out : List Message}

theorem firstFrames_succ (k : Nat) :
    firstFrames a (k + 1) = firstFrames a k ++ [canonicalFrame a k] := by
  rw [firstFrames, List.range_succ, List.map_append]
  rfl

@[simp] theorem firstFrames_length (k : Nat) : (firstFrames a k).length = k := by
  rw [firstFrames, List.length_map, List.length_range]

theorem firstFrames_prefix {k n : Nat} (h : k ≤ n) : firstFrames a k <+: firstFrames a n := by
  obtain ⟨m, rfl⟩ := Nat.exists_eq_add_of_le h
  rw [firstFrames, firstFrames, List.range_add, List.map_append]
  exact List.prefix_append _ _

theorem chunkFrames_append (log out : List Message) :
    chunkFrames (log ++ out) = chunkFrames log ++ chunkFrames out :=
  List.filterMap_append

/-- Texts are no chunk frames. -/
theorem chunkFrames_eq_nil (h : ∀ m ∈ out, m.frame? = none) : chunkFrames out = [] :=
  List.filterMap_eq_nil_iff.mpr h

theorem chunkFrames_notices (h : ∀ m ∈ out, m = fileAbortMessage a.fileId.hex) :
    chunkFrames out = [] :=
  chunkFrames_eq_nil fun m hm => by rw [h m hm]; rfl

theorem RestsAt.mono {i : Nat} {acked acked' : Int} {pc : Pc} (h : RestsAt a i acked pc)
    (hle : acked ≤ acked') : RestsAt a i acked' pc := by
  cases pc with
  | readingSlice | encryptingChunk => exact ⟨h.1, by have := h.2; omega⟩
  | settled => exact fun ho => (h ho).trans hle
  | _ => exact h

theorem InWindow.quiet {i k : Nat} {log : List Message} (h : InWindow a i k (s, log))
    (hout : chunkFrames out = []) (hacked : t.ackedUpTo = s.ackedUpTo)
    (hclosed : t.socketClosed = false → s.socketClosed = false) :
    InWindow a i k (t, log ++ out) where
  frames := by
    rw [chunkFrames_append, hout, List.append_nil]
    exact h.frames
  sent := h.sent
  le := h.le
  complete ht := h.complete (hclosed ht)
  acked := hacked.symm ▸ h.acked
  window := hacked.symm ▸ h.window

/-- What the loop does not change on its way to its next suspension. -/
theorem Lands.same {i : Nat} (h : Lands a s i t out) :
    t.ackedUpTo = s.ackedUpTo ∧ t.socketClosed = s.socketClosed := by
  cases h <;> exact ⟨rfl, rfl⟩

theorem Lands.restsAt {i : Nat} (h : Lands a s i t out) (hi : i ≤ a.file.totalChunks) :
    RestsAt a i t.ackedUpTo t.pc := by
  cases h with
  | window => exact rfl
  | reading _ _ hroom => exact ⟨rfl, hroom⟩
  | acks hle => exact Nat.le_antisymm hi hle
  | resolved _ _ hacked => exact fun _ => hacked
  | aborted => exact fun h => by cases h

theorem Lands.progress {i k : Nat} {log : List Message} (h : Lands a s i t out)
    (hs : InWindow a i k (s, log)) : Progress a (t, log ++ out) := by
  obtain ⟨hacked, hclosed⟩ := h.same
  exact ⟨i, k, h.restsAt hs.le, hs.quiet (chunkFrames_notices h.out_eq) hacked (hclosed ▸ id)⟩

/-- An ack of a chunk that was sent only makes room. -/
theorem Progress.noted {log : List Message} (h : Progress a (s, log)) (hc : concerns a e)
    (hack : AcksSent a (s, log) e) : Progress a (noted s e, log) := by
  obtain ⟨i, k, hrest, hin⟩ := h
  -- the same place, with acks that have gone no way back
  have hmoved (t : State) (hpc : t.pc = s.pc) (hle : s.ackedUpTo ≤ t.ackedUpTo)
      (hlt : t.ackedUpTo < k) (hclosed : t.socketClosed = false → s.socketClosed = false) :
      Progress a (t, log) := by
    have hwindow : (i : Int) - 1 - s.ackedUpTo ≤ WINDOW_SIZE := hin.window
    refine ⟨i, k, ?_, hin.frames, hin.sent, hin.le, fun ht => hin.complete (hclosed ht), hlt, ?_⟩
    · exact hpc.symm ▸ hrest.mono hle
    · change (i : Int) - 1 - t.ackedUpTo ≤ WINDOW_SIZE
      omega
  have hlt := hin.acked
  have hcount : (chunkFrames log).length = k := by
    rw [show chunkFrames log = firstFrames a k from hin.frames, firstFrames_length]
  unfold SendFile.noted
  split
  next p =>
    obtain ⟨hle, hsent⟩ := hack hc
    exact hmoved _ rfl hle (hcount ▸ hsent) id
  next => exact hmoved _ rfl le_rfl hlt id
  next => exact hmoved _ rfl le_rfl hlt (fun h => by cases h)
  next => exact hmoved _ rfl le_rfl hlt id
  next => exact hmoved _ rfl le_rfl hlt id

theorem Woken.progress {log : List Message} (h : Woken a s t out) (hs : Progress a (s, log)) :
    Progress a (t, log ++ out) := by
  obtain ⟨i, k, hrest, hin⟩ := hs
  cases h with
  | asleep => exact ⟨i, k, hrest, hin.quiet rfl rfl id⟩
  | lost => exact ⟨i, k, (fun h => by cases h), hin.quiet rfl rfl id⟩
  | window j hpc _ _ _ h =>
      rw [hpc] at hrest
      obtain rfl : i = j := hrest
      exact h.progress hin
  | acks hpc _ _ _ h =>
      rw [hpc] at hrest
      obtain rfl : i = a.file.totalChunks := hrest
      exact h.progress hin

/-- The frame of the chunk at hand goes out, and the loop is one chunk further. -/
theorem InWindow.send {i k : Nat} {log : List Message} (h : InWindow a i k (s, log))
    (hi : i < a.file.totalChunks) (hroom : (i : Int) - 1 - s.ackedUpTo < WINDOW_SIZE) :
    ∃ k', InWindow a (i + 1) k' (s, log ++ s.put (.binary (canonicalFrame a i))) := by
  have hsent := h.sent
  have hacked := h.acked
  cases hclosed : s.socketClosed with
  | true =>
      refine ⟨k, ?_, by omega, hi, fun h => ?_, hacked, ?_⟩
      · rw [State.put, hclosed, if_pos rfl, List.append_nil]
        exact h.frames
      · cases hclosed.symm.trans h
      · change ((i + 1 : Nat) : Int) - 1 - s.ackedUpTo ≤ WINDOW_SIZE
        omega
  | false =>
      obtain rfl : k = i := h.complete hclosed
      refine ⟨k + 1, ?_, le_rfl, hi, fun _ => rfl, ?_, ?_⟩
      · rw [State.put, hclosed, if_neg Bool.false_ne_true, chunkFrames_append,
          show chunkFrames log = _ from h.frames, firstFrames_succ]
        rfl
      · change s.ackedUpTo < ((k + 1 : Nat) : Int)
        change s.ackedUpTo < (k : Int) at hacked
        omega
      · change ((k + 1 : Nat) : Int) - 1 - s.ackedUpTo ≤ WINDOW_SIZE
        omega

theorem fileKeyOf_length (a : SendArgs) : (fileKeyOf a).length = 32 := a.w.hkdf_length ..

/-- What the encryption of chunk `i` settles with makes the frame of chunk `i`. -/
theorem canonicalFrame_eq {i : Nat} {ciphertext : Bytes}
    (h : encryptChunk a.w (fileKeyOf a) a.fileId.bytes i (i = a.file.totalChunks - 1)
      (a.file.chunk i) = .ok ciphertext) :
    buildChunkFrame a.fileId i (i = a.file.totalChunks - 1) ciphertext = canonicalFrame a i := by
  rw [encryptChunk_ok a.w (fileKeyOf_length a)] at h
  rw [← Except.ok.inj h]
  rfl

/-- The frame of chunk `i` parses, and opens to the chunk. -/
theorem canonicalFrame_opens (a : SendArgs) {i : Nat} (hi : i < a.file.totalChunks) :
    ∃ ciphertext, parseChunkFrame (canonicalFrame a i) =
        some ⟨a.fileId, i, i = a.file.totalChunks - 1, ciphertext⟩ ∧
      decryptChunk a.w (fileKeyOf a) a.fileId.bytes i (i = a.file.totalChunks - 1) ciphertext
        = .ok (a.file.chunk i) :=
  ⟨_, parseChunkFrame_buildChunkFrame
      ((hi.trans a.file.totalChunks_lt).trans METADATA_CHUNK_INDEX_lt) _ _,
    decryptChunk_encryptChunk (encryptChunk_ok a.w (fileKeyOf_length a) a.fileId i _ _)⟩

theorem chunkFrames_put_text (s : State) (env : Envelope) : chunkFrames (s.put (.text env)) = [] :=
  chunkFrames_eq_nil fun _ hm => mem_put hm ▸ rfl

/-- **The step lemma.** -/
theorem Steps.progress {log : List Message} (h : Steps a s e t out) (hs : WellFormed a s)
    (hack : AcksSent a (s, log) e) (hp : Progress a (s, log)) : Progress a (t, log ++ out) := by
  obtain ⟨i, k, hrest, hin⟩ := hp
  cases h with
  | keyDerived hpc =>
      rw [hpc] at hrest
      exact ⟨i, k, hrest, hin.quiet rfl rfl id⟩
  | keyFailed | metaFailed => exact ⟨i, k, (fun h => by cases h), hin.quiet rfl rfl id⟩
  | metaSent hpc _ _ _ _ h =>
      rw [hpc] at hrest
      obtain rfl : i = 0 := hrest
      rw [← List.append_assoc]
      exact h.progress (hin.quiet (chunkFrames_put_text s _) rfl id)
  | sliceRead j hpc =>
      rw [hpc] at hrest
      exact ⟨i, k, hrest, hin.quiet rfl rfl id⟩
  | chunkSent j p hpc ciphertext hc _ _ h =>
      have hkey := hs.fileKey_eq (by simp [hpc]) (by simp [State.isSettled, hpc])
      have hindex := hs.index
      rw [hpc] at hrest hindex
      obtain ⟨rfl, hroom⟩ := hrest
      obtain ⟨hi, rfl⟩ := hindex
      rw [hkey] at hc
      obtain ⟨k', hin'⟩ := hin.send hi hroom
      rw [← List.append_assoc, canonicalFrame_eq hc]
      exact h.progress hin'
  | failed e msg hpc =>
      exact ⟨i, k, (fun h => by cases h),
        hin.quiet (chunkFrames_notices fun m hm => throwErr_out hm) rfl id⟩
  | heard e hl hc _ _ _ _ h =>
      exact h.progress (Progress.noted ⟨i, k, hrest, hin⟩ hc hack)
  | ignored => exact ⟨i, k, hrest, hin.quiet rfl rfl id⟩
  | closedUnheard => exact ⟨i, k, hrest, hin.quiet rfl rfl (fun h => by cases h)⟩
  | abortUnheard => exact ⟨i, k, hrest, hin.quiet rfl rfl id⟩

theorem Progress.init (a : SendArgs) : Progress a (SendFile.init, []) :=
  ⟨0, 0, rfl, rfl, le_rfl, Nat.zero_le _, fun _ => rfl, by decide, by decide⟩

theorem run_progress {es : List Event} {x : State × List Message}
    (hg : Transition.Guarded (observe a) (AcksSent a) (SendFile.init, []) es)
    (hrun : Transition.run (observe a) (SendFile.init, []) es = some x) :
    WellFormed a x.1 ∧ Progress a x := by
  refine hg.invariant (I := fun x => WellFormed a x.1 ∧ Progress a x) ?_
    ⟨.init a, .init a⟩ hrun
  rintro ⟨s, log⟩ e y ⟨hs, hp⟩ hack hstep
  obtain ⟨⟨t, out⟩, hr, rfl⟩ := Option.map_eq_some_iff.mp hstep
  have hst := step_spec hs hr
  exact ⟨hst.wellFormed hs, hst.progress hs hack hp⟩

/-! ## The frames of a file -/

/-- These are frames 0, 1, and so on of the file: frame `i` opens to the file's
slice `i`, the slices make up the file, and the last frame alone is flagged. -/
structure FramesOf (a : SendArgs) (frames : List Bytes) : Prop where
  count : frames.length = max 1 (a.file.size ⌈/⌉ CHUNK_SIZE)
  opens : ∀ i frame, frames[i]? = some frame → ∃ ciphertext,
    parseChunkFrame frame = some ⟨a.fileId, i, i + 1 = frames.length, ciphertext⟩ ∧
      decryptChunk a.w (fileKeyOf a) a.fileId.bytes i (i + 1 = frames.length) ciphertext
        = .ok (a.file.chunk i)
  slices : ((List.range frames.length).map a.file.chunk).flatten = a.file.bytes

theorem canonicalFrames_length : (canonicalFrames a).length = a.file.totalChunks :=
  firstFrames_length _

theorem canonicalFrames_framesOf (a : SendArgs) : FramesOf a (canonicalFrames a) where
  count := by
    rw [canonicalFrames_length, Nat.ceilDiv_eq_add_pred_div, Nat.add_sub_assoc (by decide),
      File.totalChunks]
  opens i frame h := by
    have hpos := a.file.totalChunks_pos
    rw [canonicalFrames_length]
    rw [canonicalFrames, firstFrames, List.getElem?_map] at h
    obtain ⟨j, hj, rfl⟩ := Option.map_eq_some_iff.mp h
    obtain ⟨hlt, rfl⟩ : i < a.file.totalChunks ∧ i = j := by
      have := List.getElem?_eq_some_iff.mp hj
      simpa using this
    have hlast : decide (i + 1 = a.file.totalChunks) = decide (i = a.file.totalChunks - 1) :=
      decide_eq_decide.mpr (by omega)
    rw [hlast]
    exact canonicalFrame_opens a hlt
  slices := by
    rw [canonicalFrames_length]
    exact a.file.chunks_flatten

/-- **The frames and the window of `sendFile`.** Whatever is acked (chunks that
were sent, in order), and wherever an abort or a close falls: what is on the
socket are the first frames of the file, each once and in order; at most a
window of them is unacknowledged; and the call resolves only with all of them
sent and the last one acknowledged. -/
theorem frames_in_window {es : List Event} {s : State} {log : List Message}
    (hg : Transition.Guarded (observe a) (AcksSent a) (SendFile.init, []) es)
    (hrun : Transition.run (observe a) (SendFile.init, []) es = some (s, log)) :
    FramesOf a (canonicalFrames a) ∧ chunkFrames log <+: canonicalFrames a ∧
      ((chunkFrames log).length : Int) - (s.ackedUpTo + 1) ≤ WINDOW_SIZE ∧
      (s.pc = .settled .resolved →
        chunkFrames log = canonicalFrames a ∧ s.ackedUpTo = (canonicalFrames a).length - 1) := by
  obtain ⟨-, i, k, hrest, hin⟩ := run_progress hg hrun
  have hframes : chunkFrames log = firstFrames a k := hin.frames
  have hsent := hin.sent
  have hle := hin.le
  have hacked : s.ackedUpTo < k := hin.acked
  have hwindow : (i : Int) - 1 - s.ackedUpTo ≤ WINDOW_SIZE := hin.window
  refine ⟨canonicalFrames_framesOf a, ?_, ?_, fun hpc => ?_⟩
  · rw [hframes]
    exact firstFrames_prefix (hsent.trans hle)
  · rw [hframes, firstFrames_length]
    omega
  · rw [hpc] at hrest
    have hlast : (a.file.totalChunks : Int) - 1 ≤ s.ackedUpTo := hrest rfl
    rw [canonicalFrames_length, hframes]
    obtain rfl : k = a.file.totalChunks := by omega
    exact ⟨rfl, by omega⟩

/-- A run to the end: an early ack of another file, the frame, its ack. -/
def ackedEvents : List Event :=
  [.keyDerived none, .metaEncrypted none, .message (.chunkAck (some ⟨none, 5⟩)), .sliceRead none,
    .chunkEncrypted none, .message (.chunkAck (some ⟨some tinyArgs.fileId.hex, 0⟩))]

theorem frames_in_window_acked : ∃ s log,
    Transition.run (observe tinyArgs) (SendFile.init, []) ackedEvents = some (s, log) ∧
      s.pc = .settled .resolved ∧ chunkFrames log = canonicalFrames tinyArgs := by
  have hrun : (Transition.run (observe tinyArgs) (SendFile.init, []) ackedEvents).any
      (fun x => x.1.pc = .settled .resolved) = true := by
    decide +kernel
  obtain ⟨⟨s, log⟩, hx, hpc⟩ := (Option.any_eq_true _ _).mp hrun
  have hpc : s.pc = .settled .resolved := of_decide_eq_true hpc
  obtain ⟨-, -, -, hresolved⟩ := frames_in_window (by decide +kernel) hx
  exact ⟨s, log, hx, hpc, (hresolved hpc).1⟩

end SendFile

end Quicksend
