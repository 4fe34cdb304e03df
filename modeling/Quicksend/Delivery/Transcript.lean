import Quicksend.Delivery.Flow
import Quicksend.SendFile.Wakeups
import Quicksend.SendFile.Window

/-!
# What `sendFile` puts on the socket

The metadata, the first chunks of the file in order, and at most one notice,
with which the call ends: whatever the peer and the relay send, and however
early, late, repeated or made up their acknowledgements and aborts are.
-/

namespace Quicksend.Delivery

open SendFile (Lands Woken Steps observe fileKeyOf)

variable {a : SendArgs} {s t : SendFile.State} {out log : List Message}

/-- The `file_meta` message that `sendFile` begins with, given its file, id and
key. -/
def metaMessage (a : SendArgs) : Message :=
  fileMetaMessage a.fileId.hex (toHex (a.w.aesGcmEncrypt (fileKeyOf a)
    (chunkNonce METADATA_CHUNK_INDEX) (chunkAAD a.fileId.bytes METADATA_CHUNK_INDEX true)
    (a.codec.encode a.file.toMeta)))

/-- What an undisturbed call has sent after `k` chunks: the metadata, and the
first `k` frames. -/
def opening (a : SendArgs) (k : Nat) : List Message :=
  metaMessage a :: (SendFile.firstFrames a k).map .binary

/-- The call has not been rejected; it may be under way or have resolved. -/
def Unfailed (s : SendFile.State) : Prop := ∀ err, s.pc ≠ .settled (.rejected err)

/-- What the call has put on the socket where it is in state `s`; an open
socket has carried all of it. -/
inductive Transcript (a : SendArgs) (s : SendFile.State) : List Message → Prop where
  | nothing (h : Unfailed s → unsent s.pc = true ∨ s.socketClosed = true) : Transcript a s []
  | frames (k : Nat) (hun : unsent s.pc = false) (hk : k ≤ sentCount a s.pc)
      (hall : Unfailed s → s.socketClosed = false → k = sentCount a s.pc) :
      Transcript a s (opening a k)
  | stopped (k : Nat) (hk : k ≤ a.file.totalChunks) (err : SendFile.Failure)
      (hpc : s.pc = .settled (.rejected err)) :
      Transcript a s (opening a k ++ [fileAbortMessage a.fileId.hex])

/-- What has been put on the socket where the loop is at chunk `i`. -/
inductive Loop (a : SendArgs) (s : SendFile.State) (i : Nat) : List Message → Prop where
  | nothing (hclosed : s.socketClosed = true) : Loop a s i []
  | frames (k : Nat) (hk : k ≤ i) (hall : s.socketClosed = false → k = i) :
      Loop a s i (opening a k)

theorem opening_succ (a : SendArgs) (k : Nat) :
    opening a (k + 1) = opening a k ++ [.binary (SendFile.canonicalFrame a k)] := by
  rw [opening, SendFile.firstFrames_succ, List.map_append]
  rfl

theorem unfailed_of_going (h : s.isSettled = false) : Unfailed s := fun err hpc => by
  simp [SendFile.State.isSettled, hpc] at h

theorem Transcript.init (a : SendArgs) : Transcript a SendFile.init [] := .nothing fun _ => .inl rfl

/-- The call is where it was, and its socket may have closed. -/
theorem Transcript.same (h : Transcript a s log) (hpc : t.pc = s.pc)
    (hclosed : s.socketClosed = true → t.socketClosed = true) : Transcript a t log := by
  have hgood (ht : Unfailed t) : Unfailed s := fun err h => ht err (hpc.trans h)
  cases h with
  | nothing h => exact .nothing fun ht => (h (hgood ht)).imp (hpc ▸ id) hclosed
  | frames k hun hk hall =>
      refine .frames k (hpc ▸ hun) (hpc ▸ hk) fun ht hopen => ?_
      rw [hpc]
      refine hall (hgood ht) ?_
      by_contra hs
      simp [hclosed (by simpa using hs)] at hopen
  | stopped k hk err h => exact .stopped k hk err (hpc.trans h)

theorem Transcript.loop (h : Transcript a s log) (hun : unsent s.pc = false)
    (hns : s.isSettled = false) : Loop a s (sentCount a s.pc) log := by
  have hgood := unfailed_of_going hns
  cases h with
  | nothing h => exact .nothing ((h hgood).resolve_left (by simp [hun]))
  | frames k _ hk hall => exact .frames k hk (hall hgood)
  | stopped k hk err hpc => exact absurd hpc (hgood err)

/-- The call fails, and may say so. -/
theorem Loop.rejected {i : Nat} (h : Loop a s i log) (hi : i ≤ a.file.totalChunks)
    {err : SendFile.Failure} (hpc : t.pc = .settled (.rejected err))
    (hout : out = [] ∨ out = s.put (fileAbortMessage a.fileId.hex)) : Transcript a t (log ++ out) := by
  have hbad (ht : Unfailed t) : False := ht err hpc
  have quiet (h : out = []) : Transcript a t (log ++ out) := by
    rw [h, List.append_nil]
    cases ‹Loop a s i log› with
    | nothing => exact .nothing fun ht => (hbad ht).elim
    | frames k hk =>
        refine .frames k (by rw [hpc]; rfl) ?_ fun ht => (hbad ht).elim
        rw [hpc]
        exact hk.trans hi
  obtain hout | hout := hout
  · exact quiet hout
  · rw [SendFile.State.put] at hout
    split at hout
    next => exact quiet hout
    next hopen =>
      rw [hout]
      cases h with
      | nothing hclosed => exact absurd hclosed hopen
      | frames k hk => exact .stopped k (hk.trans hi) err hpc

/-- The call rests where the first `i` chunks have been sent. -/
theorem Loop.rests {i : Nat} (h : Loop a s i log) (hun : unsent t.pc = false)
    (hsent : sentCount a t.pc = i) (hclosed : t.socketClosed = s.socketClosed) :
    Transcript a t log := by
  cases h with
  | nothing h => exact .nothing fun _ => .inr (hclosed.trans h)
  | frames k hk hall =>
      exact .frames k hun (hsent ▸ hk) fun _ hopen => (hall (hclosed ▸ hopen)).trans hsent.symm

theorem Loop.lands {i : Nat} (h : Loop a s i log) (hl : Lands a s i t out)
    (hi : i ≤ a.file.totalChunks) : Transcript a t (log ++ out) := by
  cases hl with
  | window | reading =>
      rw [List.append_nil]
      exact h.rests rfl rfl rfl
  | acks hn | resolved hn =>
      rw [List.append_nil]
      exact h.rests rfl (Nat.le_antisymm hn hi) rfl
  | aborted ab hab =>
      refine h.rejected hi rfl ?_
      split
      next => exact .inl rfl
      next => exact .inr rfl

theorem Loop.send {i : Nat} (h : Loop a s i log) :
    Loop a s (i + 1) (log ++ s.put (.binary (SendFile.canonicalFrame a i))) := by
  rw [SendFile.State.put]
  split
  next hclosed =>
    rw [List.append_nil]
    cases h with
    | nothing h => exact .nothing h
    | frames k hk => exact .frames k (hk.trans (Nat.le_succ i)) fun hopen => by simp [hclosed] at hopen
  next hopen =>
    cases h with
    | nothing h => exact absurd h hopen
    | frames k _ hall =>
        obtain rfl := hall (by simpa using hopen)
        rw [← opening_succ]
        exact .frames (k + 1) le_rfl fun _ => rfl

theorem Loop.noted {i : Nat} (h : Loop a s i log) (e : SendFile.Event) :
    Loop a (SendFile.noted s e) i log := by
  have hclosed : (SendFile.noted s e).socketClosed = false → s.socketClosed = false := by
    unfold SendFile.noted
    split <;> simp
  cases h with
  | nothing h =>
      refine .nothing ?_
      by_contra hopen
      simp [h] at hclosed
      simp [hclosed] at hopen
  | frames k hk hall => exact .frames k hk fun hopen => hall (hclosed hopen)

theorem metaMessage_eq {ciphertext : Bytes} (h : encryptChunk a.w (fileKeyOf a) a.fileId.bytes
    METADATA_CHUNK_INDEX true (a.codec.encode a.file.toMeta) = .ok ciphertext) :
    fileMetaMessage a.fileId.hex (toHex ciphertext) = metaMessage a := by
  rw [encryptChunk_ok a.w (SendFile.fileKeyOf_length a)] at h
  rw [← Except.ok.inj h]
  rfl

/-- The metadata goes out first. -/
theorem Transcript.begin (h : Transcript a s log) (hun : unsent s.pc = true) :
    Loop a s 0 (log ++ s.put (metaMessage a)) := by
  obtain rfl : log = [] := by
    cases h with
    | nothing => rfl
    | frames k hun' => simp [hun] at hun'
    | stopped k hk err hpc => simp [unsent, hpc] at hun
  rw [SendFile.State.put]
  split
  next hclosed => exact .nothing hclosed
  next => exact .frames 0 le_rfl fun _ => rfl

/-- **The step lemma.** -/
theorem Transcript.step {e : SendFile.Event} (h : Transcript a s log)
    (hs : SendFile.WellFormed a s) (hst : Steps a s e t out) : Transcript a t (log ++ out) := by
  have hindex := hs.index
  have quiet (hun : unsent s.pc = true) (ht : Unfailed t → unsent t.pc = true) :
      Transcript a t (log ++ []) := by
    rw [List.append_nil]
    cases h with
    | nothing => exact .nothing fun h => .inl (ht h)
    | frames k hun' => simp [hun] at hun'
    | stopped k hk err hpc => simp [unsent, hpc] at hun
  cases hst with
  | keyDerived hpc => exact quiet (by rw [hpc]; rfl) fun _ => rfl
  | keyFailed hpc | metaFailed hpc =>
      exact quiet (by rw [hpc]; rfl) fun ht => absurd rfl (ht _)
  | metaSent hpc ciphertext hc _ out hl =>
      rw [hs.fileKey_eq (by simp [hpc]) (by simp [SendFile.State.isSettled, hpc])] at hc
      rw [metaMessage_eq hc, ← List.append_assoc]
      exact (h.begin (by rw [hpc]; rfl)).lands hl (Nat.zero_le _)
  | sliceRead i hpc =>
      have hloop := h.loop (by rw [hpc]; rfl) (by simp [SendFile.State.isSettled, hpc])
      rw [hpc] at hloop
      rw [List.append_nil]
      exact hloop.rests rfl rfl rfl
  | chunkSent i p hpc ciphertext hc _ out hl =>
      rw [hpc] at hindex
      obtain ⟨hi, rfl⟩ : i < a.file.totalChunks ∧ p = a.file.chunk i := hindex
      have hloop := h.loop (by rw [hpc]; rfl) (by simp [SendFile.State.isSettled, hpc])
      rw [hpc] at hloop
      rw [hs.fileKey_eq (by simp [hpc]) (by simp [SendFile.State.isSettled, hpc])] at hc
      rw [SendFile.canonicalFrame_eq hc, ← List.append_assoc]
      exact (Loop.send hloop).lands hl hi
  | failed e msg hpc =>
      have hloop := h.loop (unsent_of_listening hpc.1) (SendFile.not_settled_of_listening hpc.1)
      refine hloop.rejected (sentCount_le hs) rfl ?_
      unfold SendFile.throwErr
      dsimp only
      split
      next => exact .inl rfl
      next => exact .inr rfl
  | heard e hl _ _ _ _ _ hw =>
      -- an event that wakes nobody leaves the call where it is
      have hloop := (h.loop (unsent_of_listening hl) (SendFile.not_settled_of_listening hl)).noted e
      cases hw with
      | asleep =>
          rw [List.append_nil]
          exact hloop.rests (by rw [SendFile.noted_pc]; exact unsent_of_listening hl)
            (by rw [SendFile.noted_pc]) rfl
      | lost => exact hloop.rejected (sentCount_le hs) rfl (.inl rfl)
      | window i hpc _ _ _ hl =>
          rw [SendFile.noted_pc] at hpc
          rw [hpc] at hloop hindex
          exact hloop.lands hl (Nat.le_of_lt hindex)
      | acks hpc _ _ _ hl =>
          rw [SendFile.noted_pc] at hpc
          rw [hpc] at hloop
          exact hloop.lands hl le_rfl
  | ignored =>
      rw [List.append_nil]
      exact h
  | closedUnheard =>
      rw [List.append_nil]
      exact h.same rfl fun _ => rfl
  | abortUnheard =>
      rw [List.append_nil]
      exact h.same rfl id

theorem run_transcript {es : List SendFile.Event}
    (hr : Transition.run (observe a) (SendFile.init, []) es = some (s, log)) :
    SendFile.WellFormed a s ∧ Transcript a s log :=
  Transition.invariant (I := fun x => SendFile.WellFormed a x.1 ∧ Transcript a x.1 x.2)
    (fun x e y hx hy => by
      obtain ⟨⟨t, out⟩, hstep, rfl⟩ := Option.map_eq_some_iff.mp hy
      have hst := SendFile.step_spec hx.1 hstep
      exact ⟨hst.wellFormed hx.1, hx.2.step hx.1 hst⟩)
    ⟨.init a, .init a⟩ hr

/-- **The transcript of a call**: nothing, or the metadata and the first chunks
in order, behind which there is at most a notice that the call failed. A call
that resolves on a socket that is still open has sent the whole file. -/
theorem transcript_of_call (a : SendArgs) {es : List SendFile.Event}
    (hr : Transition.run (observe a) (SendFile.init, []) es = some (s, log)) :
    (log = [] ∨ ∃ k ≤ a.file.totalChunks, log = opening a k ∨
        log = opening a k ++ [fileAbortMessage a.fileId.hex] ∧
          ∃ err, s.pc = .settled (.rejected err)) ∧
      (s.pc = .settled .resolved → s.socketClosed = false → log = opening a a.file.totalChunks) := by
  obtain ⟨hs, h⟩ := run_transcript hr
  have hgood (hres : s.pc = .settled .resolved) : Unfailed s := fun err h => by simp [hres] at h
  cases h with
  | nothing h =>
      refine ⟨.inl rfl, fun hres hopen => ?_⟩
      obtain hun | hclosed := h (hgood hres)
      · simp [unsent, hres] at hun
      · simp [hopen] at hclosed
  | frames k hun hk hall =>
      refine ⟨.inr ⟨k, hk.trans (sentCount_le hs), .inl rfl⟩, fun hres hopen => ?_⟩
      rw [hall (hgood hres) hopen, hres]
      rfl
  | stopped k hk err hpc =>
      exact ⟨.inr ⟨k, hk, .inr ⟨rfl, err, hpc⟩⟩, fun hres => absurd hpc (hgood hres err)⟩

/-- An acknowledgement of chunks that do not exist, and a cancel behind it. -/
def hostileEvents : List SendFile.Event :=
  [.keyDerived none, .metaEncrypted none,
    .message (.chunkAck (some ⟨some SendFile.tinyArgs.fileId.hex, 5⟩)), .sliceRead none, .signalAbort,
    .chunkEncrypted none]

theorem transcript_of_call_hostile : ∃ s log,
    Transition.run (observe SendFile.tinyArgs) (SendFile.init, []) hostileEvents = some (s, log) ∧
      log.length = 3 ∧ ∃ k ≤ SendFile.tinyArgs.file.totalChunks,
        log = opening SendFile.tinyArgs k ∨
          log = opening SendFile.tinyArgs k ++ [fileAbortMessage SendFile.tinyArgs.fileId.hex] ∧
            ∃ err, s.pc = .settled (.rejected err) := by
  have hrun : (Transition.run (observe SendFile.tinyArgs) (SendFile.init, []) hostileEvents).any
      (fun x => x.2.length = 3) = true := by
    decide +kernel
  obtain ⟨⟨s, log⟩, hx, hlen⟩ := (Option.any_eq_true _ _).mp hrun
  have hlen : log.length = 3 := of_decide_eq_true hlen
  refine ⟨s, log, hx, hlen, (transcript_of_call _ hx).1.resolve_left ?_⟩
  rintro rfl
  cases hlen

end Quicksend.Delivery
