import Quicksend.Server.SizeLimit

/-!
# What can be read of a message without a key

Two calls of `sendFile` with files of one size, with metadata of one length,
take every event alike and send messages of the same shapes.
-/

namespace Quicksend

/-- What can be read of a message without a key. -/
inductive Shape where
  | fileMeta (fileId : Option JSString) (length : Option Nat)
  | text (env : Envelope)
  | binary (header : Bytes) (length : Nat)
  deriving DecidableEq

/-- A chunk frame keeps its type, flag, file id and index. -/
def Message.shape : Message → Shape
  | .text (.fileMeta (some p)) => .fileMeta p.fileId (p.ciphertext.map List.length)
  | .text env => .text env
  | .binary data => .binary (data.take 26) data.length

/-- Two calls whose files, keys and metadata have the same sizes. -/
structure SameSizes (a a' : SendArgs) : Prop where
  fileId : a'.fileId = a.fileId
  size : a'.file.size = a.file.size
  metadata : (a'.codec.encode a'.file.toMeta).length = (a.codec.encode a.file.toMeta).length
  key : a'.epochKey.length = a.epochKey.length

theorem SameSizes.totalChunks {a a' : SendArgs} (h : SameSizes a a') :
    a'.file.totalChunks = a.file.totalChunks := by
  rw [File.totalChunks, File.totalChunks, h.size]

/-- Two operations that fail with one text, or settle with related values. -/
inductive Matched {α β : Type} (R : α → β → Prop) : Except String α → Except String β → Prop where
  | ok {x : α} {y : β} (h : R x y) : Matched R (.ok x) (.ok y)
  | error (e : String) : Matched R (.error e) (.error e)

theorem Matched.settle {α β : Type} {R : α → β → Prop} {r : Except String α}
    {r' : Except String β} (h : Matched R r r') (err : Option String) :
    Matched R (settle err r) (settle err r') := by
  cases err with
  | none => exact h
  | some e => exact .error e

/-- The two byte strings have one length, which is all that an onlooker sees of a
ciphertext. -/
def SameLength (bs bs' : Bytes) : Prop := bs'.length = bs.length

theorem deriveFileKey_matched (w w' : WebCrypto) {epochKey epochKey' : Bytes}
    (h : SameLength epochKey epochKey') (fileID : Bytes) :
    Matched SameLength (deriveFileKey w epochKey fileID) (deriveFileKey w' epochKey' fileID) := by
  simp only [deriveFileKey, assertLength, show epochKey'.length = epochKey.length from h]
  split
  · exact .error _
  · split
    · exact .error _
    · exact .ok ((w'.hkdf_length _ _ _).trans (w.hkdf_length _ _ _).symm)

theorem encryptChunk_matched {w w' : WebCrypto} (hw : w.Tagged) (hw' : w'.Tagged)
    {fileKey fileKey' plaintext plaintext' : Bytes} (h : SameLength fileKey fileKey')
    (hp : SameLength plaintext plaintext') (fileID : Bytes) (i : Nat) (last : Bool) :
    Matched SameLength (encryptChunk w fileKey fileID i last plaintext)
      (encryptChunk w' fileKey' fileID i last plaintext') := by
  simp only [encryptChunk, assertLength, show fileKey'.length = fileKey.length from h]
  split
  · exact .error _
  · split
    · exact .error _
    · refine .ok ?_
      rw [SameLength, hw', hw, show plaintext'.length = plaintext.length from hp]

theorem toHex_length (bs : Bytes) : (toHex bs).length = 2 * bs.length := by
  induction bs with
  | nil => rfl
  | cons b bs ih =>
      obtain ⟨x, y, hxy, -⟩ := byte_hex b
      rw [toHex] at ih
      simp only [toHex, List.flatMap_cons, hxy, List.length_append, List.length_cons,
        List.length_nil, ih]
      omega

theorem shape_buildChunkFrame (fileId : FileId) (i : Nat) (isLast : Bool) (ciphertext : Bytes) :
    (Message.binary (buildChunkFrame fileId i isLast ciphertext)).shape =
      .binary (FRAME_TYPE_CHUNK :: (if isLast then 1 else 0) :: (fileId.bytes ++ beBytes 8 i))
        (26 + ciphertext.length) := by
  have hid := fileId.length_eq
  have hi : (beBytes 8 i).length = 8 := beBytes_length 8 i
  have htake : (fileId.bytes ++ beBytes 8 i ++ ciphertext).take 24 = fileId.bytes ++ beBytes 8 i :=
    List.take_left' (by simp [hid, hi])
  simp only [Message.shape, buildChunkFrame, List.take_succ_cons, htake, List.length_cons,
    List.length_append, hid, hi]
  congr 1
  omega

theorem SameSizes.chunk {a a' : SendArgs} (h : SameSizes a a') (i : Nat) :
    SameLength (a.file.chunk i) (a'.file.chunk i) := by
  have hsize : a'.file.bytes.length = a.file.bytes.length := h.size
  simp only [SameLength, File.chunk, File.slice, List.length_take, List.length_drop, h.size, hsize]

namespace Delivery

open SendFile (Pc)

variable {a a' : SendArgs}

/-! ## The sender -/

/-- Two calls wait for the same thing; what they are encrypting may differ in
content, but not in length. -/
inductive PcAlike : Pc → Pc → Prop where
  | same (pc : Pc) : PcAlike pc pc
  | encrypting (i : Nat) (p p' : Bytes) (hlen : p'.length = p.length) :
      PcAlike (.encryptingChunk i p) (.encryptingChunk i p')

/-- The states differ in the key and in the bytes of the chunk in hand. -/
inductive SenderAlike : SendFile.State → SendFile.State → Prop where
  | mk (s : SendFile.State) (pc' : Pc) (key' : Bytes) (hpc : PcAlike s.pc pc')
      (hkey : key'.length = s.fileKey.length) :
      SenderAlike s { s with pc := pc', fileKey := key' }

/-- Two outcomes of a step: alike, with messages of the same shapes. -/
def OutAlike (r r' : SendFile.State × List Message) : Prop :=
  SenderAlike r.1 r'.1 ∧ r'.2.map Message.shape = r.2.map Message.shape

theorem SenderAlike.refl (s : SendFile.State) : SenderAlike s s := .mk s s.pc s.fileKey (.same _) rfl

variable {s s' : SendFile.State}

theorem SenderAlike.at (h : SenderAlike s s') {pc pc' : Pc} (hpc : PcAlike pc pc') :
    SenderAlike { s with pc := pc } { s' with pc := pc' } := by
  cases h with
  | mk _ key' _ hkey => exact .mk { s with pc := pc } pc' key' hpc hkey

theorem SenderAlike.put (h : SenderAlike s s') {m m' : Message} (hm : m'.shape = m.shape) :
    (s'.put m').map Message.shape = (s.put m).map Message.shape := by
  cases h
  simp only [SendFile.State.put]
  split
  · rfl
  · simp [hm]

/-- A message that goes out before what follows it. -/
theorem SenderAlike.sends (h : SenderAlike s s') {m m' : Message} (hm : m'.shape = m.shape)
    {r r' : SendFile.State × List Message} (hr : OutAlike r r') :
    OutAlike (r.1, s.put m ++ r.2) (r'.1, s'.put m' ++ r'.2) := by
  refine ⟨hr.1, ?_⟩
  rw [List.map_append, List.map_append, hr.2, h.put hm]

theorem SenderAlike.rests (h : SenderAlike s s') (pc : Pc) :
    OutAlike ({ s with pc := pc }, []) ({ s' with pc := pc }, []) :=
  ⟨h.at (.same pc), rfl⟩

theorem SenderAlike.throwErr (hsame : SameSizes a a') (h : SenderAlike s s')
    (err : SendFile.Failure) :
    OutAlike (SendFile.throwErr a s err) (SendFile.throwErr a' s' err) := by
  refine ⟨h.at (.same _), ?_⟩
  have hput := h.put (m := fileAbortMessage a.fileId.hex) rfl
  cases err with
  | abortError => rfl
  | error =>
      cases h
      simp only [SendFile.throwErr, hsame.fileId]
      split
      · rfl
      · exact hput

theorem SenderAlike.afterLoop (hsame : SameSizes a a') (h : SenderAlike s s') :
    OutAlike (SendFile.afterLoop a s) (SendFile.afterLoop a' s') := by
  have hput := h.put (m := fileAbortMessage a.fileId.hex) rfl
  have hrests := h.rests
  have hthrow := h.throwErr hsame
  cases h with
  | mk =>
      simp only [SendFile.afterLoop, hsame.totalChunks, hsame.fileId]
      split
      · split
        · exact hrests _
        · exact hrests _
      next ab hab =>
        obtain ⟨hstate, hout⟩ := hthrow (.abortError (ab.reason.filter (· ≠ [])))
        refine ⟨hstate, ?_⟩
        rw [List.map_append, List.map_append, hout]
        split
        · rfl
        · rw [hput]

theorem SenderAlike.afterWindow (hsame : SameSizes a a') (h : SenderAlike s s') (i : Nat) :
    OutAlike (SendFile.afterWindow a s i) (SendFile.afterWindow a' s' i) := by
  have hrests := h.rests
  have hafter := h.afterLoop hsame
  cases h
  simp only [SendFile.afterWindow]
  split
  · exact hafter
  · exact hrests _

theorem SenderAlike.windowTest (hsame : SameSizes a a') (h : SenderAlike s s') (i : Nat) :
    OutAlike (SendFile.windowTest a s i) (SendFile.windowTest a' s' i) := by
  have hrests := h.rests
  have hafter := h.afterWindow hsame i
  cases h
  simp only [SendFile.windowTest]
  split
  · exact hrests _
  · exact hafter

theorem SenderAlike.forTest (hsame : SameSizes a a') (h : SenderAlike s s') (i : Nat) :
    OutAlike (SendFile.forTest a s i) (SendFile.forTest a' s' i) := by
  simp only [SendFile.forTest, hsame.totalChunks]
  split
  · exact h.windowTest hsame i
  · exact h.afterLoop hsame

theorem SenderAlike.wakeWaiters (hsame : SameSizes a a') (h : SenderAlike s s') :
    OutAlike (SendFile.wakeWaiters a s) (SendFile.wakeWaiters a' s') := by
  have hthrow := h.throwErr hsame
  have hloop := h.afterLoop hsame
  have hwindow := h.afterWindow hsame
  have htest := h.windowTest hsame
  have hstay : OutAlike (s, []) (s', []) := ⟨h, rfl⟩
  cases h with
  | mk pc' key' hpc hkey =>
      unfold SendFile.wakeWaiters
      dsimp only
      generalize hs : s.pc = pc at hpc
      cases hpc with
      | encrypting => exact hstay
      | same =>
          cases pc' with
          | windowWait i =>
              simp only [SendFile.resumeWindow]
              split
              · exact hthrow _
              · split
                · exact hwindow i
                · exact htest i
          | ackWait =>
              simp only [SendFile.resumeAcks]
              split
              · exact hthrow _
              · exact hloop
          | derivingKey | encryptingMeta | readingSlice | encryptingChunk | settled => exact hstay

theorem SenderAlike.listening (h : SenderAlike s s') : s'.listening = s.listening := by
  cases h with
  | mk pc' key' hpc =>
      generalize hs : s.pc = pc at hpc
      cases hpc <;> simp [SendFile.State.listening, hs]

/-- What a listener sets before it wakes the call. -/
theorem SenderAlike.set (h : SenderAlike s s') (f : SendFile.State → SendFile.State)
    (hf : ∀ s pc key, f { s with pc := pc, fileKey := key } = { f s with pc := pc, fileKey := key })
    (hkept : ∀ s, (f s).pc = s.pc ∧ (f s).fileKey = s.fileKey) : SenderAlike (f s) (f s') := by
  cases h with
  | mk pc' key' hpc hkey =>
      rw [hf s pc' key']
      exact .mk _ pc' key' ((hkept s).1 ▸ hpc) (by rw [(hkept s).2]; exact hkey)

theorem SenderAlike.onMessage (hsame : SameSizes a a') (h : SenderAlike s s') (env : Envelope) :
    OutAlike (SendFile.onMessage a s env) (SendFile.onMessage a' s' env) := by
  unfold SendFile.onMessage
  rw [hsame.fileId]
  split
  next p =>
    split
    · exact (h.set (fun s => { s with ackedUpTo := p.ackedUpTo }) (fun _ _ _ => rfl)
        fun _ => ⟨rfl, rfl⟩).wakeWaiters hsame
    · exact ⟨h, rfl⟩
  next p =>
    split
    · exact (h.set (fun s => { s with aborted := some ⟨true, p.reason⟩ }) (fun _ _ _ => rfl)
        fun _ => ⟨rfl, rfl⟩).wakeWaiters hsame
    · exact ⟨h, rfl⟩
  next => exact ⟨h, rfl⟩

theorem SenderAlike.onKeyDerived (hsame : SameSizes a a') (h : SenderAlike s s')
    (err : Option String) :
    OutAlike (SendFile.onKeyDerived a s err) (SendFile.onKeyDerived a' s' err) := by
  have hkey := (deriveFileKey_matched a.w a'.w hsame.key a.fileId.bytes).settle err
  rw [SendFile.onKeyDerived, SendFile.onKeyDerived, hsame.fileId]
  generalize settle err (deriveFileKey a.w a.epochKey a.fileId.bytes) = r,
    settle err (deriveFileKey a'.w a'.epochKey a.fileId.bytes) = r' at hkey
  cases hkey with
  | error e => exact h.rests _
  | @ok key key' hkey =>
      cases h with
      | mk => exact ⟨.mk { s with pc := .encryptingMeta, fileKey := key } _ key' (.same _) hkey, rfl⟩

theorem SenderAlike.fileKey (h : SenderAlike s s') : SameLength s.fileKey s'.fileKey := by
  cases h with
  | mk _ _ _ hkey => exact hkey

theorem SenderAlike.onMetaEncrypted (hsame : SameSizes a a') (hw : a.w.Tagged) (hw' : a'.w.Tagged)
    (h : SenderAlike s s') (err : Option String) :
    OutAlike (SendFile.onMetaEncrypted a s err) (SendFile.onMetaEncrypted a' s' err) := by
  have hsealed := (encryptChunk_matched hw hw' h.fileKey hsame.metadata a.fileId.bytes
    METADATA_CHUNK_INDEX true).settle err
  rw [SendFile.onMetaEncrypted, SendFile.onMetaEncrypted, hsame.fileId]
  generalize settle err (encryptChunk a.w s.fileKey a.fileId.bytes METADATA_CHUNK_INDEX true
      (a.codec.encode a.file.toMeta)) = r,
    settle err (encryptChunk a'.w s'.fileKey a.fileId.bytes METADATA_CHUNK_INDEX true
      (a'.codec.encode a'.file.toMeta)) = r' at hsealed
  cases hsealed with
  | error e => exact h.rests _
  | @ok c c' hlen =>
      have hlen : c'.length = c.length := hlen
      refine h.sends ?_ (h.forTest hsame 0)
      simp only [fileMetaMessage, Message.shape, Option.map_some, toHex_length, hlen]

theorem SenderAlike.onSliceRead (hsame : SameSizes a a') (h : SenderAlike s s') (i : Nat)
    (err : Option String) :
    OutAlike (SendFile.onSliceRead a s i err) (SendFile.onSliceRead a' s' i err) := by
  cases err with
  | none => exact ⟨h.at (.encrypting i _ _ (hsame.chunk i)), rfl⟩
  | some e => exact h.throwErr hsame _

theorem SenderAlike.onChunkEncrypted (hsame : SameSizes a a') (hw : a.w.Tagged)
    (hw' : a'.w.Tagged) (h : SenderAlike s s') (i : Nat) {p p' : Bytes} (hp : SameLength p p')
    (err : Option String) :
    OutAlike (SendFile.onChunkEncrypted a s i p err) (SendFile.onChunkEncrypted a' s' i p' err) := by
  have hsealed := (encryptChunk_matched hw hw' h.fileKey hp a.fileId.bytes i
    (decide (i = a.file.totalChunks - 1))).settle err
  simp only [SendFile.onChunkEncrypted, hsame.fileId, hsame.totalChunks]
  generalize settle err (encryptChunk a.w s.fileKey a.fileId.bytes i
      (decide (i = a.file.totalChunks - 1)) p) = r,
    settle err (encryptChunk a'.w s'.fileKey a.fileId.bytes i
      (decide (i = a.file.totalChunks - 1)) p') = r' at hsealed
  cases hsealed with
  | error e => exact h.throwErr hsame _
  | @ok c c' hlen =>
      have hlen : c'.length = c.length := hlen
      refine h.sends ?_ (h.forTest hsame (i + 1))
      rw [shape_buildChunkFrame, shape_buildChunkFrame, hlen]

theorem SenderAlike.step (hsame : SameSizes a a') (hw : a.w.Tagged) (hw' : a'.w.Tagged)
    (h : SenderAlike s s') (e : SendFile.Event) :
    Option.Rel OutAlike (SendFile.step a s e) (SendFile.step a' s' e) := by
  have hclosed : s'.socketClosed = s.socketClosed := by
    cases h
    rfl
  have hfired : s'.signalFired = s.signalFired := by
    cases h
    rfl
  have hpc : PcAlike s.pc s'.pc := by
    cases h
    assumption
  cases e with
  | message env =>
      simp only [SendFile.step, hclosed, h.listening]
      split
      · exact .none
      · split
        · exact .some (h.onMessage hsame env)
        · exact .some ⟨h, rfl⟩
  | close =>
      have hnow := h.set (fun s => { s with socketClosed := true }) (fun _ _ _ => rfl)
        fun _ => ⟨rfl, rfl⟩
      have hlost := hnow.set (fun s => { s with connectionLost := true }) (fun _ _ _ => rfl)
        fun _ => ⟨rfl, rfl⟩
      simp only [SendFile.step, hclosed, hnow.listening]
      split
      · exact .none
      · split
        · exact .some (hlost.wakeWaiters hsame)
        · exact .some ⟨hnow, rfl⟩
  | signalAbort =>
      have hnow := h.set (fun s => { s with signalFired := true }) (fun _ _ _ => rfl)
        fun _ => ⟨rfl, rfl⟩
      have haborted := hnow.set (fun s => { s with aborted := some ⟨false, none⟩ }) (fun _ _ _ => rfl)
        fun _ => ⟨rfl, rfl⟩
      simp only [SendFile.step, hfired, hnow.listening]
      split
      · exact .none
      · split
        · exact .some (haborted.wakeWaiters hsame)
        · exact .some ⟨hnow, rfl⟩
  | keyDerived err | metaEncrypted err | sliceRead err | chunkEncrypted err =>
      unfold SendFile.step
      generalize s.pc = pc, s'.pc = pc' at hpc
      cases hpc with
      | encrypting i p p' hlen =>
          first
          | exact .none
          | exact .some (h.onChunkEncrypted hsame hw hw' i hlen err)
      | same pc =>
          cases pc <;>
            first
            | exact .none
            | exact .some (h.onKeyDerived hsame err)
            | exact .some (h.onMetaEncrypted hsame hw hw' err)
            | exact .some (h.onSliceRead hsame _ err)
            | exact .some (h.onChunkEncrypted hsame hw hw' _ rfl err)

end Delivery

end Quicksend
