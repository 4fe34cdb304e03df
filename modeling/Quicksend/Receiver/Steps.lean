import Quicksend.Receiver

/-!
# What one step of the receiver can do

The inversion of `Receiver.step`, one constructor for each way through the
handlers, and the invariant that ties the running chain step to `current`:
only the chain sets `current`, so while a chunk's step is suspended it is
the chunk's file at the chunk's index, or gone.
-/

namespace Quicksend.Receiver

variable {a : ReceiverArgs}

/-- The kinds of messages that become a step of the chain. -/
def isChainStep : Message → Bool
  | .text (.fileMeta _) | .text (.fileAbort _) | .binary _ => true
  | .text (.chunkAck _) | .text .other => false

/-- A chain step for `m` does not report an error when it begins. -/
def Fits (s : State) : Message → Prop
  | .text (.fileMeta payload) =>
      match payload with
      | some ⟨some _, _⟩ => True
      | _ => False
  | .text (.fileAbort payload) => s.current.isSome = true → payload.isSome = true
  | .binary buffer =>
      match parseChunkFrame buffer, s.current with
      | some frame, some c =>
          toHex frame.fileId.bytes = c.fileIdHex ∧ frame.index = c.expectedIndex
      | _, _ => True
  | .text (.chunkAck _) | .text .other => True

/-- The suspended step fails when its promise settles: the promise rejects,
or what follows it throws. -/
def Fails (a : ReceiverArgs) (s : State) (err : Option String) : Task → Prop
  | .metaKey fileIdHex ciphertext =>
      match settle err (deriveFileKey a.w a.epochKey (fromHex fileIdHex)) with
      | .ok _ => ciphertext = none
      | .error _ => True
  | .metaDecrypt fileIdHex fileKey ciphertext =>
      match settle err (decryptChunk a.w fileKey (fromHex fileIdHex) METADATA_CHUNK_INDEX true
          ciphertext) with
      | .ok plaintext => a.codec.decode plaintext = none
      | .error _ => True
  | .metaStart _ _ _ | .chunkWrite _ _ _ _ => err ≠ none
  | .chunkDecrypt fileKey frame =>
      match settle err (decryptChunk a.w fileKey frame.fileId.bytes frame.index frame.isLast
          frame.ciphertext) with
      | .ok _ => s.current = none
      | .error _ => True

instance (s : State) (m : Message) : Decidable (Fits s m) := by
  unfold Fits
  split
  · split <;> infer_instance
  · infer_instance
  · split <;> infer_instance
  · infer_instance
  · infer_instance

instance (a : ReceiverArgs) (s : State) (err : Option String) (task : Task) :
    Decidable (Fails a s err task) := by
  unfold Fails
  split
  · split <;> infer_instance
  · split <;> infer_instance
  · infer_instance
  · infer_instance
  · split <;> infer_instance

/-- What one step can do, guards included: one constructor for each outcome of
each await, with what it calls and sends. -/
inductive Steps (a : ReceiverArgs) (s : State) : Event → State → List Action → Prop where
  | queued (m : Message) (hopen : s.socketClosed = false) (hm : isChainStep m = true) :
      Steps a s (.message m) { s with chain := s.chain ++ [m] } []
  | ignored (m : Message) (hopen : s.socketClosed = false)
      (h : s.attached = true → isChainStep m = false) : Steps a s (.message m) s []
  | metaBegun (fileIdHex : JSString) (ciphertext : Option JSString) (chain : List Message)
      (hrun : s.running = none)
      (hchain : s.chain = .text (.fileMeta (some ⟨some fileIdHex, ciphertext⟩)) :: chain) :
      Steps a s .start
        { s with chain := chain, running := some (.metaKey fileIdHex ciphertext) } []
  | chunkBegun (buffer : Bytes) (frame : ChunkFrame) (c : Current) (chain : List Message)
      (hrun : s.running = none) (hchain : s.chain = .binary buffer :: chain)
      (hparse : parseChunkFrame buffer = some frame) (hcur : s.current = some c)
      (hid : toHex frame.fileId.bytes = c.fileIdHex) (hindex : frame.index = c.expectedIndex) :
      Steps a s .start { s with chain := chain, running := some (.chunkDecrypt c.fileKey frame) } []
  | peerAborted (c : Current) (p : FileAbortPayload) (chain : List Message)
      (hrun : s.running = none) (hchain : s.chain = .text (.fileAbort (some p)) :: chain)
      (hcur : s.current = some c) (hid : p.fileId = some c.fileIdHex) :
      Steps a s .start { s with chain := chain, current := none }
        [.onAborted c.fileIdHex p.reason]
  | dropped (m : Message) (chain : List Message) (hrun : s.running = none)
      (hchain : s.chain = m :: chain) : Steps a s .start { s with chain := chain } []
  | refused (m : Message) (chain : List Message) (e : String) (hrun : s.running = none)
      (hchain : s.chain = m :: chain) (hfit : ¬ Fits s m) :
      Steps a s .start { s with chain := chain } [.onError e]
  | failed (task : Task) (err : Option String) (e : String) (hrun : s.running = some task)
      (hfail : Fails a s err task) :
      Steps a s (.resume err) { s with running := none } [.onError e]
  | metaKeyed (fileIdHex ciphertext : JSString) (fileKey : Bytes)
      (hrun : s.running = some (.metaKey fileIdHex (some ciphertext)))
      (hkey : deriveFileKey a.w a.epochKey (fromHex fileIdHex) = .ok fileKey) :
      Steps a s (.resume none)
        { s with running := some (.metaDecrypt fileIdHex fileKey (fromHex ciphertext)) } []
  | metaOpened (fileIdHex : JSString) (fileKey ciphertext plaintext : Bytes) (info : FileMeta)
      (hrun : s.running = some (.metaDecrypt fileIdHex fileKey ciphertext))
      (hopens : decryptChunk a.w fileKey (fromHex fileIdHex) METADATA_CHUNK_INDEX true ciphertext
        = .ok plaintext)
      (hinfo : a.codec.decode plaintext = some info) :
      Steps a s (.resume none)
        { s with
          current := some { fileIdHex := fileIdHex, fileKey := fileKey, expectedIndex := 0 }
          running := some (.metaStart fileIdHex fileKey ciphertext) }
        [.onFileStart fileIdHex info]
  | metaDone (fileIdHex : JSString) (fileKey ciphertext : Bytes)
      (hrun : s.running = some (.metaStart fileIdHex fileKey ciphertext)) :
      Steps a s (.resume none) { s with running := none } []
  | chunkOpened (fileKey : Bytes) (frame : ChunkFrame) (c : Current) (plaintext : Bytes)
      (hrun : s.running = some (.chunkDecrypt fileKey frame)) (hcur : s.current = some c)
      (hopens : decryptChunk a.w fileKey frame.fileId.bytes frame.index frame.isLast
        frame.ciphertext = .ok plaintext) :
      Steps a s (.resume none)
        { s with running := some (.chunkWrite fileKey frame c.expectedIndex plaintext) }
        [.onChunk (toHex frame.fileId.bytes) c.expectedIndex frame.isLast plaintext]
  | chunkOrphaned (fileKey : Bytes) (frame : ChunkFrame) (index : Nat) (plaintext : Bytes)
      (hrun : s.running = some (.chunkWrite fileKey frame index plaintext))
      (hcur : s.current = none) :
      Steps a s (.resume none) { s with running := none }
        (.chunkResolved (toHex frame.fileId.bytes) index frame.isLast plaintext
          :: s.put (chunkAckMessage (toHex frame.fileId.bytes) index) ++ [.onError "TypeError"])
  | chunkLast (fileKey : Bytes) (frame : ChunkFrame) (index : Nat) (plaintext : Bytes) (c : Current)
      (hrun : s.running = some (.chunkWrite fileKey frame index plaintext))
      (hcur : s.current = some c) (hlast : frame.isLast = true) :
      Steps a s (.resume none) { s with running := none, current := none }
        (.chunkResolved (toHex frame.fileId.bytes) index frame.isLast plaintext
          :: s.put (chunkAckMessage (toHex frame.fileId.bytes) index)
          ++ [.onFileComplete (toHex frame.fileId.bytes)])
  | chunkMore (fileKey : Bytes) (frame : ChunkFrame) (index : Nat) (plaintext : Bytes) (c : Current)
      (hrun : s.running = some (.chunkWrite fileKey frame index plaintext))
      (hcur : s.current = some c) (hlast : frame.isLast = false) :
      Steps a s (.resume none)
        { s with
          running := none
          current := some { c with expectedIndex := c.expectedIndex + 1 } }
        (.chunkResolved (toHex frame.fileId.bytes) index frame.isLast plaintext
          :: s.put (chunkAckMessage (toHex frame.fileId.bytes) index))
  | closed (c : Current) (hopen : s.socketClosed = false) (hatt : s.attached = true)
      (hcur : s.current = some c) :
      Steps a s .close { s with socketClosed := true, current := none }
        [.onError "connection_lost"]
  | closedIdle (hopen : s.socketClosed = false) (h : s.attached = true → s.current = none) :
      Steps a s .close { s with socketClosed := true } []
  | aborted (c : Current) (hcur : s.current = some c) :
      Steps a s .abortCurrent { s with current := none }
        (s.put (fileAbortMessage c.fileIdHex) ++ [.onAborted c.fileIdHex none])
  | abortedIdle (hcur : s.current = none) : Steps a s .abortCurrent s []
  | detached : Steps a s .detach { s with attached := false } []

theorem startStep_steps {s t : State} {m : Message} {chain : List Message} {out : List Action}
    (hrun : s.running = none) (hchain : s.chain = m :: chain)
    (h : startStep { s with chain := chain } m = (t, out)) : Steps a s .start t out := by
  unfold startStep at h
  split at h
  next payload =>
    unfold handleFileMeta at h
    split at h
    next fileId ciphertext =>
      obtain ⟨rfl, rfl⟩ := Prod.mk.inj h
      exact .metaBegun fileId ciphertext chain hrun hchain
    next hno =>
      obtain ⟨rfl, rfl⟩ := Prod.mk.inj h
      exact .refused _ chain _ hrun hchain fun hfit => by simp only [Fits] at hfit
  next payload =>
    unfold handleFileAbort at h
    split at h
    next =>
      obtain ⟨rfl, rfl⟩ := Prod.mk.inj h
      exact .dropped _ chain hrun hchain
    next c hcur =>
      obtain ⟨rfl, rfl⟩ := Prod.mk.inj h
      -- a `file_abort` without a payload throws while a file is being received
      refine .refused _ chain _ hrun hchain fun hfit => ?_
      have hcur : s.current = some c := hcur
      simpa using hfit (by simp [hcur])
    next c p hcur =>
      split at h
      next hid =>
        obtain ⟨rfl, rfl⟩ := Prod.mk.inj h
        exact .dropped _ chain hrun hchain
      next hid =>
        obtain ⟨rfl, rfl⟩ := Prod.mk.inj h
        exact .peerAborted c p chain hrun hchain hcur (not_not.mp hid)
  next buffer =>
    unfold handleChunkFrame at h
    split at h
    next =>
      obtain ⟨rfl, rfl⟩ := Prod.mk.inj h
      exact .dropped _ chain hrun hchain
    next =>
      obtain ⟨rfl, rfl⟩ := Prod.mk.inj h
      exact .dropped _ chain hrun hchain
    next frame c hparse hcur =>
      split at h
      next hbad =>
        obtain ⟨rfl, rfl⟩ := Prod.mk.inj h
        refine .refused _ chain _ hrun hchain fun hfit => ?_
        have hcur : s.current = some c := hcur
        simp only [Fits, hparse, hcur] at hfit
        exact hbad.elim (· hfit.1) (· hfit.2)
      -- a frame of the current file, and the one that is due
      next hgood =>
        obtain ⟨rfl, rfl⟩ := Prod.mk.inj h
        rw [not_or, not_not, not_not] at hgood
        exact .chunkBegun buffer frame c chain hrun hchain hparse hcur hgood.1 hgood.2
  all_goals
    obtain ⟨rfl, rfl⟩ := Prod.mk.inj h
    exact .dropped _ chain hrun hchain

/-- An operation that settles without failing on its own did so as computed. -/
theorem settle_eq_ok {α : Type} {err : Option String} {r : Except String α} {x : α}
    (h : settle err r = .ok x) : err = none ∧ r = .ok x := by
  cases err with
  | none => exact ⟨rfl, h⟩
  | some e => cases h

theorem resumeStep_steps {s t : State} {task : Task} {err : Option String} {out : List Action}
    (hrun : s.running = some task) (h : resumeStep a s task err = (t, out)) :
    Steps a s (.resume err) t out := by
  cases task with
  | metaKey fileIdHex ciphertext =>
      change onMetaKey a s fileIdHex ciphertext err = _ at h
      unfold onMetaKey at h
      split at h
      next fileKey ct hk =>
        obtain ⟨rfl, hk⟩ := settle_eq_ok hk
        obtain ⟨rfl, rfl⟩ := Prod.mk.inj h
        exact .metaKeyed fileIdHex ct fileKey hrun hk
      next hk =>
        obtain ⟨rfl, rfl⟩ := Prod.mk.inj h
        exact .failed _ err _ hrun (by simp [Fails, hk])
      next e hk =>
        obtain ⟨rfl, rfl⟩ := Prod.mk.inj h
        exact .failed _ err _ hrun (by simp [Fails, hk])
  | metaDecrypt fileIdHex fileKey ciphertext =>
      change onMetaDecrypt a s fileIdHex fileKey ciphertext err = _ at h
      unfold onMetaDecrypt at h
      split at h
      next plaintext hd =>
        split at h
        next info hinfo =>
          obtain ⟨rfl, hd⟩ := settle_eq_ok hd
          obtain ⟨rfl, rfl⟩ := Prod.mk.inj h
          exact .metaOpened fileIdHex fileKey ciphertext plaintext info hrun hd hinfo
        next hinfo =>
          obtain ⟨rfl, rfl⟩ := Prod.mk.inj h
          exact .failed _ err _ hrun (by simp [Fails, hd, hinfo])
      next e hd =>
        obtain ⟨rfl, rfl⟩ := Prod.mk.inj h
        exact .failed _ err _ hrun (by simp [Fails, hd])
  | metaStart fileIdHex fileKey ciphertext =>
      cases err with
      | none =>
          obtain ⟨rfl, rfl⟩ := Prod.mk.inj h
          exact .metaDone fileIdHex fileKey ciphertext hrun
      | some e =>
          obtain ⟨rfl, rfl⟩ := Prod.mk.inj h
          exact .failed _ _ e hrun (by simp [Fails])
  | chunkDecrypt fileKey frame =>
      change onChunkDecrypt a s fileKey frame err = _ at h
      unfold onChunkDecrypt at h
      split at h
      next plaintext c hd hcur =>
        obtain ⟨rfl, hd⟩ := settle_eq_ok hd
        obtain ⟨rfl, rfl⟩ := Prod.mk.inj h
        exact .chunkOpened fileKey frame c plaintext hrun hcur hd
      -- the file was given up while its chunk was decrypted
      next hd hcur =>
        obtain ⟨rfl, rfl⟩ := Prod.mk.inj h
        exact .failed _ err _ hrun (by simp [Fails, hd, hcur])
      next e hd =>
        obtain ⟨rfl, rfl⟩ := Prod.mk.inj h
        exact .failed _ err _ hrun (by simp [Fails, hd])
  | chunkWrite fileKey frame index plaintext =>
      change onChunkWrite s frame index plaintext err = _ at h
      unfold onChunkWrite at h
      split at h
      next e =>
        obtain ⟨rfl, rfl⟩ := Prod.mk.inj h
        exact .failed _ _ e hrun (by simp [Fails])
      next =>
        dsimp only at h
        split at h
        -- it was given up while the chunk was written: acked all the same
        next hcur =>
          obtain ⟨rfl, rfl⟩ := Prod.mk.inj h
          exact .chunkOrphaned fileKey frame index plaintext hrun hcur
        next c hcur =>
          split at h
          next hlast =>
            obtain ⟨rfl, rfl⟩ := Prod.mk.inj h
            exact .chunkLast fileKey frame index plaintext c hrun hcur hlast
          next hlast =>
            obtain ⟨rfl, rfl⟩ := Prod.mk.inj h
            exact .chunkMore fileKey frame index plaintext c hrun hcur (by simpa using hlast)

/-- **The step inversion.** -/
theorem step_spec {s t : State} {e : Event} {out : List Action}
    (h : step a s e = some (t, out)) : Steps a s e t out := by
  cases e with
  | message m =>
      rw [step] at h
      split at h
      next => cases h
      next hopen =>
        have hopen : s.socketClosed = false := by simpa using hopen
        split at h
        next hatt =>
          obtain ⟨rfl, rfl⟩ := Prod.mk.inj (Option.some.inj h)
          unfold onMessage
          split <;> first | exact .queued _ hopen rfl | exact .ignored _ hopen fun _ => rfl
        next hatt =>
          obtain ⟨rfl, rfl⟩ := Prod.mk.inj (Option.some.inj h)
          exact .ignored m hopen fun h => absurd h hatt
  | start =>
      rw [step] at h
      split at h
      next m chain hrun hchain => exact startStep_steps hrun hchain (Option.some.inj h)
      next => cases h
  | resume err =>
      rw [step] at h
      split at h
      next task hrun => exact resumeStep_steps hrun (Option.some.inj h)
      next => cases h
  | close =>
      rw [step] at h
      split at h
      next => cases h
      next hopen =>
        have hopen : s.socketClosed = false := by simpa using hopen
        dsimp only at h
        split at h
        next hatt =>
          rw [onClose] at h
          split at h
          next c hcur =>
            obtain ⟨rfl, rfl⟩ := Prod.mk.inj (Option.some.inj h)
            exact .closed c hopen hatt hcur
          next hcur =>
            obtain ⟨rfl, rfl⟩ := Prod.mk.inj (Option.some.inj h)
            exact .closedIdle hopen fun _ => hcur
        next hatt =>
          obtain ⟨rfl, rfl⟩ := Prod.mk.inj (Option.some.inj h)
          exact .closedIdle hopen fun h => absurd h hatt
  | abortCurrent =>
      rw [step, abortCurrent] at h
      split at h
      next c hcur =>
        obtain ⟨rfl, rfl⟩ := Prod.mk.inj (Option.some.inj h)
        exact .aborted c hcur
      next hcur =>
        obtain ⟨rfl, rfl⟩ := Prod.mk.inj (Option.some.inj h)
        exact .abortedIdle hcur
  | detach =>
      obtain ⟨rfl, rfl⟩ := Prod.mk.inj (Option.some.inj h)
      exact .detached

/-! ## The running step and `current` -/

/-- `current` is the file of this frame, at its index, under its key. -/
def Current.AtFrame (c : Current) (fileKey : Bytes) (frame : ChunkFrame) : Prop :=
  c.fileIdHex = toHex frame.fileId.bytes ∧ c.expectedIndex = frame.index ∧ c.fileKey = fileKey

/-- The running step against `current`: its key is the file's, what it has
opened opens, and a chunk's step is about `current` while there is one. -/
def TaskOk (a : ReceiverArgs) (current : Option Current) : Task → Prop
  | .metaKey _ _ => True
  | .metaDecrypt fileIdHex fileKey _ =>
      deriveFileKey a.w a.epochKey (fromHex fileIdHex) = .ok fileKey
  | .metaStart fileIdHex fileKey ciphertext =>
      deriveFileKey a.w a.epochKey (fromHex fileIdHex) = .ok fileKey ∧
        (∃ plaintext, decryptChunk a.w fileKey (fromHex fileIdHex) METADATA_CHUNK_INDEX true
          ciphertext = .ok plaintext) ∧
        ∀ c, current = some c → c = ⟨fileIdHex, fileKey, 0⟩
  | .chunkDecrypt fileKey frame =>
      deriveFileKey a.w a.epochKey frame.fileId.bytes = .ok fileKey ∧ frame.index < 2 ^ 64 ∧
        ∀ c, current = some c → c.AtFrame fileKey frame
  | .chunkWrite fileKey frame index plaintext =>
      deriveFileKey a.w a.epochKey frame.fileId.bytes = .ok fileKey ∧ frame.index < 2 ^ 64 ∧
        decryptChunk a.w fileKey frame.fileId.bytes frame.index frame.isLast frame.ciphertext
          = .ok plaintext ∧
        index = frame.index ∧ ∀ c, current = some c → c.AtFrame fileKey frame

/-- The receiver's keys are those of its epoch: that of the current file and those
that the running step works with. -/
structure Coherent (a : ReceiverArgs) (s : State) : Prop where
  keyed : ∀ c, s.current = some c →
    deriveFileKey a.w a.epochKey (fromHex c.fileIdHex) = .ok c.fileKey
  task : ∀ task, s.running = some task → TaskOk a s.current task

theorem Coherent.init (a : ReceiverArgs) : Coherent a Receiver.init where
  keyed _ h := by cases h
  task _ h := by cases h

/-- Losing `current` contradicts nothing the running step relies on. -/
theorem TaskOk.drop {current : Option Current} {task : Task} (h : TaskOk a current task) :
    TaskOk a none task := by
  cases task with
  | metaKey | metaDecrypt => exact h
  | metaStart => exact ⟨h.1, h.2.1, by simp⟩
  | chunkDecrypt => exact ⟨h.1, h.2.1, by simp⟩
  | chunkWrite => exact ⟨h.1, h.2.1, h.2.2.1, h.2.2.2.1, by simp⟩

theorem Steps.coherent {s t : State} {e : Event} {out : List Action} (h : Steps a s e t out)
    (hs : Coherent a s) : Coherent a t := by
  cases h with
  | queued | ignored | detached | dropped | refused | closedIdle | abortedIdle =>
      exact ⟨hs.keyed, hs.task⟩
  | metaBegun fileIdHex ciphertext chain hrun hchain =>
      refine ⟨hs.keyed, fun task ht => ?_⟩
      obtain rfl := Option.some.inj ht
      trivial
  | chunkBegun buffer frame c chain hrun hchain hparse hcur hid hindex =>
      refine ⟨hs.keyed, fun task ht => ?_⟩
      obtain rfl := Option.some.inj ht
      have hkey := hs.keyed c hcur
      rw [← hid, fromHex_toHex] at hkey
      refine ⟨hkey, parseChunkFrame_index_lt hparse, fun c' hc' => ?_⟩
      obtain rfl := Option.some.inj (hcur.symm.trans hc')
      exact ⟨hid.symm, hindex.symm, rfl⟩
  | peerAborted c p chain hrun hchain hcur hid =>
      exact ⟨by simp, fun task ht => (hs.task task ht).drop⟩
  | failed task err e hrun hfail => exact ⟨hs.keyed, by simp⟩
  | metaKeyed fileIdHex ciphertext fileKey hrun hkey =>
      refine ⟨hs.keyed, fun task ht => ?_⟩
      obtain rfl := Option.some.inj ht
      exact hkey
  | metaOpened fileIdHex fileKey ciphertext plaintext info hrun hopens hinfo =>
      have hkey : TaskOk a s.current (.metaDecrypt fileIdHex fileKey ciphertext) := hs.task _ hrun
      refine ⟨fun c hc => ?_, fun task ht => ?_⟩
      · obtain rfl := Option.some.inj hc
        exact hkey
      · obtain rfl := Option.some.inj ht
        exact ⟨hkey, ⟨plaintext, hopens⟩, fun c hc => (Option.some.inj hc).symm⟩
  | metaDone => exact ⟨hs.keyed, by simp⟩
  | chunkOpened fileKey frame c plaintext hrun hcur hopens =>
      refine ⟨hs.keyed, fun task ht => ?_⟩
      obtain rfl := Option.some.inj ht
      obtain ⟨hkey, hlt, hat⟩ : TaskOk a s.current (.chunkDecrypt fileKey frame) := hs.task _ hrun
      exact ⟨hkey, hlt, hopens, (hat c hcur).2.1, hat⟩
  | chunkOrphaned => exact ⟨hs.keyed, by simp⟩
  | chunkLast => exact ⟨by simp, by simp⟩
  | chunkMore fileKey frame index plaintext c hrun hcur hlast =>
      refine ⟨fun c' hc' => ?_, by simp⟩
      obtain rfl := Option.some.inj hc'
      exact hs.keyed c hcur
  | closed | aborted =>
      exact ⟨by simp, fun task ht => (hs.task task ht).drop⟩

end Quicksend.Receiver
