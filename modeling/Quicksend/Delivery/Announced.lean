import Quicksend.Delivery.Delivered

/-!
# The file that is announced

`onFileStart` is called for the file that `sendFile` sends and for no other, with
the metadata that its sender encrypted, and before the file is completed.
-/

namespace Quicksend.Delivery

open Receiver (Action Task)

variable {a : SendArgs} {x y : State}

/-- What reaches the receiver: what `sendFile` sent, and the relay's notices. -/
def FromSender (a : SendArgs) (m : Message) : Prop :=
  SendFile.Emits a m ∨ m = sizeLimitAbortMessage a.fileId.hex

/-- The bytes are the metadata of this very file, encrypted as `sendFile` does it. -/
def IsMetadata (a : SendArgs) (ciphertext : Bytes) : Prop :=
  SendFile.Encrypts a METADATA_CHUNK_INDEX true (a.codec.encode a.file.toMeta) ciphertext

/-- The running step opens the metadata of the file. -/
def Opens (a : SendArgs) : Task → Prop
  | .metaKey fileIdHex ciphertext =>
      fileIdHex = a.fileId.hex ∧ ∃ c, IsMetadata a c ∧ ciphertext = some (toHex c)
  | .metaDecrypt fileIdHex fileKey ciphertext =>
      fileIdHex = a.fileId.hex ∧ IsMetadata a ciphertext ∧
        deriveFileKey a.w a.epochKey a.fileId.bytes = .ok fileKey
  | .metaStart _ _ _ | .chunkDecrypt _ _ | .chunkWrite _ _ _ _ => True

/-- What the receiver keeps of announcements: it tells its page of no other file
and no other metadata than those of the sender. -/
structure Announces (a : SendArgs) (s : Receiver.State) (log : List Action) : Prop where
  coherent : Receiver.Coherent a.receiver s
  chain : ∀ m ∈ s.chain, FromSender a m
  task : ∀ task, s.running = some task → Opens a task
  info : ∀ id info, .onFileStart id info ∈ log →
    id = a.fileId.hex ∧ a.codec.decode (a.codec.encode a.file.toMeta) = some info
  current : ∀ c, s.current = some c → ∃ info, .onFileStart c.fileIdHex info ∈ log
  complete : ∀ id, .onFileComplete id ∈ log → ∃ info, .onFileStart id info ∈ log

theorem Announces.init (a : SendArgs) : Announces a Receiver.init [] where
  coherent := .init a.receiver
  chain _ h := by cases h
  task _ h := by cases h
  info _ _ h := by cases h
  current _ h := by cases h
  complete _ h := by cases h

/-- The metadata message of the file. -/
theorem FromSender.metadata {fileIdHex : JSString} {ciphertext : Option JSString}
    (h : FromSender a (.text (.fileMeta (some ⟨some fileIdHex, ciphertext⟩)))) :
    Opens a (.metaKey fileIdHex ciphertext) := by
  obtain h | h := h
  · generalize hm : Message.text (.fileMeta (some ⟨some fileIdHex, ciphertext⟩)) = m at h
    cases h with
    | fileMeta c hc =>
        cases hm
        exact ⟨rfl, c, hc, rfl⟩
    | chunk | fileAbort => cases hm
  · cases h

/-- What opens as the metadata is what was encrypted. -/
theorem IsMetadata.opened {ciphertext plaintext fileKey : Bytes} (h : IsMetadata a ciphertext)
    (hkey : deriveFileKey a.w a.epochKey a.fileId.bytes = .ok fileKey)
    (hopens : decryptChunk a.w fileKey a.fileId.bytes METADATA_CHUNK_INDEX true ciphertext =
      .ok plaintext) : plaintext = a.codec.encode a.file.toMeta := by
  obtain ⟨-, key, hkey', henc⟩ := h
  obtain rfl := Except.ok.inj (hkey.symm.trans hkey')
  exact (Except.ok.inj ((decryptChunk_encryptChunk henc).symm.trans hopens)).symm

/-- A step that neither begins nor ends a file. -/
theorem Announces.report {s t : Receiver.State} {log out : List Action} (h : Announces a s log)
    (ht : Receiver.Coherent a.receiver t) (hchain : ∀ m ∈ t.chain, FromSender a m)
    (htask : ∀ task, t.running = some task → Opens a task)
    (hcur : ∀ c, t.current = some c → ∃ c', s.current = some c' ∧ c'.fileIdHex = c.fileIdHex)
    (hstart : ∀ id info, .onFileStart id info ∉ out)
    (hcomplete : ∀ id, .onFileComplete id ∈ out → ∃ c, s.current = some c ∧ c.fileIdHex = id) :
    Announces a t (log ++ out) where
  coherent := ht
  chain := hchain
  task := htask
  info id info hmem := (List.mem_append.mp hmem).elim (h.info id info) fun hmem =>
    absurd hmem (hstart id info)
  current c hc := by
    obtain ⟨c', hc', hid⟩ := hcur c hc
    obtain ⟨info, hinfo⟩ := h.current c' hc'
    exact ⟨info, List.mem_append_left _ (hid ▸ hinfo)⟩
  complete id hmem := by
    obtain hmem | hmem := List.mem_append.mp hmem
    · obtain ⟨info, hinfo⟩ := h.complete id hmem
      exact ⟨info, List.mem_append_left _ hinfo⟩
    · obtain ⟨c, hc, rfl⟩ := hcomplete id hmem
      obtain ⟨info, hinfo⟩ := h.current c hc
      exact ⟨info, List.mem_append_left _ hinfo⟩

@[simp] theorem onFileStart_not_mem_put (s : Receiver.State) (m : Message) (id : JSString)
    (info : FileMeta) : .onFileStart id info ∉ s.put m :=
  (quiet_put s m).not_mem rfl

@[simp] theorem onFileComplete_not_mem_put (s : Receiver.State) (m : Message) (id : JSString) :
    .onFileComplete id ∉ s.put m :=
  (quiet_put s m).not_mem rfl

theorem Announces.step {s t : Receiver.State} {log out : List Action} {e : Receiver.Event}
    (h : Announces a s log) (hst : Receiver.Steps a.receiver s e t out)
    (hm : ∀ m, e = .message m → FromSender a m) : Announces a t (log ++ out) := by
  have ht := hst.coherent h.coherent
  have kept (c : Receiver.Current) (hc : s.current = some c) :
      ∃ c', s.current = some c' ∧ c'.fileIdHex = c.fileIdHex := ⟨c, hc, rfl⟩
  have tail {m : Message} {chain : List Message} (hchain : s.chain = m :: chain) :
      ∀ m ∈ chain, FromSender a m := fun m hmem => h.chain m (by rw [hchain]; simp [hmem])
  cases hst with
  | queued m =>
      refine h.report ht (fun m' hm' => ?_) h.task kept (by simp) (by simp)
      obtain hm' | hm' := List.mem_append.mp hm'
      · exact h.chain m' hm'
      · exact hm m' (by rw [List.mem_singleton.mp hm'])
  | ignored | closedIdle | abortedIdle | detached =>
      exact h.report ht h.chain h.task kept (by simp) (by simp)
  | metaBegun fileIdHex ciphertext chain hrun hchain =>
      refine h.report ht (tail hchain) (fun task htask => ?_) kept (by simp) (by simp)
      obtain rfl := Option.some.inj htask
      exact FromSender.metadata (h.chain _ (by rw [hchain]; simp))
  | chunkBegun buffer frame c chain hrun hchain =>
      refine h.report ht (tail hchain) (fun task htask => ?_) kept (by simp) (by simp)
      obtain rfl := Option.some.inj htask
      trivial
  | peerAborted c p chain hrun hchain =>
      exact h.report ht (tail hchain) h.task (fun c hc => by cases hc) (by simp) (by simp)
  | dropped m chain hrun hchain | refused m chain e hrun hchain =>
      exact h.report ht (tail hchain) h.task kept (by simp) (by simp)
  | failed task err e hrun => exact h.report ht h.chain (by simp) kept (by simp) (by simp)
  | metaKeyed fileIdHex ciphertext key hrun hkey =>
      refine h.report ht h.chain (fun task htask => ?_) kept (by simp) (by simp)
      obtain rfl := Option.some.inj htask
      obtain ⟨rfl, c, hc, hhex⟩ := h.task _ hrun
      obtain rfl := Option.some.inj hhex
      rw [FileId.hex, fromHex_toHex] at hkey
      exact ⟨rfl, by rw [fromHex_toHex]; exact hc, hkey⟩
  | metaOpened fileIdHex key ciphertext plaintext info hrun hopens hinfo =>
      obtain ⟨rfl, hc, hkey⟩ := h.task _ hrun
      rw [FileId.hex, fromHex_toHex] at hopens
      obtain rfl := hc.opened hkey hopens
      refine ⟨ht, h.chain, fun task htask => ?_, fun id info' hmem => ?_, fun c hc => ?_,
        fun id hmem => ?_⟩
      · obtain rfl := Option.some.inj htask
        trivial
      · obtain hmem | hmem := List.mem_append.mp hmem
        · exact h.info id info' hmem
        · obtain ⟨rfl, rfl⟩ : id = a.fileId.hex ∧ info' = info := by simpa using hmem
          exact ⟨rfl, hinfo⟩
      · obtain rfl := Option.some.inj hc
        exact ⟨info, by simp⟩
      · obtain hmem | hmem := List.mem_append.mp hmem
        · obtain ⟨info, hinfo⟩ := h.complete id hmem
          exact ⟨info, List.mem_append_left _ hinfo⟩
        · simp at hmem
  | metaDone => exact h.report ht h.chain (by simp) kept (by simp) (by simp)
  | chunkOpened key frame c plaintext hrun hcur =>
      refine h.report ht h.chain (fun task htask => ?_) kept (by simp) (by simp)
      obtain rfl := Option.some.inj htask
      trivial
  | chunkOrphaned key frame index plaintext hrun hcur =>
      exact h.report ht h.chain (by simp) kept (by simp) (by simp)
  | chunkLast key frame index plaintext c hrun hcur hlast =>
      have hfile : c.fileIdHex = toHex frame.fileId.bytes :=
        ((h.coherent.task _ hrun).2.2.2.2 c hcur).1
      exact h.report ht h.chain (by simp) (fun c hc => by cases hc) (by simp)
        (by simpa using ⟨c, hcur, hfile⟩)
  | chunkMore key frame index plaintext c hrun hcur hlast =>
      refine h.report ht h.chain (by simp) (fun c' hc' => ?_) (by simp) (by simp)
      obtain rfl := Option.some.inj hc'
      exact ⟨c, hcur, rfl⟩
  | closed c => exact h.report ht h.chain h.task (fun c hc => by cases hc) (by simp) (by simp)
  | aborted c hcur =>
      exact h.report ht h.chain h.task (fun c hc => by cases hc) (by simp) (by simp)

/-! ## The whole system -/

/-- All that is on its way to the receiver comes from the sender, and the receiver
has announced nothing else. -/
structure Announced (a : SendArgs) (x : State) : Prop where
  sndUp : ∀ m ∈ x.sndUp, SendFile.Emits a m
  rcvDown : ∀ m ∈ x.rcvDown, FromSender a m
  receiver : Announces a x.rcv x.log

theorem Announced.init (a : SendArgs) : Announced a Delivery.init where
  sndUp _ h := by cases h
  rcvDown _ h := by cases h
  receiver := .init a

theorem Announced.sender {e : SendFile.Event} {rest : List Message} (h : Announced a x)
    (hx : Inv a x) (hs : stepSender a x e rest = some y) : Announced a y := by
  obtain ⟨t, out, hst, rfl⟩ := stepSender_spec hx hs
  exact ⟨fun m hm => (List.mem_append.mp hm).elim (h.sndUp m) (hst.emits hx.sender m), h.rcvDown,
    h.receiver⟩

theorem Announced.own {e : Receiver.Event} (h : Announced a x) (he : ∀ m, e ≠ .message m)
    (hs : stepReceiver a x e x.rcvDown = some y) : Announced a y := by
  obtain ⟨t, out, hst, rfl⟩ := stepReceiver_spec hs
  exact ⟨h.sndUp, h.rcvDown, h.receiver.step hst fun m hm => absurd hm (he m)⟩

theorem announced_step {e : Event} (h : Announced a x) (hx : Inv a x)
    (hs : step a x e = some y) : Announced a y := by
  cases e with
  | sender e =>
      cases e with
      | message => cases hs
      | keyDerived | metaEncrypted | sliceRead | chunkEncrypted | close | signalAbort =>
          exact h.sender hx hs
  | receiver e =>
      cases e with
      | message | detach => cases hs
      | start | resume | close | abortCurrent => exact h.own (by simp) hs
  | toSender =>
      rw [step] at hs
      split at hs
      next => exact h.sender hx hs
      next =>
        obtain rfl := Option.some.inj hs
        exact ⟨h.sndUp, h.rcvDown, h.receiver⟩
      next => cases hs
  | toReceiver =>
      have hdown := h.rcvDown
      rw [step] at hs
      split at hs
      next m rest heq =>
        rw [heq] at hdown
        obtain ⟨t, out, hst, rfl⟩ := stepReceiver_spec hs
        refine ⟨h.sndUp, fun m hm => hdown m (by simp [hm]), h.receiver.step hst fun m' hm' => ?_⟩
        obtain rfl := Receiver.Event.message.inj hm'
        exact hdown m (by simp)
      next => cases hs
  | relaySender =>
      have hup := h.sndUp
      rw [step] at hs
      split at hs
      next m rest heq =>
        rw [heq] at hup
        have hrest : ∀ m ∈ rest, SendFile.Emits a m := fun m hm => hup m (by simp [hm])
        split at hs
        all_goals obtain rfl := Option.some.inj hs
        next => exact ⟨hrest, h.rcvDown, h.receiver⟩
        next =>
          refine ⟨hrest, fun m' hm' => ?_, h.receiver⟩
          obtain hm' | hm' := List.mem_append.mp hm'
          · exact h.rcvDown m' hm'
          · rw [List.mem_singleton.mp hm']
            exact .inl (hup m (by simp))
      next => cases hs
  | relayReceiver =>
      rw [step] at hs
      split at hs
      next =>
        obtain rfl := Option.some.inj hs
        exact ⟨h.sndUp, h.rcvDown, h.receiver⟩
      next => cases hs
  | sizeAbort =>
      obtain rfl := Option.some.inj hs
      refine ⟨h.sndUp, fun m hm => ?_, h.receiver⟩
      obtain hm | hm := List.mem_append.mp hm
      · exact h.rcvDown m hm
      · exact .inr (List.mem_singleton.mp hm)

end Quicksend.Delivery
