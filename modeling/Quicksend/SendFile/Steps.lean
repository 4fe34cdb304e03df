import Quicksend.SendFile

/-!
# What one step of `sendFile` can do

The loop code between two suspension points is inverted once (`Lands`),
and so is a whole step (`Steps`); every result about `sendFile` is a case
analysis over the two.
-/

namespace Quicksend.SendFile

variable {a : SendArgs}

/-- Where the loop, entered in `s` at chunk `i`, can come to rest. -/
inductive Lands (a : SendArgs) (s : State) (i : Nat) : State → List Message → Prop where
  | window (hi : i < a.file.totalChunks) (hfull : (i : Int) - 1 - s.ackedUpTo ≥ WINDOW_SIZE) :
      Lands a s i { s with pc := .windowWait i } []
  | reading (hi : i < a.file.totalChunks) (hab : s.aborted = none)
      (hroom : (i : Int) - 1 - s.ackedUpTo < WINDOW_SIZE) :
      Lands a s i { s with pc := .readingSlice i } []
  | acks (hi : a.file.totalChunks ≤ i) (hab : s.aborted = none)
      (hacked : s.ackedUpTo < (a.file.totalChunks : Int) - 1) :
      Lands a s i { s with pc := .ackWait } []
  | resolved (hi : a.file.totalChunks ≤ i) (hab : s.aborted = none)
      (hacked : (a.file.totalChunks : Int) - 1 ≤ s.ackedUpTo) :
      Lands a s i { s with pc := .settled .resolved } []
  | aborted (ab : Aborted) (hab : s.aborted = some ab) :
      Lands a s i
        { s with pc := .settled (.rejected (.abortError (ab.reason.filter (· ≠ [])))) }
        (if ab.remote then [] else s.put (fileAbortMessage a.fileId.hex))

theorem afterLoop_aborted {s : State} {i : Nat} (hab : s.aborted.isSome) :
    Lands a s i (afterLoop a s).1 (afterLoop a s).2 := by
  obtain ⟨ab, hab⟩ := Option.isSome_iff_exists.mp hab
  have h := Lands.aborted (a := a) (i := i) ab hab
  simpa [afterLoop, hab, throwErr] using h

theorem afterLoop_lands {s : State} {i : Nat} (hi : a.file.totalChunks ≤ i) :
    Lands a s i (afterLoop a s).1 (afterLoop a s).2 := by
  cases hab : s.aborted with
  | some ab => exact afterLoop_aborted (by simp [hab])
  | none =>
      by_cases hacked : s.ackedUpTo < (a.file.totalChunks : Int) - 1
      · simpa [afterLoop, hab, hacked] using Lands.acks hi hab hacked
      · simpa [afterLoop, hab, hacked] using Lands.resolved hi hab (not_lt.mp hacked)

theorem afterWindow_lands {s : State} {i : Nat} (hi : i < a.file.totalChunks)
    (hroom : s.aborted = none → (i : Int) - 1 - s.ackedUpTo < WINDOW_SIZE) :
    Lands a s i (afterWindow a s i).1 (afterWindow a s i).2 := by
  rw [afterWindow]
  split
  next hab => exact afterLoop_aborted hab
  next hab =>
    have hab : s.aborted = none := by simpa using hab
    exact .reading hi hab (hroom hab)

theorem windowTest_lands {s : State} {i : Nat} (hi : i < a.file.totalChunks) :
    Lands a s i (windowTest a s i).1 (windowTest a s i).2 := by
  rw [windowTest]
  split
  next hfull => exact .window hi hfull
  next hroom => exact afterWindow_lands hi fun _ => not_le.mp hroom

theorem forTest_lands (a : SendArgs) (s : State) (i : Nat) :
    Lands a s i (forTest a s i).1 (forTest a s i).2 := by
  rw [forTest]
  split
  next hi => exact windowTest_lands hi
  next hi => exact afterLoop_lands (not_lt.mp hi)

/-! ## The invariant of the local variables -/

/-- The loop index is in range, and a plaintext in hand is the chunk's. -/
def IndexOk (a : SendArgs) : Pc → Prop
  | .windowWait i => i < a.file.totalChunks
  | .readingSlice i => i < a.file.totalChunks
  | .encryptingChunk i p => i < a.file.totalChunks ∧ p = a.file.chunk i
  | _ => True

/-- The invariant: `IndexOk`, and past the key derivation the key is the file's. -/
structure WellFormed (a : SendArgs) (s : State) : Prop where
  index : IndexOk a s.pc
  keyed : s.pc = .derivingKey ∨ s.isSettled ∨
    deriveFileKey a.w a.epochKey a.fileId.bytes = .ok s.fileKey

theorem WellFormed.init (a : SendArgs) : WellFormed a SendFile.init := ⟨trivial, .inl rfl⟩

theorem WellFormed.settled {s : State} {o : Outcome} : WellFormed a { s with pc := .settled o } :=
  ⟨trivial, .inr (.inl rfl)⟩

/-- Wherever the loop comes to rest, the invariant holds if the key is right. -/
theorem Lands.wellFormed {s t : State} {i : Nat} {out : List Message} (h : Lands a s i t out)
    (hk : deriveFileKey a.w a.epochKey a.fileId.bytes = .ok s.fileKey) : WellFormed a t := by
  cases h with
  | window hi => exact ⟨hi, .inr (.inr hk)⟩
  | reading hi => exact ⟨hi, .inr (.inr hk)⟩
  | acks => exact ⟨trivial, .inr (.inr hk)⟩
  | resolved | aborted => exact .settled

/-! ## A wake-up and a step -/

/-- `wakeWaiters`: nothing when the call is not waiting; a lost connection
ends the call; otherwise the loop goes on at the chunk it was waiting to send
(`totalChunks` when all are sent), and not into the window wait when it has
been cancelled. -/
inductive Woken (a : SendArgs) (s : State) : State → List Message → Prop where
  | asleep (hw : s.waiting = false) : Woken a s s []
  | lost (hw : s.waiting = true) (hlost : s.connectionLost = true) :
      Woken a s { s with pc := .settled (.rejected (.error "connection_lost")) } []
  | window (i : Nat) (hpc : s.pc = .windowWait i) (hlost : s.connectionLost = false)
      (t : State) (out : List Message) (h : Lands a s i t out)
      (hab : s.aborted.isSome → t.pc ≠ .windowWait i) : Woken a s t out
  | acks (hpc : s.pc = .ackWait) (hlost : s.connectionLost = false)
      (t : State) (out : List Message) (h : Lands a s a.file.totalChunks t out) : Woken a s t out

theorem Lands.aborted_eq {s t : State} {i : Nat} {out : List Message} (h : Lands a s i t out) :
    t.aborted = s.aborted ∧ t.signalFired = s.signalFired := by
  cases h <;> exact ⟨rfl, rfl⟩

theorem Woken.aborted_eq {s t : State} {out : List Message} (h : Woken a s t out) :
    t.aborted = s.aborted ∧ t.signalFired = s.signalFired := by
  cases h with
  | asleep | lost => exact ⟨rfl, rfl⟩
  | window _ _ _ _ _ h | acks _ _ _ _ h => exact h.aborted_eq

theorem resumeWindow_woken {s : State} {i : Nat} (hpc : s.pc = .windowWait i)
    (hi : i < a.file.totalChunks) : Woken a s (resumeWindow a s i).1 (resumeWindow a s i).2 := by
  rw [resumeWindow]
  split
  next hlost =>
    simpa [throwErr, hlost] using Woken.lost (a := a) (by simp [State.waiting, hpc]) hlost
  next hlost =>
    have hlost : s.connectionLost = false := by simpa using hlost
    split
    next hab =>
      obtain ⟨ab, hab⟩ := Option.isSome_iff_exists.mp hab
      refine .window i hpc hlost _ _ (afterWindow_lands hi fun h => by simp [hab] at h) fun _ => ?_
      simp [afterWindow, afterLoop, hab, throwErr]
    next hab => exact .window i hpc hlost _ _ (windowTest_lands hi) fun h => absurd h hab

theorem resumeAcks_woken {s : State} (hpc : s.pc = .ackWait) :
    Woken a s (resumeAcks a s).1 (resumeAcks a s).2 := by
  rw [resumeAcks]
  split
  next hlost =>
    simpa [throwErr, hlost] using Woken.lost (a := a) (by simp [State.waiting, hpc]) hlost
  next hlost => exact .acks hpc (by simpa using hlost) _ _ (afterLoop_lands (Nat.le_refl _))

theorem wakeWaiters_woken {s : State} (hs : WellFormed a s) :
    Woken a s (wakeWaiters a s).1 (wakeWaiters a s).2 := by
  cases hpc : s.pc with
  | windowWait i =>
      have hi := hs.index
      rw [hpc] at hi
      simpa [wakeWaiters, hpc] using resumeWindow_woken hpc hi
  | ackWait => simpa [wakeWaiters, hpc] using resumeAcks_woken hpc
  | derivingKey | encryptingMeta | readingSlice | encryptingChunk | settled =>
      simpa [wakeWaiters, hpc] using Woken.asleep (a := a) (s := s) (by simp [State.waiting, hpc])

/-- What a dispatched event sets before it wakes the waiter. -/
def noted (s : State) : Event → State
  | .message (.chunkAck (some p)) => { s with ackedUpTo := p.ackedUpTo }
  | .message (.fileAbort (some p)) => { s with aborted := some ⟨true, p.reason⟩ }
  | .close => { s with socketClosed := true, connectionLost := true }
  | .signalAbort => { s with signalFired := true, aborted := some ⟨false, none⟩ }
  | _ => s

/-- Events that set something when they are heard: a `chunk_ack` or a
`file_abort` of this file, the close event, the abort signal. -/
def concerns (a : SendArgs) : Event → Prop
  | .message (.chunkAck (some p)) => p.fileId = some a.fileId.hex
  | .message (.fileAbort (some p)) => p.fileId = some a.fileId.hex
  | .close | .signalAbort => True
  | _ => False

/-- What one step can do, guards included: one constructor for each outcome of
each await, with the messages it sends. -/
inductive Steps (a : SendArgs) (s : State) : Event → State → List Message → Prop where
  | keyDerived (hpc : s.pc = .derivingKey) (key : Bytes)
      (hk : deriveFileKey a.w a.epochKey a.fileId.bytes = .ok key) :
      Steps a s (.keyDerived none) { s with fileKey := key, pc := .encryptingMeta } []
  | keyFailed (hpc : s.pc = .derivingKey) (err : Option String) (e : String) :
      Steps a s (.keyDerived err) { s with pc := .settled (.rejected (.error e)) } []
  | metaSent (hpc : s.pc = .encryptingMeta) (ciphertext : Bytes)
      (hc : encryptChunk a.w s.fileKey a.fileId.bytes METADATA_CHUNK_INDEX true
        (a.codec.encode a.file.toMeta) = .ok ciphertext)
      (t : State) (out : List Message) (h : Lands a s 0 t out) :
      Steps a s (.metaEncrypted none) t
        (s.put (fileMetaMessage a.fileId.hex (toHex ciphertext)) ++ out)
  | metaFailed (hpc : s.pc = .encryptingMeta) (err : Option String) (e : String) :
      Steps a s (.metaEncrypted err) { s with pc := .settled (.rejected (.error e)) } []
  | sliceRead (i : Nat) (hpc : s.pc = .readingSlice i) :
      Steps a s (.sliceRead none) { s with pc := .encryptingChunk i (a.file.chunk i) } []
  | chunkSent (i : Nat) (p : Bytes) (hpc : s.pc = .encryptingChunk i p) (ciphertext : Bytes)
      (hc : encryptChunk a.w s.fileKey a.fileId.bytes i (i = a.file.totalChunks - 1) p
        = .ok ciphertext)
      (t : State) (out : List Message) (h : Lands a s (i + 1) t out) :
      Steps a s (.chunkEncrypted none) t
        (s.put (.binary (buildChunkFrame a.fileId i (i = a.file.totalChunks - 1) ciphertext)) ++ out)
  | failed (e : Event) (msg : String) (hpc : s.listening = true ∧ s.waiting = false)
      (he : ∀ env, e ≠ .message env) (he' : e ≠ .close ∧ e ≠ .signalAbort) :
      Steps a s e (throwErr a s (.error msg)).1 (throwErr a s (.error msg)).2
  | heard (e : Event) (hl : s.listening = true) (hc : concerns a e)
      (hclosed : e ≠ .signalAbort → s.socketClosed = false)
      (hfired : e = .signalAbort → s.signalFired = false)
      (t : State) (out : List Message) (h : Woken a (noted s e) t out) : Steps a s e t out
  | ignored (env : Envelope) (hclosed : s.socketClosed = false)
      (h : s.listening = false ∨ ¬ concerns a (.message env)) :
      Steps a s (.message env) s []
  | closedUnheard (hl : s.listening = false) (hclosed : s.socketClosed = false) :
      Steps a s .close { s with socketClosed := true } []
  | abortUnheard (hl : s.listening = false) (hfired : s.signalFired = false) :
      Steps a s .signalAbort { s with signalFired := true } []

theorem noted_wellFormed {s : State} (hs : WellFormed a s) (e : Event) :
    WellFormed a (noted s e) := by
  unfold noted
  split <;> exact ⟨hs.index, hs.keyed⟩

theorem onMessage_steps {s : State} (hs : WellFormed a s) (hl : s.listening = true)
    (hclosed : s.socketClosed = false) (env : Envelope) :
    Steps a s (.message env) (onMessage a s env).1 (onMessage a s env).2 := by
  have heard (hc : concerns a (.message env)) :
      Steps a s (.message env) (wakeWaiters a (noted s (.message env))).1
        (wakeWaiters a (noted s (.message env))).2 :=
    .heard _ hl hc (fun _ => hclosed) (fun h => by cases h) _ _
      (wakeWaiters_woken (noted_wellFormed hs _))
  unfold onMessage
  split
  next p =>
    split
    next hid => exact heard hid
    next hid => exact .ignored _ hclosed (.inr hid)
  next p =>
    split
    next hid => exact heard hid
    next hid => exact .ignored _ hclosed (.inr hid)
  next hack habort =>
    refine .ignored _ hclosed (.inr fun hc => ?_)
    unfold concerns at hc
    split at hc
    next p hp => exact hack p (Event.message.inj hp)
    next p hp => exact habort p (Event.message.inj hp)
    next hp => cases hp
    next hp => cases hp
    next => exact hc

theorem onKeyDerived_steps {s t : State} {err : Option String} {out : List Message}
    (hpc : s.pc = .derivingKey) (h : onKeyDerived a s err = (t, out)) :
    Steps a s (.keyDerived err) t out := by
  cases err with
  | some e =>
      rw [onKeyDerived, settle] at h
      obtain ⟨rfl, rfl⟩ := Prod.mk.inj h
      exact .keyFailed hpc _ e
  | none =>
      cases hk : deriveFileKey a.w a.epochKey a.fileId.bytes with
      | ok key =>
          rw [onKeyDerived, settle, hk] at h
          obtain ⟨rfl, rfl⟩ := Prod.mk.inj h
          exact .keyDerived hpc key hk
      | error e =>
          rw [onKeyDerived, settle, hk] at h
          obtain ⟨rfl, rfl⟩ := Prod.mk.inj h
          exact .keyFailed hpc none e

theorem onMetaEncrypted_steps {s t : State} {err : Option String} {out : List Message}
    (hpc : s.pc = .encryptingMeta) (h : onMetaEncrypted a s err = (t, out)) :
    Steps a s (.metaEncrypted err) t out := by
  cases err with
  | some e =>
      rw [onMetaEncrypted, settle] at h
      obtain ⟨rfl, rfl⟩ := Prod.mk.inj h
      exact .metaFailed hpc _ e
  | none =>
      cases hc : encryptChunk a.w s.fileKey a.fileId.bytes METADATA_CHUNK_INDEX true
          (a.codec.encode a.file.toMeta) with
      | ok c =>
          rw [onMetaEncrypted, settle, hc] at h
          obtain ⟨rfl, rfl⟩ := Prod.mk.inj h
          exact .metaSent hpc c hc _ _ (forTest_lands a s 0)
      | error e =>
          rw [onMetaEncrypted, settle, hc] at h
          obtain ⟨rfl, rfl⟩ := Prod.mk.inj h
          exact .metaFailed hpc none e

theorem onSliceRead_steps {s t : State} {i : Nat} {err : Option String} {out : List Message}
    (hpc : s.pc = .readingSlice i) (h : onSliceRead a s i err = (t, out)) :
    Steps a s (.sliceRead err) t out := by
  cases err with
  | none =>
      obtain ⟨rfl, rfl⟩ := Prod.mk.inj h
      exact .sliceRead i hpc
  | some e =>
      obtain ⟨rfl, rfl⟩ := Prod.mk.inj h
      exact .failed _ e (by simp [State.listening, State.waiting, hpc]) (by simp) (by simp)

theorem onChunkEncrypted_steps {s t : State} {i : Nat} {p : Bytes} {err : Option String}
    {out : List Message} (hpc : s.pc = .encryptingChunk i p)
    (h : onChunkEncrypted a s i p err = (t, out)) : Steps a s (.chunkEncrypted err) t out := by
  have hlw : s.listening = true ∧ s.waiting = false := by
    simp [State.listening, State.waiting, hpc]
  cases err with
  | some e =>
      rw [onChunkEncrypted, settle] at h
      obtain ⟨rfl, rfl⟩ := Prod.mk.inj h
      exact .failed _ e hlw (by simp) (by simp)
  | none =>
      cases hc : encryptChunk a.w s.fileKey a.fileId.bytes i (i = a.file.totalChunks - 1) p with
      | ok c =>
          rw [onChunkEncrypted, settle, hc] at h
          obtain ⟨rfl, rfl⟩ := Prod.mk.inj h
          exact .chunkSent i p hpc c hc _ _ (forTest_lands a s (i + 1))
      | error e =>
          rw [onChunkEncrypted, settle, hc] at h
          obtain ⟨rfl, rfl⟩ := Prod.mk.inj h
          exact .failed _ e hlw (by simp) (by simp)

/-- **The step inversion.** -/
theorem step_spec {s t : State} {e : Event} {out : List Message} (hs : WellFormed a s)
    (h : step a s e = some (t, out)) : Steps a s e t out := by
  unfold step at h
  split at h
  next hpc => exact onKeyDerived_steps hpc (Option.some.inj h)
  next hpc => exact onMetaEncrypted_steps hpc (Option.some.inj h)
  next hpc => exact onSliceRead_steps hpc (Option.some.inj h)
  next hpc => exact onChunkEncrypted_steps hpc (Option.some.inj h)
  next env =>
    split at h
    next => cases h
    next hclosed =>
      have hclosed : s.socketClosed = false := by simpa using hclosed
      split at h
      next hl =>
        have hm := onMessage_steps hs hl hclosed env
        rwa [Option.some.inj h] at hm
      next hl =>
        obtain ⟨rfl, rfl⟩ := Prod.mk.inj (Option.some.inj h)
        exact .ignored env hclosed (.inl (Bool.eq_false_iff.mpr hl))
  next =>
    split at h
    next => cases h
    next hclosed =>
      have hclosed : s.socketClosed = false := by simpa using hclosed
      dsimp only at h
      split at h
      next hl =>
        have hw := wakeWaiters_woken (noted_wellFormed hs .close)
        change some (wakeWaiters a (noted s .close)) = _ at h
        rw [Option.some.inj h] at hw
        -- the close is noted first, then the waiters are woken with it noted
        exact Steps.heard (s := s) .close hl trivial (fun _ => hclosed) (fun h => by cases h) t out hw
      next hl =>
        obtain ⟨rfl, rfl⟩ := Prod.mk.inj (Option.some.inj h)
        exact Steps.closedUnheard (s := s) (Bool.eq_false_iff.mpr hl) hclosed
  next =>
    split at h
    next => cases h
    next hfired =>
      have hfired : s.signalFired = false := by simpa using hfired
      dsimp only at h
      split at h
      next hl =>
        have hw := wakeWaiters_woken (noted_wellFormed hs .signalAbort)
        change some (wakeWaiters a (noted s .signalAbort)) = _ at h
        rw [Option.some.inj h] at hw
        exact Steps.heard (s := s) .signalAbort hl trivial (fun h => absurd rfl h) (fun _ => hfired)
          t out hw
      next hl =>
        obtain ⟨rfl, rfl⟩ := Prod.mk.inj (Option.some.inj h)
        exact Steps.abortUnheard (s := s) (Bool.eq_false_iff.mpr hl) hfired
  next => cases h

/-- A call that hears events has its key. -/
theorem WellFormed.keyed_of_listening {s : State} (hs : WellFormed a s) (hl : s.listening = true) :
    deriveFileKey a.w a.epochKey a.fileId.bytes = .ok s.fileKey := by
  rcases hs.keyed with h | h | h
  · simp [State.listening, h] at hl
  · cases hpc : s.pc <;> simp [State.listening, State.isSettled, hpc] at h hl
  · exact h

/-- A wake-up keeps the invariant. -/
theorem Woken.wellFormed {s t : State} {out : List Message} (h : Woken a s t out)
    (hs : WellFormed a s) (hl : s.listening = true) : WellFormed a t := by
  cases h with
  | asleep => exact hs
  | lost => exact .settled
  | window i _ _ _ _ h => exact h.wellFormed (hs.keyed_of_listening hl)
  | acks _ _ _ _ h => exact h.wellFormed (hs.keyed_of_listening hl)

@[simp] theorem noted_pc (s : State) (e : Event) : (noted s e).pc = s.pc := by
  unfold noted
  split <;> rfl

theorem noted_listening (s : State) (e : Event) : (noted s e).listening = s.listening := by
  simp [State.listening]

theorem Steps.wellFormed {s t : State} {e : Event} {out : List Message}
    (h : Steps a s e t out) (hs : WellFormed a s) : WellFormed a t := by
  cases h with
  | keyDerived hpc key hk =>
      exact ⟨trivial, .inr (.inr hk)⟩
  | keyFailed | metaFailed | failed => exact .settled
  | metaSent hpc c hc _ _ h =>
      refine h.wellFormed ?_
      rcases hs.keyed with hk | hk | hk
      · rw [hpc] at hk
        cases hk
      · simp [State.isSettled, hpc] at hk
      · exact hk
  | sliceRead i hpc =>
      have hi := hs.index
      rw [hpc] at hi
      exact ⟨⟨hi, rfl⟩, .inr (.inr (hs.keyed_of_listening (by simp [State.listening, hpc])))⟩
  | chunkSent i p hpc c hc _ _ h =>
      exact h.wellFormed (hs.keyed_of_listening (by simp [State.listening, hpc]))
  | heard e hl _ _ _ _ _ h =>
      exact h.wellFormed (noted_wellFormed hs e) (by rw [noted_listening, hl])
  | ignored => exact hs
  | closedUnheard | abortUnheard => exact ⟨hs.index, hs.keyed⟩

theorem next_spec {s t : State} {e : Event} (hs : WellFormed a s) (h : next a s e = some t) :
    ∃ out, Steps a s e t out := by
  obtain ⟨⟨t', out⟩, hstep, rfl⟩ := Option.map_eq_some_iff.mp h
  exact ⟨out, step_spec hs hstep⟩

theorem run_wellFormed {s : State} {es : List Event}
    (hrun : Transition.run (next a) SendFile.init es = some s) : WellFormed a s := by
  refine Transition.invariant (fun s e t hs hstep => ?_) (WellFormed.init a) hrun
  obtain ⟨out, hst⟩ := next_spec hs hstep
  exact hst.wellFormed hs

end Quicksend.SendFile
