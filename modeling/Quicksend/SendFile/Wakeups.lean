import Quicksend.SendFile.Steps

/-!
# When `sendFile` waits for an event that has already happened

The close event and the abort signal fire once, so a call that suspends on
`ackWaiters` after one of them has nothing left to wake it. `sendFile`
does that: the listeners are installed only behind two awaits, and the two
wait loops test the flags after their `await`, not before it. A run is
`Timely` when no event falls where the code misses it; in timely runs the
call never waits for something past, and settles once it is stopped.
-/

namespace Quicksend.SendFile

variable {a : SendArgs}

/-- Suspended on `ackWaiters`, with every event that could still wake the
call ahead of it. -/
def WaitsAhead (s : State) : Prop :=
  s.waiting = true →
    s.socketClosed = false ∧ s.connectionLost = false ∧ s.aborted = none ∧ s.signalFired = false

instance : DecidablePred WaitsAhead := fun _ => inferInstanceAs (Decidable (_ → _))

/-- The close event has been dispatched or the transfer has been cancelled. -/
def Stopped (s : State) : Prop :=
  s.socketClosed = true ∨ s.aborted.isSome ∨ s.signalFired = true

/-- The read and the encryption that can be pending. -/
def isPendingWork : Event → Bool
  | .sliceRead _ | .chunkEncrypted _ => true
  | _ => false

/-- `step` takes an event where the code does not miss it:

* the close event while the call waits for acks, or once it is cancelled or
  has settled;
* the abort signal, and a `file_abort` of this file, once the listeners are
  installed;
* the end of a chunk's encryption, when the transfer was cancelled meanwhile,
  with room in the window for the next chunk, so that the loop reaches its
  test of `aborted` before it would wait. -/
def Timely (a : SendArgs) (s : State) : Event → Prop
  | .close => s.waiting = true ∨ s.isSettled = true ∨ s.aborted.isSome = true
  | .signalAbort => s.pc ≠ .derivingKey ∧ s.pc ≠ .encryptingMeta
  | .message (.fileAbort (some p)) =>
      p.fileId = some a.fileId.hex → s.pc ≠ .derivingKey ∧ s.pc ≠ .encryptingMeta
  | .chunkEncrypted none =>
      match s.pc with
      | .encryptingChunk i _ => s.aborted.isSome = true → i + 1 < a.file.totalChunks →
          (i : Int) - s.ackedUpTo < WINDOW_SIZE
      | _ => True
  | _ => True

instance (a : SendArgs) (s : State) (e : Event) : Decidable (Timely a s e) := by
  unfold Timely
  split
  all_goals try infer_instance
  split <;> infer_instance

/-! ## The invariant of timely runs -/

/-- Some event that fires only once has fired already: the close of the socket, or
the abort signal. -/
def State.past (s : State) : Prop :=
  s.socketClosed = true ∨ s.connectionLost = true ∨ s.signalFired = true

/-- A waiting call is not cancelled; a call that has an event behind it and is
still going is; and none is before the listeners are installed. -/
structure Alert (s : State) : Prop where
  ahead : s.waiting = true → s.aborted = none
  marked : s.past → s.isSettled = true ∨ s.aborted.isSome = true
  unheard : s.pc = .derivingKey ∨ s.pc = .encryptingMeta → s.aborted = none

theorem Alert.init : Alert SendFile.init where
  ahead _ := rfl
  marked h := by rcases h with h | h | h <;> cases h
  unheard _ := rfl

theorem not_settled_of_listening {s : State} (h : s.listening = true) : s.isSettled = false := by
  cases hpc : s.pc <;> simp [State.listening, State.isSettled, hpc] at h ⊢

theorem listening_of_waiting {s : State} (h : s.waiting = true) : s.listening = true := by
  cases hpc : s.pc <;> simp [State.listening, State.waiting, hpc] at h ⊢

theorem Alert.cancelled {s : State} (h : Alert s) (hl : s.listening = true) (hp : s.past) :
    s.aborted.isSome = true :=
  (h.marked hp).resolve_left (by simp [not_settled_of_listening hl])

/-- A waiting call has every event that fires once ahead of it. -/
theorem Alert.not_past {s : State} (h : Alert s) (hw : s.waiting = true) : ¬ s.past := by
  intro hp
  have hab := h.cancelled (listening_of_waiting hw) hp
  simp [h.ahead hw] at hab

theorem Alert.waitsAhead {s : State} (h : Alert s) : WaitsAhead s := by
  intro hw
  have hp := h.not_past hw
  simp only [State.past, not_or, Bool.not_eq_true] at hp
  exact ⟨hp.1, hp.2.1, h.ahead hw, hp.2.2⟩

/-! ### The part that the signal has no part in -/

/-- The next chunk fits into the window, so that the call does not wait after this
one. -/
def HasRoom (a : SendArgs) (s : State) : Pc → Prop
  | .encryptingChunk i _ => i + 1 < a.file.totalChunks → (i : Int) - s.ackedUpTo < WINDOW_SIZE
  | _ => True

/-- `Timely`, of the close event and the end of an encryption alone. -/
def InTime (a : SendArgs) (s : State) : Event → Prop
  | .close => s.waiting = true ∨ s.isSettled = true ∨ s.aborted.isSome = true
  | .chunkEncrypted none => s.aborted.isSome = true → HasRoom a s s.pc
  | _ => True

instance (a : SendArgs) (s : State) (pc : Pc) : Decidable (HasRoom a s pc) :=
  match pc with
  | .encryptingChunk _ _ => inferInstanceAs (Decidable (_ → _))
  | .derivingKey | .encryptingMeta | .windowWait _ | .readingSlice _ | .ackWait | .settled _ =>
      isTrue trivial

instance (a : SendArgs) (s : State) (e : Event) : Decidable (InTime a s e) :=
  match e with
  | .close => inferInstanceAs (Decidable (_ ∨ _))
  | .chunkEncrypted none => inferInstanceAs (Decidable (_ → _))
  | .chunkEncrypted (some _) | .message _ | .signalAbort | .keyDerived _ | .metaEncrypted _
    | .sliceRead _ => isTrue trivial

theorem Timely.inTime {s : State} {e : Event} (h : Timely a s e) : InTime a s e := by
  cases e with
  | close => exact h
  | chunkEncrypted err =>
      cases err with
      | none =>
          intro hab
          cases hpc : s.pc with
          | encryptingChunk i p =>
              simp only [Timely, hpc] at h
              exact h hab
          | _ => trivial
      | some => trivial
  | _ => trivial

/-- The socket of the call has closed, or the call has already noted that it has. -/
def State.cut (s : State) : Prop := s.socketClosed = true ∨ s.connectionLost = true

/-- `Alert`, of the close event alone: a call that waits has not been aborted, and
a close has been acted on. -/
structure Awake (s : State) : Prop where
  ahead : s.waiting = true → s.aborted = none
  marked : s.cut → s.isSettled = true ∨ s.aborted.isSome = true
  unheard : s.pc = .derivingKey ∨ s.pc = .encryptingMeta → s.aborted = none

theorem Awake.init : Awake SendFile.init where
  ahead _ := rfl
  marked h := by rcases h with h | h <;> cases h
  unheard _ := rfl

theorem Awake.settled {s : State} (h : s.isSettled = true) : Awake s where
  ahead hw := by cases hpc : s.pc <;> simp [State.isSettled, State.waiting, hpc] at h hw
  marked _ := .inl h
  unheard hp := by rcases hp with hp | hp <;> simp [State.isSettled, hp] at h

theorem Alert.awake {s : State} (h : Alert s) : Awake s where
  ahead := h.ahead
  marked hc := h.marked (hc.imp_right .inl)
  unheard := h.unheard

theorem Awake.cancelled {s : State} (h : Awake s) (hl : s.listening = true) (hc : s.cut) :
    s.aborted.isSome = true :=
  (h.marked hc).resolve_left (by simp [not_settled_of_listening hl])

/-- Landing keeps the invariant, unless a cancelled call lands in the window wait. -/
theorem Lands.awake {s t : State} {i : Nat} {out : List Message} (h : Lands a s i t out)
    (hmarked : s.cut → s.aborted.isSome = true)
    (hroom : s.aborted.isSome = true → t.pc ≠ .windowWait i) : Awake t := by
  cases h with
  | window hi hfull =>
      have hab : s.aborted = none := by
        by_contra hne
        exact hroom (Option.isSome_iff_ne_none.mpr hne) rfl
      exact ⟨fun _ => hab, fun hp => .inr (hmarked hp), fun _ => hab⟩
  | reading hi hab => exact ⟨fun _ => hab, fun hp => .inr (hmarked hp), fun _ => hab⟩
  | acks hi hab _ => exact ⟨fun _ => hab, fun hp => .inr (hmarked hp), fun _ => hab⟩
  | resolved | aborted => exact .settled rfl

/-- A call that hears an event in time stays awake. -/
theorem Woken.awake {s t : State} {e : Event} {out : List Message} (hs : Awake s)
    (hl : s.listening = true) (hc : concerns a e) (ht : InTime a s e)
    (h : Woken a (noted s e) t out) : Awake t := by
  -- a cancel is marked at once; a close that wakes nobody found the call cancelled
  have hmarked (hlost : s.waiting = true → (noted s e).connectionLost = false)
      (hp : (noted s e).cut) : (noted s e).aborted.isSome = true := by
    unfold concerns at hc
    split at hc
    · exact hs.cancelled hl hp
    · rfl
    · rcases ht with ht | ht | ht
      · exact absurd (hlost ht) (by simp [noted])
      · simp [not_settled_of_listening hl] at ht
      · exact ht
    · rfl
    · exact hc.elim
  have hroused : (noted s e).waiting = s.waiting := by simp [State.waiting]
  cases h with
  | asleep hw =>
      refine ⟨fun h => by simp [hw] at h, fun hp => .inr (hmarked (fun h => ?_) hp), fun hp => ?_⟩
      · simp [← hroused, hw] at h
      · rw [noted_pc] at hp
        rcases hp with hp | hp <;> simp [State.listening, hp] at hl
  | lost => exact .settled rfl
  | window i hpc hlost _ _ h hab => exact h.awake (hmarked fun _ => hlost) hab
  | acks hpc hlost _ _ h =>
      refine h.awake (hmarked fun _ => hlost) fun hab hpc => ?_
      cases h with
      | window hi => exact absurd hi (lt_irrefl _)
      | _ => cases hpc

theorem Steps.awake {s t : State} {e : Event} {out : List Message} (h : Steps a s e t out)
    (hs : Awake s) (ht : InTime a s e) : Awake t := by
  cases h with
  | keyDerived hpc key hk =>
      have hab := hs.unheard (.inl hpc)
      have hmarked := hs.marked
      simp only [State.isSettled, hpc, hab, Option.isSome_none, Bool.false_eq_true, or_self]
        at hmarked
      exact ⟨(by cases ·), fun hp => (hmarked hp).elim, fun _ => hab⟩
  | keyFailed | metaFailed | failed => exact .settled rfl
  | metaSent hpc c hc _ _ h =>
      have hab := hs.unheard (.inr hpc)
      have hmarked := hs.marked
      simp only [State.isSettled, hpc, Bool.false_eq_true, false_or] at hmarked
      exact h.awake hmarked (by simp [hab])
  | sliceRead i hpc =>
      have hl : s.listening = true := by simp [State.listening, hpc]
      exact ⟨(by cases ·), fun hp => .inr (hs.cancelled hl hp),
        (by rcases · with h | h <;> cases h)⟩
  | chunkSent i p hpc c hc _ _ h =>
      have hl : s.listening = true := by simp [State.listening, hpc]
      refine h.awake (hs.cancelled hl) fun hab hw => ?_
      have hroom := ht hab
      rw [hpc] at hroom
      cases h with
      | window hi hfull =>
          have hlt : (i : Int) - s.ackedUpTo < WINDOW_SIZE := hroom hi
          push_cast at hfull
          omega
      | _ => cases hw
  | heard e hl hc _ _ _ _ h => exact h.awake hs hl hc ht
  | ignored => exact hs
  | closedUnheard hl _ =>
      refine ⟨fun hw => hs.ahead hw, fun _ => ?_, hs.unheard⟩
      rcases ht with ht | ht
      · simp [listening_of_waiting ht] at hl
      · exact ht
  | abortUnheard hl _ => exact ⟨fun hw => hs.ahead hw, fun hc => hs.marked hc, hs.unheard⟩

/-! ### The signal -/

/-- A signal that fired in time has cancelled the call, or found it over. -/
theorem Steps.signalled {s t : State} {e : Event} {out : List Message} (h : Steps a s e t out)
    (hs : s.signalFired = true → s.isSettled = true ∨ s.aborted.isSome = true)
    (ht : Timely a s e) (hfired : t.signalFired = true) :
    t.isSettled = true ∨ t.aborted.isSome = true := by
  cases h with
  | keyFailed | metaFailed | failed => exact .inl rfl
  | keyDerived hpc | sliceRead _ hpc =>
      refine .inr ((hs hfired).resolve_left ?_)
      simp [State.isSettled, hpc]
  | metaSent hpc _ _ _ _ h | chunkSent _ _ hpc _ _ _ _ h =>
      rw [h.aborted_eq.2] at hfired
      rw [h.aborted_eq.1]
      refine .inr ((hs hfired).resolve_left ?_)
      simp [State.isSettled, hpc]
  | heard e hl hc _ _ _ _ h =>
      rw [h.aborted_eq.2] at hfired
      rw [h.aborted_eq.1]
      have hold := (hs · |>.resolve_left (by simp [not_settled_of_listening hl]))
      right
      unfold noted at hfired ⊢
      split at hfired <;> first | rfl | exact hold hfired
  | ignored | closedUnheard => exact hs hfired
  | abortUnheard hl _ =>
      obtain ⟨h1, h2⟩ := ht
      refine .inl ?_
      cases hpc : s.pc <;> simp [State.listening, State.isSettled, hpc] at hl h1 h2 ⊢

theorem Steps.alert {s t : State} {e : Event} {out : List Message} (h : Steps a s e t out)
    (hs : Alert s) (ht : Timely a s e) : Alert t := by
  have hawake := h.awake hs.awake ht.inTime
  refine ⟨hawake.ahead, fun hp => ?_, hawake.unheard⟩
  rcases hp with hp | hp | hp
  · exact hawake.marked (.inl hp)
  · exact hawake.marked (.inr hp)
  · exact h.signalled (fun hf => hs.marked (.inr (.inr hf))) ht hp

theorem alert_step (s : State) (e : Event) (t : State) (h : WellFormed a s ∧ Alert s)
    (ht : Timely a s e) (hstep : next a s e = some t) : WellFormed a t ∧ Alert t := by
  obtain ⟨out, hst⟩ := next_spec h.1 hstep
  exact ⟨hst.wellFormed h.1, hst.alert h.2 ht⟩

theorem alert_of_timely {s : State} {es : List Event}
    (hg : Transition.Guarded (next a) (Timely a) SendFile.init es)
    (hr : Transition.run (next a) SendFile.init es = some s) : WellFormed a s ∧ Alert s :=
  hg.invariant alert_step ⟨.init a, .init⟩ hr

/-! ## A stopped call settles after its pending work -/

/-- The reads and encryptions a cancelled call still goes through. -/
def State.workLeft (s : State) : Nat :=
  match s.pc with
  | .readingSlice _ => 2
  | .encryptingChunk _ _ => 1
  | _ => 0

/-- Settled, or cancelled with a read or an encryption to finish. -/
def Ending (s : State) : Prop :=
  s.isSettled = true ∨ s.aborted.isSome = true ∧ 0 < s.workLeft

theorem Alert.ending {s : State} (hs : Alert s) (h : Stopped s) : Ending s := by
  have hst : s.isSettled = true ∨ s.aborted.isSome = true := by
    rcases h with h | h | h
    · exact hs.marked (.inl h)
    · exact .inr h
    · exact hs.marked (.inr (.inr h))
  by_cases hset : s.isSettled = true
  · exact .inl hset
  · have hab := hst.resolve_left hset
    refine .inr ⟨hab, ?_⟩
    cases hpc : s.pc with
    | readingSlice | encryptingChunk => simp [State.workLeft, hpc]
    | derivingKey => simp [hs.unheard (.inl hpc)] at hab
    | encryptingMeta => simp [hs.unheard (.inr hpc)] at hab
    | windowWait | ackWait => simp [hs.ahead (by simp [State.waiting, hpc])] at hab
    | settled => simp [State.isSettled, hpc] at hset

theorem Ending.waiting {s : State} (h : Ending s) : s.waiting = false := by
  rcases h with h | ⟨-, h⟩ <;>
    cases hpc : s.pc <;> simp [State.isSettled, State.workLeft, State.waiting, hpc] at h ⊢

/-- A cancelled call lands settled if it does not land in the window wait. -/
theorem Lands.settled_of_aborted {s t : State} {i : Nat} {out : List Message}
    (h : Lands a s i t out) (hab : s.aborted.isSome = true)
    (hroom : i < a.file.totalChunks → (i : Int) - 1 - s.ackedUpTo < WINDOW_SIZE) :
    t.isSettled = true := by
  cases h with
  | window hi hfull => exact absurd (hroom hi) (not_lt.mpr hfull)
  | reading _ h | acks _ h | resolved _ h => simp [h] at hab
  | aborted => rfl

theorem noted_aborted {s : State} (e : Event) (h : s.aborted.isSome = true) :
    (noted s e).aborted.isSome = true := by
  unfold noted
  split <;> first | rfl | exact h

theorem Woken.of_not_waiting {s t : State} {out : List Message} (h : Woken a s t out)
    (hw : s.waiting = false) : t = s := by
  cases h with
  | asleep => rfl
  | lost hw' => simp [hw] at hw'
  | window i hpc | acks hpc => simp [State.waiting, hpc] at hw

/-- A timely step of an ending call leaves it ending, and uses up its work
when it is work. -/
theorem Steps.ending {s t : State} {e : Event} {out : List Message} (h : Steps a s e t out)
    (hs : Ending s) (ht : Timely a s e) :
    Ending t ∧ t.workLeft + (if isPendingWork e then 1 else 0) ≤ s.workLeft := by
  have cancelled (hns : s.isSettled = false) : s.aborted.isSome = true ∧ 0 < s.workLeft :=
    hs.resolve_left (by simp [hns])
  cases h with
  | keyDerived hpc | keyFailed hpc | metaSent hpc | metaFailed hpc =>
      rcases hs with h | ⟨-, h⟩ <;> simp [State.isSettled, State.workLeft, hpc] at h
  | failed e msg hpc _ _ =>
      have := (cancelled (not_settled_of_listening hpc.1)).2
      refine ⟨.inl rfl, ?_⟩
      change 0 + _ ≤ _
      split <;> omega
  | sliceRead i hpc =>
      have hab := (cancelled (by simp [State.isSettled, hpc])).1
      exact ⟨.inr ⟨hab, Nat.one_pos⟩, by simp [State.workLeft, isPendingWork, hpc]⟩
  | chunkSent i p hpc c hc _ _ h =>
      have hab := (cancelled (by simp [State.isSettled, hpc])).1
      simp only [Timely, hpc] at ht
      have hset := h.settled_of_aborted hab fun hi => by
        have := ht hab hi
        push_cast
        omega
      refine ⟨.inl hset, ?_⟩
      cases htp : t.pc <;> simp [State.isSettled, htp] at hset
      simp [State.workLeft, isPendingWork, hpc, htp]
  | heard e hl hc _ _ _ _ h =>
      obtain ⟨hab, hwork⟩ := cancelled (not_settled_of_listening hl)
      have hpend : isPendingWork e = false := by
        unfold concerns at hc
        split at hc <;> first | rfl | exact hc.elim
      have hw : (noted s e).waiting = false := by simpa [State.waiting] using hs.waiting
      obtain rfl := h.of_not_waiting hw
      exact ⟨.inr ⟨noted_aborted e hab, by simpa [State.workLeft] using hwork⟩,
        by simp [State.workLeft, hpend]⟩
  | ignored => exact ⟨hs, by simp [isPendingWork]⟩
  | closedUnheard | abortUnheard => exact ⟨hs, by simp [isPendingWork, State.workLeft]⟩

theorem ending_step (s : State) (e : Event) (t : State) (h : WellFormed a s ∧ Ending s)
    (ht : Timely a s e) (hstep : next a s e = some t) :
    (WellFormed a t ∧ Ending t) ∧ t.workLeft + (if isPendingWork e then 1 else 0) ≤ s.workLeft := by
  obtain ⟨out, hst⟩ := next_spec h.1 hstep
  obtain ⟨hend, hwork⟩ := hst.ending h.2 ht
  exact ⟨⟨hst.wellFormed h.1, hend⟩, hwork⟩

/-- Each read or encryption that ends takes an ending call closer to its settlement. -/
theorem ending_run {s t : State} {es : List Event} (hs : WellFormed a s) (h : Ending s)
    (hg : Transition.Guarded (next a) (Timely a) s es)
    (hr : Transition.run (next a) s es = some t) :
    Ending t ∧ t.workLeft + es.countP isPendingWork ≤ s.workLeft := by
  obtain ⟨⟨-, hend⟩, hwork⟩ := hg.measure ending_step ⟨hs, h⟩ hr
  exact ⟨hend, hwork⟩

theorem workLeft_le_two (s : State) : s.workLeft ≤ 2 := by
  unfold State.workLeft
  split <;> omega

/-- An ending call is settled, or suspended on a promise of its own. -/
theorem Ending.enabled {s : State} (h : Ending s) :
    s.isSettled = true ∨ ∃ e, isPendingWork e = true ∧ (next a s e).isSome = true := by
  refine h.imp_right fun ⟨_, hwork⟩ => ?_
  cases hpc : s.pc with
  | readingSlice i => exact ⟨.sliceRead none, rfl, by simp [next, step, hpc]⟩
  | encryptingChunk i p => exact ⟨.chunkEncrypted none, rfl, by simp [next, step, hpc]⟩
  | _ => simp [State.workLeft, hpc] at hwork

/-- In a timely run `sendFile` never waits for an event that has already
happened. Once the socket closes or the transfer is cancelled it is settled,
or has a read or an encryption of its own pending, and after two of those at
most it has settled, whatever else happens meanwhile. -/
theorem waitsAhead_of_timely (a : SendArgs) (es : List Event) (s : State)
    (hg : Transition.Guarded (next a) (Timely a) init es)
    (hr : Transition.run (next a) init es = some s) :
    WaitsAhead s ∧
      (Stopped s →
        (s.isSettled = true ∨ ∃ e, isPendingWork e = true ∧ (next a s e).isSome = true) ∧
        ∀ es' t, Transition.Guarded (next a) (Timely a) s es' →
          Transition.run (next a) s es' = some t →
          2 ≤ es'.countP isPendingWork → t.isSettled = true) := by
  obtain ⟨hwf, hal⟩ := alert_of_timely hg hr
  refine ⟨hal.waitsAhead, fun hst => ⟨(hal.ending hst).enabled, fun es' t hg' hr' hcount => ?_⟩⟩
  obtain ⟨hend, hwork⟩ := ending_run hwf (hal.ending hst) hg' hr'
  have := workLeft_le_two s
  rcases hend with h | ⟨-, h⟩
  · exact h
  · omega

/-! ## A file of one chunk, whose socket closes during the read -/

/-- The close event is dispatched while the slice is read; both promises then
settle, and the call waits for acks that cannot come. -/
theorem waits_for_past_close : ∃ s,
    Transition.run (next tinyArgs) init
      [.keyDerived none, .metaEncrypted none, .close, .sliceRead none, .chunkEncrypted none]
      = some s ∧ s.waiting = true ∧ s.socketClosed = true ∧ ¬ WaitsAhead s :=
  ⟨⟨.ackWait, tinyKey, -1, true, none, true, false⟩, by decide, by decide, by decide, by decide⟩

/-- The same file sent in time: the close event comes while the call waits. -/
theorem waitsAhead_of_timely_tiny :
    WaitsAhead
      ⟨.settled (.rejected (.error "connection_lost")), tinyKey, -1, true, none, true, false⟩ :=
  (waitsAhead_of_timely tinyArgs
    [.keyDerived none, .metaEncrypted none, .sliceRead none, .chunkEncrypted none, .close] _
    (by decide) (by decide)).1

end Quicksend.SendFile
