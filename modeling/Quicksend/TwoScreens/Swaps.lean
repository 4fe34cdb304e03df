import Quicksend.TwoScreens.Transfers
import Quicksend.PairedScreen.Quiet

/-!
# Role swaps between two screens

Both clients look whether they are busy, but at different times: the one that asks when
it is clicked, the other when the request comes. So it matters who begins to send in
between, and while the answer is on its way.
-/

namespace Quicksend.TwoScreens

open PairedScreen (Quiet Through InFlight)
open Transition (run Guarded)

/-- An answer that accepts a swap is on its way to this client. -/
def answered (x : TwoScreens) (role : Role) : Bool :=
  (x.up role.other ++ x.down role).contains (.signal (.roleSwapResponse true))

/-- The client will flip when the answer comes. -/
def agreed (x : TwoScreens) (role : Role) : Bool :=
  (x.screens role).client.swapAwaitingResponse && x.answered role

/-- The screen that an event is for, and what happens to it there. -/
def acting (x : TwoScreens) : Event → Option (Role × PairedScreen.Event)
  | .screen role e => some (role, e)
  | .rendered role i _ fileId => some (role, .adopts i fileId)
  | .hears role => (x.down role).head?.map fun p => (role, p.event)
  | .relays _ _ | .stops _ => none

/-- The client accepts a swap, or asks for one when an earlier request of its own was
accepted and it has not heard that. -/
def joins (x : TwoScreens) (role : Role) : PairedScreen.Event → Bool
  | .swapClick => x.answered role
  | e => (x.screens role).accepts e

/-- Nothing begins when a client is about to flip, nobody joins a swap with a client
that is sending, a screen is rendered when the promise before is through, and the ids
of a client's calls are different. -/
def Orderly (x : TwoScreens) (e : Event) : Prop :=
  ∀ p ∈ x.acting e,
    ((x.screens p.1).begins p.2 = true → ∀ role, x.agreed role = false) ∧
    (x.joins p.1 p.2 = true → (x.screens p.1.other).isSending = false) ∧
    ((x.screens p.1).startsRender p.2 = true → (x.screens p.1).Settled) ∧
    ∀ fileId ∈ p.2.draws, ∀ call ∈ (x.screens p.1).calls, call.args.fileId ≠ fileId

instance (x : TwoScreens) (e : Event) : Decidable (x.Orderly e) :=
  inferInstanceAs (Decidable (∀ p ∈ x.acting e, _ ∧ _ ∧ _ ∧ _))

/-- No `sendFile` call of the client is pending, and each file that the other has begun
is complete or aborted. -/
def AtRest (x : TwoScreens) (role : Role) : Prop :=
  (x.screens role).Idle ∧ ∀ fileId, x.Begun role.other fileId → x.Ended role.other fileId

/-- Who flips in this step is at rest. -/
def FlipsAtRest (x y : TwoScreens) : Prop :=
  ∀ role, (y.screens role).client.transferRole ≠ (x.screens role).client.transferRole →
    x.AtRest role

variable {w : WebCrypto} {codec : MetaCodec} {x y : TwoScreens} {role : Role}
  {e : PairedScreen.Event} {out : List Output}

theorem answered_iff : x.answered role = true ↔
    .signal (.roleSwapResponse true) ∈ x.up role.other ++ x.down role := List.contains_iff_mem

theorem agreed_iff : x.agreed role = true ↔
    (x.screens role).client.swapAwaitingResponse = true ∧ x.answered role = true := by
  rw [agreed, Bool.and_eq_true]

theorem joins_of_accepts (h : (x.screens role).accepts e = true) : x.joins role e = true := by
  cases e with
  | swapClick => cases h
  | _ => exact h

/-- A client that will flip now would have flipped before, or it joins a swap. -/
theorem Acts.agreed (h : Acts w codec x y role e out) (he : e.inSession = true) {r : Role}
    (hr : y.agreed r = true) :
    x.agreed r = true ∨ x.joins role e = true ∧ (x.screens role).isActive = false := by
  obtain ⟨hawait, hanswer⟩ := agreed_iff.mp hr
  rw [answered_iff, h.up, h.down, List.mem_append, Function.update_apply] at hanswer
  rcases Role.eq_or_eq_other role r with rfl | rfl
  · rw [if_neg (Role.other_ne r), ← List.mem_append] at hanswer
    have hold := answered_iff.mpr hanswer
    -- the acceptance was on its way to this client, which waits or has just asked
    rcases PairedScreen.awaiting_of_step he h.step hawait with hawait | ⟨rfl, hact⟩
    · exact .inl (agreed_iff.mpr ⟨hawait, hold⟩)
    · exact .inr ⟨hold, hact⟩
  · rw [h.other] at hawait
    rw [Role.other_other, if_pos rfl, List.mem_append, or_assoc, or_left_comm, List.mem_map] at hanswer
    rcases hanswer with ⟨o, ho, hp⟩ | hold
    · -- the acceptance is new: this client has just accepted
      have hacc := PairedScreen.accepts_of_output h.step ho hp
      refine .inr ⟨joins_of_accepts hacc, ?_⟩
      exact PairedScreen.inactive_of_accepts hacc
    · refine .inl (agreed_iff.mpr ⟨hawait, answered_iff.mpr ?_⟩)
      rw [Role.other_other]
      exact List.mem_append.mpr hold

/-! ## The invariant -/

/-- While a client is about to flip neither has a loop behind a live handle. -/
structure Negotiated (x : TwoScreens) : Prop where
  recorded : Recorded x
  inFlight : ∀ role, InFlight (x.screens role)
  agreed : ∀ role, x.agreed role = true → ∀ r, Quiet (x.screens r)

theorem Negotiated.idle (hx : Negotiated x) (hq : Quiet (x.screens role)) : (x.screens role).Idle :=
  hq.idle (hx.inFlight role) (hx.recorded.sockets role).1

theorem Negotiated.quiet (hx : Negotiated x) (ht : Through (x.screens role))
    (hsend : (x.screens role).isSending = false) : Quiet (x.screens role) :=
  PairedScreen.quiet_of_not_sending (hx.inFlight role) ht hsend

/-- Nobody sends where both are quiet. -/
theorem Negotiated.atRest (hx : Negotiated x) (hq : ∀ r, Quiet (x.screens r)) : x.AtRest role :=
  ⟨hx.idle (hq role), fun _ hb => hx.recorded.ended_of_idle (hx.idle (hq role.other)) hb⟩

/-- A screen acts. -/
theorem Negotiated.act (hx : Negotiated x) (h : Acts w codec x y role e out)
    (hallow : x.Allowed role e)
    (hrender : (x.screens role).startsRender e = true →
      (x.screens role).Settled ∧ Quiet (x.screens role))
    (hagreed : ∀ r, y.agreed r = true → ∀ q, Quiet (y.screens q)) : Negotiated y where
  recorded := hx.recorded.act h hallow
  inFlight r := by
    rcases Role.eq_or_eq_other role r with rfl | rfl
    · exact (hx.inFlight r).step (fun hs => ⟨(hrender hs).1, hx.idle (hrender hs).2⟩) h.step
    · rw [h.other]
      exact hx.inFlight _
  agreed := hagreed

/-- Messages move on, or are lost, and the relay may add a notice. -/
theorem Negotiated.carried (hx : Negotiated x) (hscreens : y.screens = x.screens)
    (hlog : ∀ s ∈ x.log, s ∈ y.log)
    (hnew : ∀ s ∈ y.log, s ∈ x.log ∨ ∃ id : FileId, s = (none, sizeLimitAbortMessage id.hex))
    (hways : ∀ r p, p ∈ y.up r ++ y.down r.other → p ∈ x.up r ++ x.down r.other ∨
      ∃ id : FileId, p = .message (sizeLimitAbortMessage id.hex) ∧
        (none, sizeLimitAbortMessage id.hex) ∈ y.log) : Negotiated y where
  recorded := by
    refine hx.recorded.carried hscreens hlog hnew fun r m hm => ?_
    rcases hways r _ hm with hold | ⟨id, heq, hnotice⟩
    · exact (hx.recorded.travels r m hold).mono hlog
    · obtain rfl := Payload.message.inj heq
      exact .inr ⟨id, rfl, hnotice⟩
  inFlight := by rw [hscreens]; exact hx.inFlight
  agreed r hr := by
    obtain ⟨hawait, hans⟩ := agreed_iff.mp hr
    rw [hscreens] at hawait ⊢
    refine hx.agreed r (agreed_iff.mpr ⟨hawait, answered_iff.mpr ?_⟩)
    have hans := answered_iff.mp hans
    have hways := hways r.other (.signal (.roleSwapResponse true))
    rw [Role.other_other] at hways
    rcases hways hans with hold | ⟨id, heq, -⟩
    · exact hold
    · cases heq

/-- What a screen may do by itself, and what it may hear, when it is orderly. -/
structure Turn (x : TwoScreens) (role : Role) (e : PairedScreen.Event) : Prop where
  inSession : e.inSession = true
  stays : (x.screens role).leavesScreen e = false
  heard : ∀ socket m, e = .arrives socket m → x.Sent role.other m
  fresh : ∀ fileId, e.draws = some fileId →
    ∀ call ∈ (x.screens role).calls, call.args.fileId ≠ fileId
  settled : (x.screens role).startsRender e = true → (x.screens role).Settled
  joins : x.joins role e = true → (x.screens role).isActive = false → ∀ r, Quiet (x.screens r)
  answered : e = .hears (.signal (.roleSwapResponse true)) →
    (x.screens role).client.swapAwaitingResponse = true → ∀ r, Quiet (x.screens r)

theorem Turn.allowed (h : x.Turn role e) : x.Allowed role e where
  closes socket he := by
    have := h.inSession
    rw [he] at this
    cases this
  stays := h.stays
  heard := h.heard
  fresh := h.fresh

/-- Where a client is about to flip, nobody sends. -/
theorem Turn.quiet_of_flips (h : x.Turn role e) (hflips : (x.screens role).Flips e) (r : Role) :
    Quiet (x.screens r) := by
  rcases hflips with hacc | ⟨he, hawait⟩
  · exact h.joins (joins_of_accepts hacc) (PairedScreen.inactive_of_accepts hacc) r
  · exact h.answered he hawait r

theorem Negotiated.turn (hx : Negotiated x) (h : Acts w codec x y role e out)
    (hturn : x.Turn role e)
    (hquiet : ∀ r, x.agreed r = true ∨ x.joins role e = true → Quiet (x.screens role) →
      Quiet (y.screens role)) : Negotiated y := by
  refine hx.act h hturn.allowed (fun hs => ⟨hturn.settled hs, ?_⟩) fun r hr q => ?_
  · exact hturn.quiet_of_flips (PairedScreen.flips_of_startsRender hturn.inSession hs) role
  · have hcause := h.agreed hturn.inSession hr
    have hq : ∀ q, Quiet (x.screens q) := by
      rcases hcause with hold | ⟨hj, hact⟩
      · exact hx.agreed r hold
      · exact hturn.joins hj hact
    rcases Role.eq_or_eq_other role q with rfl | rfl
    · exact hquiet r (hcause.imp_right And.left) (hq q)
    · rw [h.other]
      exact hq _

/-- A client that flips is at rest. -/
theorem Turn.flips (h : x.Turn role e) (hx : Negotiated x) (hact : Acts w codec x y role e out) :
    x.FlipsAtRest y := by
  intro r hr
  rcases Role.eq_or_eq_other role r with rfl | rfl
  · exact hx.atRest (h.quiet_of_flips (PairedScreen.flips_of_step h.inSession hact.step hr))
  · rw [hact.other] at hr
    exact absurd rfl hr

/-! ## One step -/

/-- A client that is idle joins a swap with one that is not sending. -/
theorem Negotiated.quiet_of_joins (hx : Negotiated x) (ht : ∀ r, Through (x.screens r))
    (hact : (x.screens role).isActive = false) (hsend : (x.screens role.other).isSending = false)
    (r : Role) : Quiet (x.screens r) := by
  rcases Role.eq_or_eq_other role r with rfl | rfl
  · exact hx.quiet (ht r) (PairedScreen.not_sending_of_inactive hact)
  · exact hx.quiet (ht _) hsend

theorem turn_of_own (hx : Negotiated x) (ht : ∀ r, Through (x.screens r)) (hown : e.isOwn = true)
    (hg : x.Orderly (.screen role e)) : x.Turn role e := by
  obtain ⟨-, hjoins, -, hfresh⟩ := hg (role, e) rfl
  have hjoins (hj : x.joins role e = true) (hact : (x.screens role).isActive = false) :
      ∀ r, Quiet (x.screens r) := hx.quiet_of_joins ht hact (hjoins hj)
  cases e with
  | swapClick | swapTimer | picks | continues | sendFile | receiver =>
      exact ⟨rfl, rfl, by simp, hfresh, by simp [PairedScreen.startsRender], hjoins, by simp⟩
  | _ => cases hown

/-- The next message on a client's socket is taken off it. -/
theorem Negotiated.popped (hx : Negotiated x) {p : Payload} {rest : List Payload}
    (hp : x.down role = p :: rest) :
    Negotiated { x with down := Function.update x.down role rest } := by
  refine hx.carried rfl (fun _ hs => hs) (fun _ hs => .inl hs) fun r q hq => .inl ?_
  rcases List.mem_append.mp hq with hq | hq
  · exact List.mem_append_left _ hq
  · refine List.mem_append_right _ ?_
    simp only [Function.update_apply] at hq
    split at hq
    next hr =>
      rw [hr, hp]
      exact List.mem_cons_of_mem _ hq
    next => exact hq

theorem Negotiated.relays (hx : Negotiated x) {drop : Bool}
    (h : x.step w codec (.relays role drop) = some y) : Negotiated y ∧ y.screens = x.screens := by
  simp only [step] at h
  split at h
  next p rest hp =>
    have dropped : Negotiated { x with up := Function.update x.up role rest } := by
      refine hx.carried rfl (fun _ hs => hs) (fun _ hs => .inl hs) fun r q hq => .inl ?_
      rcases List.mem_append.mp hq with hq | hq
      · refine List.mem_append_left _ ?_
        simp only [Function.update_apply] at hq
        split at hq
        next hr =>
          rw [hr, hp]
          exact List.mem_cons_of_mem _ hq
        next => exact hq
      · exact List.mem_append_right _ hq
    split at h
    next =>
      split at h
      next =>
        obtain rfl := Option.some.inj h
        exact ⟨dropped, rfl⟩
      next => cases h
    next =>
      obtain rfl := Option.some.inj h
      refine ⟨hx.carried rfl (fun _ hs => hs) (fun _ hs => .inl hs) fun r q hq => .inl ?_, rfl⟩
      simp only [Function.update_apply, List.mem_append] at hq ⊢
      rcases Role.eq_or_eq_other role r with rfl | rfl
      · rw [if_pos rfl, if_pos rfl, List.mem_append, List.mem_singleton] at hq
        rw [hp, List.mem_cons]
        tauto
      · rw [if_neg (Role.other_ne role), Role.other_other, if_neg (Role.ne_other role)] at hq
        rw [Role.other_other]
        exact hq
  next => cases h

theorem Negotiated.stops (hx : Negotiated x) {fileId : FileId}
    (h : x.step w codec (.stops fileId) = some y) : Negotiated y ∧ y.screens = x.screens := by
  simp only [step] at h
  obtain rfl := Option.some.inj h
  refine ⟨hx.carried rfl (fun _ hs => List.mem_append_left _ hs) (fun s hs => ?_)
    fun r q hq => ?_, rfl⟩
  · rcases List.mem_append.mp hs with hs | hs
    · exact .inl hs
    · exact .inr ⟨fileId, List.mem_singleton.mp hs⟩
  · rcases List.mem_append.mp hq with hq | hq
    · exact .inl (List.mem_append_left _ hq)
    · rcases List.mem_append.mp hq with hq | hq
      · exact .inl (List.mem_append_right _ hq)
      · exact .inr ⟨fileId, List.mem_singleton.mp hq,
          List.mem_append_right _ (List.mem_singleton.mpr rfl)⟩

/-- The client hears the message that was next. -/
theorem turn_of_hears (hx : Negotiated x) (ht : ∀ r, Through (x.screens r))
    (hg : x.Orderly (.hears role)) {p : Payload} {rest : List Payload} (hp : x.down role = p :: rest)
    (h : Acts w codec { x with down := Function.update x.down role rest } y role p.event out) :
    Turn { x with down := Function.update x.down role rest } role p.event := by
  have hacting : (role, p.event) ∈ x.acting (.hears role) := by
    rw [acting, hp]
    rfl
  obtain ⟨-, hjoins, hsettled, hfresh⟩ := hg _ hacting
  have hmem : p ∈ x.up role.other ++ x.down role.other.other := by
    rw [Role.other_other, hp]
    exact List.mem_append_right _ List.mem_cons_self
  cases p with
  | signal s =>
      refine ⟨rfl, (PairedScreen.heard_of_step h.step).1, by simp [Payload.event], hfresh, hsettled,
        fun hj hact => hx.quiet_of_joins ht hact (hjoins hj), fun he hawait => ?_⟩
      obtain rfl : s = .roleSwapResponse true := by simpa [Payload.event] using he
      refine hx.agreed role (agreed_iff.mpr ⟨hawait, answered_iff.mpr ?_⟩)
      rwa [Role.other_other] at hmem
  | message m =>
      refine ⟨rfl, rfl, fun socket m' he => ?_, hfresh, hsettled,
        fun hj => by simp [joins, PairedScreen.accepts, Payload.event] at hj,
        by simp [Payload.event]⟩
      obtain ⟨-, rfl⟩ : 0 = socket ∧ m = m' := by simpa [Payload.event] using he
      exact hx.recorded.travels _ _ hmem

/-- The end of a promise begins no swap. -/
theorem turn_of_promise (x : TwoScreens) (role : Role)
    (he : (∃ i err, e = .derived i err) ∨ ∃ i fileId, e = .adopts i fileId)
    (hfresh : ∀ fileId, e.draws = some fileId →
      ∀ call ∈ (x.screens role).calls, call.args.fileId ≠ fileId) :
    x.Turn role e ∧ x.joins role e = false := by
  rcases he with ⟨i, err, rfl⟩ | ⟨i, fileId, rfl⟩
  · exact ⟨⟨rfl, rfl, by simp, hfresh, by simp [PairedScreen.startsRender],
      by simp [joins, PairedScreen.accepts], by simp⟩, rfl⟩
  · exact ⟨⟨rfl, rfl, by simp, hfresh, by simp [PairedScreen.startsRender],
      by simp [joins, PairedScreen.accepts], by simp⟩, rfl⟩

theorem begins_of_joins (h : x.joins role e = true) : (x.screens role).begins e = false := by
  cases e with
  | picks | adopts => cases h
  | _ => rfl

/-- What holds of the screens between two events. -/
structure Between (x : TwoScreens) : Prop where
  negotiated : Negotiated x
  through : ∀ role, Through (x.screens role)

theorem Acts.through (h : Acts w codec x y role e out) (ht : ∀ r, Through (x.screens r))
    (hy : Through (y.screens role)) (r : Role) : Through (y.screens r) := by
  rcases Role.eq_or_eq_other role r with rfl | rfl
  · exact hy
  · rw [h.other]
    exact ht _

/-- A screen acts, and no promise comes to its end. -/
theorem Between.turn (hx : Between x) (h : Acts w codec x y role e out) (hturn : x.Turn role e)
    (hno : ∀ i err, e ≠ .derived i err) (hadopts : ∀ i fileId, e ≠ .adopts i fileId)
    (hbegins : (x.screens role).begins e = true → ∀ r, x.agreed r = false) : Between y := by
  refine ⟨hx.negotiated.turn h hturn fun r hr hq => ?_, ?_⟩
  · refine hq.step h.step (fun i fileId he => absurd he (hadopts i fileId)) fun _ => ?_
    rcases hr with hr | hj
    · cases hb : (x.screens role).begins e with
      | false => rfl
      | true =>
          rw [hbegins hb r] at hr
          cases hr
    · exact begins_of_joins hj
  · exact h.through hx.through ((hx.through role).step hturn.inSession hno h.step)

theorem flipsAtRest_of_kept
    (h : ∀ r, (y.screens r).client.transferRole = (x.screens r).client.transferRole) :
    x.FlipsAtRest y := fun r hr => absurd (h r) hr

/-- A client that has not heard the other keeps its role. -/
theorem Acts.kept (h : Acts w codec x y role e out) (hno : ∀ d, e ≠ .hears d)
    (he : e.inSession = true) (r : Role) :
    (y.screens r).client.transferRole = (x.screens r).client.transferRole := by
  rcases Role.eq_or_eq_other role r with rfl | rfl
  · exact (PairedScreen.client_of_step hno he h.step).1
  · rw [h.other]

/-- The promise of a render comes to its end, and its handle may be given files. -/
theorem Between.rendered (hx : Between x) {i : Nat} {err : Option String} {fileId : FileId}
    (hg : x.Orderly (.rendered role i err fileId))
    (h : x.step w codec (.rendered role i err fileId) = some y) : Between y ∧ x.FlipsAtRest y := by
  obtain ⟨hbegins, -, -, hfresh⟩ := hg (role, .adopts i fileId) rfl
  simp only [step] at h
  obtain ⟨x₁, h₁, h⟩ := Option.bind_eq_some_iff.mp h
  obtain ⟨out, hacts⟩ := act_spec h₁
  obtain ⟨hturn, hno⟩ := turn_of_promise x role (.inl ⟨i, err, rfl⟩)
    (by simp [PairedScreen.Event.draws])
  have hneg₁ : Negotiated x₁ := hx.negotiated.turn hacts hturn fun r _ hq =>
    hq.step hacts.step (by simp) fun _ => rfl
  have hkept := hacts.kept (by simp) rfl
  split at h
  next hsome =>
    obtain ⟨out', hacts'⟩ := act_spec h
    have hcalls : (x₁.screens role).calls = (x.screens role).calls := by
      obtain ⟨r, -, ⟨key, hy⟩ | ⟨-, hy⟩⟩ := PairedScreen.derived_eq hacts.step
      · rw [hy]
        rfl
      · rw [hy]
        rfl
    obtain ⟨hturn', hno'⟩ := turn_of_promise x₁ role (.inr ⟨i, fileId, rfl⟩)
      (by rw [hcalls]; exact hfresh)
    refine ⟨⟨hneg₁.turn hacts' hturn' fun r hr hq => ?_, ?_⟩, ?_⟩
    · -- a swap that is agreed now was so before the promise
      refine hq.step hacts'.step (fun j id he => ?_) fun hne => absurd rfl (hne i fileId)
      obtain ⟨rfl, rfl⟩ : i = j ∧ fileId = id := by simpa using he
      have hr₁ : x₁.agreed r = true := hr.resolve_right (by rw [hno']; exact Bool.false_ne_true)
      have hr₀ : x.agreed r = true :=
        (hacts.agreed rfl hr₁).resolve_right fun hj => by rw [hno] at hj; cases hj.1
      cases hb : (x.screens role).begins (.adopts i fileId) with
      | false => exact PairedScreen.queued_or_receives hacts.step hb
      | true =>
          rw [hbegins hb r] at hr₀
          cases hr₀
    · intro r
      rcases Role.eq_or_eq_other role r with rfl | rfl
      · exact (hx.through r).adopted hacts.step hacts'.step
      · rw [hacts'.other, hacts.other]
        exact hx.through _
    · exact flipsAtRest_of_kept fun r => (hacts'.kept (by simp) rfl r).trans (hkept r)
  next hnone =>
    obtain rfl := Option.some.inj h
    refine ⟨⟨hneg₁, hacts.through hx.through ?_⟩, flipsAtRest_of_kept hkept⟩
    exact (hx.through role).failed hacts.step (by simpa using hnone)

/-- One event: the invariant is kept, and who flips is at rest. -/
theorem Between.step (hx : Between x) {e : Event} (hg : x.Orderly e)
    (h : x.step w codec e = some y) : Between y ∧ x.FlipsAtRest y := by
  cases e with
  | screen role e =>
      simp only [TwoScreens.step] at h
      split at h
      next hown =>
        obtain ⟨out, hacts⟩ := act_spec h
        have hturn := turn_of_own hx.negotiated hx.through hown hg
        obtain ⟨hbegins, -⟩ := hg (role, e) rfl
        refine ⟨hx.turn hacts hturn ?_ ?_ hbegins, hturn.flips hx.negotiated hacts⟩
        · rintro i err rfl
          cases hown
        · rintro i fileId rfl
          cases hown
      next => cases h
  | rendered role i err fileId => exact hx.rendered hg h
  | hears role =>
      simp only [TwoScreens.step] at h
      split at h
      next p rest hp =>
        obtain ⟨out, hacts⟩ := act_spec h
        -- what is heard was on its way, so whoever flips by it was agreed before
        have hturn := turn_of_hears hx.negotiated hx.through hg hp hacts
        have hpopped : Between { x with down := Function.update x.down role rest } :=
          ⟨hx.negotiated.popped hp, hx.through⟩
        have hsignal : (∀ i err, p.event ≠ .derived i err) ∧ (∀ i fileId, p.event ≠ .adopts i fileId) ∧
            (x.screens role).begins p.event = false := by
          cases p with
          | signal s => exact ⟨by simp [Payload.event], by simp [Payload.event], rfl⟩
          | message m => exact ⟨by simp [Payload.event], by simp [Payload.event], rfl⟩
        refine ⟨hpopped.turn hacts hturn hsignal.1 hsignal.2.1 fun hb => ?_,
          hturn.flips hpopped.negotiated hacts⟩
        rw [show (x.screens role).begins p.event = true from hb] at hsignal
        cases hsignal.2.2
      next => cases h
  | relays role drop =>
      obtain ⟨hneg, hscreens⟩ := hx.negotiated.relays h
      exact ⟨⟨hneg, by rw [hscreens]; exact hx.through⟩,
        flipsAtRest_of_kept fun r => by rw [hscreens]⟩
  | stops fileId =>
      obtain ⟨hneg, hscreens⟩ := hx.negotiated.stops h
      exact ⟨⟨hneg, by rw [hscreens]; exact hx.through⟩,
        flipsAtRest_of_kept fun r => by rw [hscreens]⟩

/-! ## The runs -/

theorem pairs_init (w : WebCrypto) (codec : MetaCodec) (role : Role) (sessionKey : Bytes) :
    PairedScreen.step w codec PairedScreen.init (.pairs role 0 sessionKey)
      = some (PairedScreen.paired role sessionKey, []) := rfl

theorem Attributed.init (sessionKey : Bytes) : Attributed (init sessionKey) where
  frames _ _ _ hm := by cases hm
  acks _ _ _ hm := by cases hm
  begun _ _ hb := by
    obtain ⟨_, hm⟩ := hb
    cases hm
  unique _ _ _ _ _ hj := by cases hj

theorem Recorded.init (sessionKey : Bytes) : Recorded (init sessionKey) where
  sockets _ := ⟨rfl, rfl⟩
  travels _ _ hm := by cases hm
  attributed := .init sessionKey
  calls _ _ _ hk := by cases hk
  receivers role i ui hui := by
    obtain ⟨r, hr, hrui⟩ := Option.bind_eq_some_iff.mp hui
    cases i with
    | zero =>
        obtain rfl := Option.some.inj hr
        cases hrui
    | succ i => cases hr

theorem Between.init (w : WebCrypto) (codec : MetaCodec) (sessionKey : Bytes) :
    Between (init sessionKey) where
  negotiated :=
    { recorded := .init sessionKey
      inFlight := fun role => by
        refine InFlight.init.step (fun _ => ⟨?_, ?_⟩) (pairs_init w codec role sessionKey)
        · intro r hr
          cases hr
        · intro call hc
          cases hc
      agreed := fun role hr => by cases (agreed_iff.mp hr).2 }
  through role := by
    let client := (Pairing.Client.finalizePaired role 0).renderPaired.client
    have hinit : Through { PairedScreen.init with sessionKey := sessionKey, client := client } := by
      intro i o ho
      cases ho
    exact hinit.renderPaired

/-- **No swap during a transfer.** When both clients keep to the order above, a client
that flips has no `sendFile` call pending, and each file that the other has begun is
complete or aborted. -/
theorem flipsAtRest_of_orderly (w : WebCrypto) (codec : MetaCodec) (sessionKey : Bytes)
    (es : List Event) (e : Event) (x y : TwoScreens)
    (hg : Guarded (step w codec) Orderly (init sessionKey) es)
    (hr : run (step w codec) (init sessionKey) es = some x) (he : x.Orderly e)
    (h : x.step w codec e = some y) : x.FlipsAtRest y := by
  have hx : Between x := hg.invariant (fun x e y hx hg h => (hx.step hg h).1)
    (.init w codec sessionKey) hr
  exact (hx.step he h).2

/-! ## A file between the click and the answer -/

/-- The guest asks for a swap, and picks a file before the host's answer is there. -/
def racedEvents : List Event :=
  [.rendered .host 0 none SendFile.tinyArgs.fileId,
    .rendered .guest 0 none SendFile.tinyArgs.fileId, .screen .guest .swapClick,
    .screen .guest (.picks 0 [SendFile.tinyArgs.file] SendFile.tinyArgs.fileId),
    .relays .guest false, .hears .host, .relays .host false]

/-- The answer makes the guest a receiver while its call is pending. -/
theorem flips_while_sending : ∃ x y,
    run (step labelCrypto SendFile.tinyArgs.codec) (init PairedScreen.tinySessionKey) racedEvents
      = some x ∧
    x.step labelCrypto SendFile.tinyArgs.codec (.hears .guest) = some y ∧ ¬ x.FlipsAtRest y := by
  have hrun : (run (step labelCrypto SendFile.tinyArgs.codec) (init PairedScreen.tinySessionKey)
      racedEvents).any (fun x =>
        (x.step labelCrypto SendFile.tinyArgs.codec (.hears .guest)).any fun y =>
          decide ((y.screens .guest).client.transferRole ≠ (x.screens .guest).client.transferRole ∧
            ¬ (x.screens .guest).Idle)) = true := by decide +kernel
  obtain ⟨x, hx, h⟩ := (Option.any_eq_true _ _).mp hrun
  obtain ⟨y, hy, h⟩ := (Option.any_eq_true _ _).mp h
  obtain ⟨hflip, hidle⟩ := of_decide_eq_true h
  exact ⟨x, y, hx, hy, fun hrest => hidle (hrest .guest hflip).1⟩

/-- The guest sends a file, and asks for a swap when the file is through. -/
def calmEvents : List Event :=
  [.rendered .host 0 none SendFile.tinyArgs.fileId,
    .rendered .guest 0 none SendFile.tinyArgs.fileId,
    .screen .guest (.picks 0 [SendFile.tinyArgs.file] SendFile.tinyArgs.fileId),
    .screen .guest (.sendFile 0 (.keyDerived none)), .screen .guest (.sendFile 0 (.metaEncrypted none)),
    .screen .guest (.sendFile 0 (.sliceRead none)), .screen .guest (.sendFile 0 (.chunkEncrypted none)),
    .relays .guest false, .relays .guest false, .hears .host, .hears .host,
    .screen .host (.receiver 0 .start), .screen .host (.receiver 0 (.settle none)),
    .screen .host (.receiver 0 (.settle none)), .screen .host (.receiver 0 (.sinkReady .fsa)),
    .screen .host (.receiver 0 .start), .screen .host (.receiver 0 (.settle none)),
    .screen .host (.receiver 0 (.settle none)), .relays .host false, .hears .guest,
    .screen .guest (.continues 0 SendFile.tinyOtherId), .screen .guest .swapClick,
    .relays .guest false]

theorem flipsAtRest_of_orderly_tiny : ∃ x y,
    run (step labelCrypto SendFile.tinyArgs.codec) (init PairedScreen.tinySessionKey) calmEvents
      = some x ∧
    x.step labelCrypto SendFile.tinyArgs.codec (.hears .host) = some y ∧
    (y.screens .host).client.transferRole ≠ (x.screens .host).client.transferRole ∧
    x.log.length = 3 ∧ x.FlipsAtRest y := by
  have hrun : (run (step labelCrypto SendFile.tinyArgs.codec) (init PairedScreen.tinySessionKey)
      calmEvents).any (fun x =>
        (x.step labelCrypto SendFile.tinyArgs.codec (.hears .host)).any fun y =>
          decide ((y.screens .host).client.transferRole ≠ (x.screens .host).client.transferRole ∧
            x.log.length = 3 ∧ x.Orderly (.hears .host))) = true := by decide +kernel
  obtain ⟨x, hx, h⟩ := (Option.any_eq_true _ _).mp hrun
  obtain ⟨y, hy, h⟩ := (Option.any_eq_true _ _).mp h
  obtain ⟨hflip, hlog, horderly⟩ := of_decide_eq_true h
  refine ⟨x, y, hx, hy, hflip, hlog, ?_⟩
  exact flipsAtRest_of_orderly labelCrypto SendFile.tinyArgs.codec PairedScreen.tinySessionKey
    calmEvents (.hears .host) x y (by decide +kernel) hx horderly hy

end Quicksend.TwoScreens
