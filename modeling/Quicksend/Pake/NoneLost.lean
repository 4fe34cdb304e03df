import Quicksend.Pake

/-!
# Messages of the code exchange that vanish

Each `waitForType` listener stands only while its side awaits that type, so
a message that is dispatched earlier is lost: the host's first one if the
guest's engine is still loading, either side's `pake_confirm` if the other's
own tag is not out yet. A run is heard when every dispatch finds its
listener. In such runs nobody waits for a message of the past; and a run
that cannot go on, between honest ends with one code, has both ends return
one key exactly when every dispatch of it was heard.
-/

namespace Quicksend.Pake

variable {a : PakeArgs} {lib : PakePackage}

/-- The `waitForType` listener for this message is installed. -/
def Pc.listens : Pc lib → PakeMessage → Bool
  | .awaitingMsg _, .pakeMsg _ => true
  | .awaitingConfirm _, .pakeConfirm _ => true
  | _, _ => false

/-- No side waits for a message of a type that was dispatched to it already. -/
def NoneLost (s : State lib) : Prop :=
  ∀ r, ∀ m ∈ (s.sent r.other).take (s.seen r), (s.pc r).listens m = false

instance (s : State lib) : Decidable (NoneLost s) :=
  decidable_of_iff
    ((∀ m ∈ (s.sent .guest).take (s.seen .host), (s.pc .host).listens m = false) ∧
      ∀ m ∈ (s.sent .host).take (s.seen .guest), (s.pc .guest).listens m = false)
    ⟨fun h r => by cases r <;> [exact h.1; exact h.2], fun h => ⟨h .host, h .guest⟩⟩

/-- A dispatch finds its listener: the side waits for just the type of message
that comes. -/
def Heard (s : State lib) : Event → Prop
  | .dispatch r => (s.sent r.other)[s.seen r]?.all (s.pc r).listens = true
  | .settle _ _ => True

/-- An operation succeeds if its arguments let it. -/
def Succeeds (_ : State lib) : Event → Prop
  | .settle _ err => err = none
  | .dispatch _ => True

instance (s : State lib) (e : Event) : Decidable (Heard s e) := by
  unfold Heard
  split <;> infer_instance

instance (s : State lib) (e : Event) : Decidable (Succeeds s e) := by
  unfold Succeeds
  split <;> infer_instance

theorem Heard.listens {s : State lib} {r : Role} {m : PakeMessage} (h : Heard s (.dispatch r))
    (hm : (s.sent r.other)[s.seen r]? = some m) : (s.pc r).listens m = true := by
  simpa [Heard, hm] using h

/-! ## What a step can do -/

/-- What the operations do to the side that awaits them. -/
inductive Resumed (a : PakeArgs) (r : Role) : Pc a.lib → Pc a.lib → List PakeMessage → Prop where
  | init (p : a.lib.Pake) (message : Bytes)
      (h : jsInit a.lib (a.code r) r.pakeRole (a.seed r) = .ok (p, message)) :
      Resumed a r .initializing (.awaitingMsg p)
        (if r.pakeRole = 0 then [.pakeMsg message] else [])
  | update (p q : a.lib.Pake) (received message : Bytes)
      (h : jsUpdate a.lib p received = .ok (q, message)) :
      Resumed a r (.updating p received) (.derivingKey q)
        (if r.pakeRole = 1 then [.pakeMsg message] else [])
  | key (p : a.lib.Pake) (keyBytes : Bytes) (h : jsSessionKey a.lib p = .ok keyBytes) :
      Resumed a r (.derivingKey p) (.tagging keyBytes) []
  | tag (keyBytes : Bytes) :
      Resumed a r (.tagging keyBytes) (.awaitingConfirm keyBytes)
        [.pakeConfirm (toHex (computeConfirmTag a keyBytes))]
  | verify (keyBytes peerTag : Bytes) :
      Resumed a r (.verifying keyBytes peerTag)
        (.freeing keyBytes (verifyConfirmTag a keyBytes peerTag)) []
  | free (keyBytes : Bytes) (ok : Bool) :
      Resumed a r (.freeing keyBytes ok)
        (.settled (if ok then .ok keyBytes else .error "code_mismatch")) []

theorem resume_resumed {r : Role} {pc pc' : Pc a.lib} {out : List PakeMessage}
    (h : resume a r pc = some (.ok (pc', out))) : Resumed a r pc pc' out := by
  cases pc with
  | initializing =>
      cases hr : jsInit a.lib (a.code r) r.pakeRole (a.seed r) with
      | error e => rw [resume, hr] at h; cases h
      | ok init =>
          rw [resume, hr] at h
          obtain ⟨rfl, rfl⟩ := Prod.mk.inj (Except.ok.inj (Option.some.inj h))
          exact .init _ _ hr
  | updating p m =>
      cases hr : jsUpdate a.lib p m with
      | error e => rw [resume, hr] at h; cases h
      | ok update =>
          rw [resume, hr] at h
          obtain ⟨rfl, rfl⟩ := Prod.mk.inj (Except.ok.inj (Option.some.inj h))
          exact .update _ _ _ _ hr
  | derivingKey p =>
      cases hr : jsSessionKey a.lib p with
      | error e => rw [resume, hr] at h; cases h
      | ok key =>
          rw [resume, hr] at h
          obtain ⟨rfl, rfl⟩ := Prod.mk.inj (Except.ok.inj (Option.some.inj h))
          exact .key _ _ hr
  | tagging | verifying | freeing =>
      obtain ⟨rfl, rfl⟩ := Prod.mk.inj (Except.ok.inj (Option.some.inj h))
      first | exact .tag _ | exact .verify _ _ | exact .free _ _
  | awaitingMsg | awaitingConfirm | settled => cases h

/-- What one step can do, guards included: a side resumes with its next messages,
fails, or hears something. -/
inductive Steps (a : PakeArgs) (s : State a.lib) : Event → State a.lib → Prop where
  | resumed (r : Role) (pc : Pc a.lib) (out : List PakeMessage) (h : Resumed a r (s.pc r) pc out) :
      Steps a s (.settle r none)
        { s with
          pc := Function.update s.pc r pc
          sent := Function.update s.sent r (s.sent r ++ out) }
  | failed (r : Role) (err : Option String) (e : String) (res : _)
      (h : resume a r (s.pc r) = some res) (he : settle err res = .error e) :
      Steps a s (.settle r err) { s with pc := Function.update s.pc r (.settled (.error e)) }
  | dispatched (r : Role) (m : PakeMessage) (h : (s.sent r.other)[s.seen r]? = some m) :
      Steps a s (.dispatch r)
        { s with
          pc := Function.update s.pc r (hear (s.pc r) m)
          seen := Function.update s.seen r (s.seen r + 1) }

theorem step_spec {s t : State a.lib} {e : Event} (h : step a s e = some t) : Steps a s e t := by
  cases e with
  | settle r err =>
      rw [step] at h
      split at h
      next => cases h
      next res hres =>
        split at h
        next pc out hok =>
          obtain rfl := Option.some.inj h
          cases err with
          | some e => cases hok
          | none => exact .resumed r pc out (resume_resumed (hres.trans (congrArg some hok)))
        next e he =>
          obtain rfl := Option.some.inj h
          exact .failed r err e res hres he
  | dispatch r =>
      rw [step] at h
      split at h
      next => cases h
      next m hm =>
        obtain rfl := Option.some.inj h
        exact .dispatched r m hm

/-! ## Sent and consumed messages -/

/-- How many messages a side has sent when it is here (and has not failed). -/
def posted (r : Role) : Pc lib → Nat
  | .initializing => 0
  | .awaitingMsg _ | .updating _ _ => if r.pakeRole = 0 then 1 else 0
  | .derivingKey _ | .tagging _ => 1
  | _ => 2

/-- How many messages a side has taken when it is here. -/
def consumed : Pc lib → Nat
  | .initializing | .awaitingMsg _ | .settled (.error _) => 0
  | .updating _ _ | .derivingKey _ | .tagging _ | .awaitingConfirm _ => 1
  | .verifying _ _ | .freeing _ _ | .settled (.ok _) => 2

/-- The side's exchange has thrown, for whatever reason; nothing it hears
afterwards counts. -/
def Pc.failed : Pc lib → Bool
  | .settled (.error _) => true
  | _ => false

theorem hear_of_listens {pc : Pc lib} {m : PakeMessage} (h : pc.listens m = true) (r : Role) :
    consumed pc = (if m.isConfirm then 1 else 0) ∧ consumed (hear pc m) = consumed pc + 1 ∧
      posted r (hear pc m) = posted r pc ∧ pc.failed = false ∧ (hear pc m).failed = false := by
  cases pc <;> cases m <;> simp [Pc.listens] at h <;> refine ⟨rfl, rfl, rfl, rfl, rfl⟩

theorem hear_of_not_listens {pc : Pc lib} {m : PakeMessage} (h : pc.listens m = false) :
    hear pc m = pc := by
  cases pc <;> cases m <;> simp [Pc.listens] at h <;> rfl

/-- What a side sends fits its place: a `pake_msg`, then a `pake_confirm`. -/
theorem Resumed.out {r : Role} {pc pc' : Pc a.lib} {out : List PakeMessage}
    (h : Resumed a r pc pc' out) :
    out.map PakeMessage.isConfirm = ([false, true].drop (posted r pc)).take out.length ∧
      (pc'.failed = false → posted r pc' = posted r pc + out.length) ∧
      posted r pc + out.length ≤ 2 ∧ pc.failed = false := by
  cases h with
  | init | update => cases r <;> exact ⟨rfl, fun _ => rfl, by simp [posted, Role.pakeRole], rfl⟩
  | key | tag | verify | free => exact ⟨rfl, fun _ => rfl, by simp [posted], rfl⟩

theorem Resumed.consumed {r : Role} {pc pc' : Pc a.lib} {out : List PakeMessage}
    (h : Resumed a r pc pc' out) :
    (pc'.failed = false → consumed pc' = consumed pc) ∧ consumed pc' ≤ consumed pc := by
  cases h with
  | free keyBytes ok => cases ok <;> simp [Pake.consumed, Pc.failed]
  | _ => exact ⟨fun _ => rfl, Nat.le_refl _⟩

/-- The invariant of every run: each side has sent a first part of the two
messages of its script, which fits its place, and has been handed no more
than the other has sent. -/
structure Ordered (s : State lib) : Prop where
  kinds (r : Role) : ∃ n, n ≤ 2 ∧ (s.sent r).map PakeMessage.isConfirm = [false, true].take n ∧
    ((s.pc r).failed = false → n = posted r (s.pc r))
  handed (r : Role) : s.seen r ≤ (s.sent r.other).length
  taken (r : Role) : consumed (s.pc r) ≤ s.seen r

theorem Ordered.init : Ordered (init lib) where
  kinds r := ⟨0, by decide, rfl, fun _ => rfl⟩
  handed _ := Nat.le_refl _
  taken _ := Nat.le_refl _

theorem Ordered.length_le {s : State lib} (hs : Ordered s) (r : Role) : (s.sent r).length ≤ 2 := by
  obtain ⟨n, hn, hk, -⟩ := hs.kinds r
  have := congrArg List.length hk
  rw [List.length_map, List.length_take] at this
  simp only [List.length_cons, List.length_nil] at this
  omega

/-- The `n`-th message of a side is its `pake_msg` or its `pake_confirm`. -/
theorem Ordered.kind {s : State lib} (hs : Ordered s) {r : Role} {n : Nat} {m : PakeMessage}
    (h : (s.sent r)[n]? = some m) : n = if m.isConfirm then 1 else 0 := by
  obtain ⟨k, hk2, hk, -⟩ := hs.kinds r
  have hm : ((s.sent r).map PakeMessage.isConfirm)[n]? = some m.isConfirm := by
    rw [List.getElem?_map, h]
    rfl
  rw [hk, List.getElem?_take] at hm
  split at hm
  next hn =>
    match n, hm with
    | 0, hm => simpa using (Option.some.inj hm).symm
    | 1, hm => simp [← Option.some.inj hm]
  next => cases hm

theorem Steps.ordered {s t : State a.lib} {e : Event} (h : Steps a s e t) (hs : Ordered s) :
    Ordered t := by
  cases h with
  | resumed r pc out h =>
      obtain ⟨hkinds, hposted, hle, hnf⟩ := h.out
      obtain ⟨n, hn, hk, hp⟩ := hs.kinds r
      obtain rfl := hp hnf
      refine ⟨fun q => ?_, fun q => ?_, fun q => ?_⟩ <;> dsimp only <;>
        rcases Role.eq_or_eq_other r q with rfl | rfl
      · refine ⟨posted q (s.pc q) + out.length, hle, ?_, fun hf => ?_⟩
        · rw [Function.update_self, List.map_append, hk, hkinds, ← List.take_add]
        · rw [Function.update_self] at hf ⊢
          exact (hposted hf).symm
      · simpa using hs.kinds r.other
      · simpa using hs.handed q
      · have := hs.handed r.other
        simp only [Role.other_other, Function.update_self, List.length_append] at this ⊢
        omega
      · rw [Function.update_self]
        exact Nat.le_trans h.consumed.2 (hs.taken q)
      · simpa using hs.taken r.other
  | failed r err e res h he =>
      refine ⟨fun q => ?_, hs.handed, fun q => ?_⟩ <;> dsimp only <;>
        rcases Role.eq_or_eq_other r q with rfl | rfl
      · obtain ⟨n, hn, hk, -⟩ := hs.kinds q
        -- a side that has failed sends nothing more
        exact ⟨n, hn, hk, fun hf => by simp [Pc.failed] at hf⟩
      · simpa using hs.kinds r.other
      · simp [consumed]
      · simpa using hs.taken r.other
  | dispatched r m h =>
      -- the relay hands on what the peer has sent, in order
      have hlt : s.seen r < (s.sent r.other).length := (List.getElem?_eq_some_iff.mp h).1
      refine ⟨fun q => ?_, fun q => ?_, fun q => ?_⟩ <;> dsimp only <;>
        rcases Role.eq_or_eq_other r q with rfl | rfl
      · rw [Function.update_self]
        cases hl : (s.pc q).listens m with
        | false => rw [hear_of_not_listens hl]; exact hs.kinds q
        | true =>
            obtain ⟨-, -, hp, hnf, -⟩ := hear_of_listens hl q
            obtain ⟨n, hn, hk, hpn⟩ := hs.kinds q
            exact ⟨n, hn, hk, fun _ => by rw [hp, hpn hnf]⟩
      · simpa using hs.kinds r.other
      · rw [Function.update_self]
        exact hlt
      · simpa using hs.handed r.other
      · rw [Function.update_self, Function.update_self]
        have := hs.taken q
        cases hl : (s.pc q).listens m with
        | false => rw [hear_of_not_listens hl]; omega
        | true => rw [(hear_of_listens hl q).2.1]; omega
      · simpa using hs.taken r.other

/-- A side that listens has taken exactly what it was handed, if the message
it is handed is one it listens for. -/
theorem Ordered.consumed_eq {s : State lib} (hs : Ordered s) {r : Role} {m : PakeMessage}
    (h : (s.sent r.other)[s.seen r]? = some m) (hl : (s.pc r).listens m = true) :
    consumed (s.pc r) = s.seen r := by
  rw [(hear_of_listens hl r).1, hs.kind h]

/-! ## Heard runs -/

/-- The invariant of heard runs: a side has taken all it was handed, until it fails. -/
def UpToDate (s : State lib) : Prop :=
  ∀ r, (s.pc r).failed = false → consumed (s.pc r) = s.seen r

theorem Steps.upToDate {s t : State a.lib} {e : Event} (h : Steps a s e t) (hs : Ordered s)
    (hu : UpToDate s) (hh : Heard s e) : UpToDate t := by
  intro q hq
  cases h with
  | resumed r pc out h =>
      dsimp only at hq ⊢
      rcases Role.eq_or_eq_other r q with rfl | rfl
      · rw [Function.update_self] at hq ⊢
        rw [h.consumed.1 hq, hu q h.out.2.2.2]
      · rw [Function.update_of_ne (Role.other_ne r)] at hq ⊢
        exact hu _ hq
  | failed r err e res h he =>
      dsimp only at hq ⊢
      rcases Role.eq_or_eq_other r q with rfl | rfl
      · simp [Pc.failed] at hq
      · rw [Function.update_of_ne (Role.other_ne r)] at hq ⊢
        exact hu _ hq
  | dispatched r m h =>
      dsimp only at hq ⊢
      rcases Role.eq_or_eq_other r q with rfl | rfl
      · have hl := hh.listens h
        rw [Function.update_self, Function.update_self, (hear_of_listens hl q).2.1,
          hs.consumed_eq h hl]
      · rw [Function.update_of_ne (Role.other_ne r)] at hq ⊢
        rw [Function.update_of_ne (Role.other_ne r)]
        exact hu _ hq

theorem Ordered.noneLost {s : State lib} (hs : Ordered s) (hu : UpToDate s) : NoneLost s := by
  intro r m hm
  by_contra hl
  rw [Bool.not_eq_false] at hl
  obtain ⟨hc, -, -, hnf, -⟩ := hear_of_listens hl r
  obtain ⟨i, hi, hget⟩ := List.mem_take_iff_getElem.mp hm
  have hkind := hs.kind (List.getElem?_eq_some_iff.mpr ⟨_, hget⟩)
  have := hu r hnf
  omega

/-! ## Lost messages stay lost -/

/-- Side `r` was handed a message it did not take. -/
def Missed (r : Role) (s : State lib) : Prop := consumed (s.pc r) < s.seen r

theorem Steps.missed {s t : State a.lib} {e : Event} (h : Steps a s e t) (hs : Ordered s)
    {r : Role} (hm : Missed r s) : Missed r t := by
  unfold Missed at hm ⊢
  cases h with
  | resumed q pc out h =>
      dsimp only
      rcases Role.eq_or_eq_other q r with rfl | rfl
      · rw [Function.update_self]
        exact Nat.lt_of_le_of_lt h.consumed.2 hm
      · rwa [Function.update_of_ne (Role.other_ne q)]
  | failed q err e res h he =>
      dsimp only
      rcases Role.eq_or_eq_other q r with rfl | rfl
      · rw [Function.update_self]
        exact Nat.lt_of_le_of_lt (Nat.zero_le _) hm
      · rwa [Function.update_of_ne (Role.other_ne q)]
  | dispatched q m h =>
      dsimp only
      rcases Role.eq_or_eq_other q r with rfl | rfl
      · rw [Function.update_self, Function.update_self]
        cases hl : (s.pc r).listens m with
        | false => rw [hear_of_not_listens hl]; omega
        | true => exact absurd (hs.consumed_eq h hl) (Nat.ne_of_lt hm)
      · rwa [Function.update_of_ne (Role.other_ne q), Function.update_of_ne (Role.other_ne q)]

/-- A side that has returned a key has missed nothing. -/
theorem Ordered.not_missed {s : State lib} (hs : Ordered s) {r : Role} {k : Bytes}
    (h : s.pc r = .settled (.ok k)) : ¬ Missed r s := by
  have := hs.handed r
  have := hs.length_le r.other
  simp only [Missed, h, consumed]
  omega

/-- Where both sides have returned, every dispatch was heard. -/
theorem heard_of_returned {s t : State a.lib} {es : List Event} (hs : Ordered s)
    (hr : Transition.run (step a) s es = some t)
    (hret : ∀ r, ∃ k, t.pc r = .settled (.ok k)) :
    Transition.Guarded (step a) Heard s es := by
  induction es generalizing s with
  | nil => trivial
  | cons e es ih =>
      obtain ⟨u, hu, hr⟩ := Transition.run_cons_inv hr
      have hst := step_spec hu
      refine ⟨?_, by rw [hu]; exact ih (hst.ordered hs) hr⟩
      cases hst with
      | resumed | failed => trivial
      | dispatched r m h =>
          by_contra hl
          replace hl : (s.pc r).listens m = false := by simpa [Heard, h] using hl
          -- the message is lost here, and `r` returns nevertheless
          have hlost : Missed r { s with
              pc := Function.update s.pc r (hear (s.pc r) m)
              seen := Function.update s.seen r (s.seen r + 1) } := by
            simp only [Missed, Function.update_self, hear_of_not_listens hl]
            exact Nat.lt_succ_of_le (hs.taken r)
          have hlast := Transition.invariant (I := fun s => Ordered s ∧ Missed r s)
            (fun s e t h hst => ⟨(step_spec hst).ordered h.1, (step_spec hst).missed h.1 h.2⟩)
            ⟨(Steps.dispatched r m h).ordered hs, hlost⟩ hr
          obtain ⟨k, hk⟩ := hret r
          exact hlast.1.not_missed hk hlast.2

/-! ## Runs end -/

/-- The operations a side has yet to await. -/
def operationsLeft : Pc lib → Nat
  | .initializing => 6
  | .awaitingMsg _ | .updating _ _ => 5
  | .derivingKey _ => 4
  | .tagging _ => 3
  | .awaitingConfirm _ | .verifying _ _ => 2
  | .freeing _ _ => 1
  | .settled _ => 0

/-- How many operations and dispatches the two sides have before them; each event
of an undisturbed run takes one away. -/
def eventsLeft (s : State lib) : Nat :=
  (operationsLeft (s.pc .host) + (2 - s.seen .host))
    + (operationsLeft (s.pc .guest) + (2 - s.seen .guest))

@[simp] theorem operationsLeft_settled (o : Except String Bytes) :
    operationsLeft (.settled o : Pc lib) = 0 := rfl

theorem operationsLeft_hear (pc : Pc lib) (m : PakeMessage) :
    operationsLeft (hear pc m) = operationsLeft pc := by
  cases pc <;> cases m <;> rfl

theorem Resumed.operationsLeft_lt {r : Role} {pc pc' : Pc a.lib} {out : List PakeMessage}
    (h : Resumed a r pc pc' out) : operationsLeft pc' < operationsLeft pc := by
  cases h <;> simp [operationsLeft]

theorem operationsLeft_pos {r : Role} {pc : Pc a.lib} {res} (h : resume a r pc = some res) :
    0 < operationsLeft pc := by
  cases pc with
  | settled => cases h
  | _ => simp [operationsLeft]

theorem eventsLeft_step (s : State a.lib) (e : Event) (t : State a.lib) (hs : Ordered s)
    (_ : True) (hstep : step a s e = some t) :
    Ordered t ∧ eventsLeft t + (if true then 1 else 0) ≤ eventsLeft s := by
  have hst := step_spec hstep
  refine ⟨hst.ordered hs, ?_⟩
  have hseen (r : Role) : s.seen r ≤ 2 := Nat.le_trans (hs.handed r) (hs.length_le _)
  cases hst with
  | resumed r pc out h =>
      have := h.operationsLeft_lt
      cases r <;> simp [eventsLeft] <;> omega
  | failed r err e res h he =>
      have := operationsLeft_pos h
      cases r <;> simp [eventsLeft] <;> omega
  | dispatched r m h =>
      have hlt : s.seen r < (s.sent r.other).length := (List.getElem?_eq_some_iff.mp h).1
      have := hs.length_le r.other
      cases r <;> simp [eventsLeft, operationsLeft_hear] <;> omega

/-- No run has more than 16 steps. -/
theorem run_length_le {t : State a.lib} {es : List Event}
    (hr : Transition.run (step a) (init a.lib) es = some t) : es.length ≤ 16 := by
  have hg : Transition.Guarded (step a) (fun _ _ => True) (init a.lib) es :=
    .of_forall (fun _ _ => trivial) _ _
  obtain ⟨-, hμ⟩ := hg.measure (p := fun _ => true) (eventsLeft_step (a := a)) Ordered.init hr
  simp only [List.countP_true] at hμ
  have h16 : eventsLeft (init a.lib) = 16 := rfl
  omega

/-! ## Honest exchanges -/

section
variable {opening closing : Role → a.lib.Pake} {key : Bytes}

/-- The bytes side `r` sends in an honest exchange. -/
def honestBytes (lib : PakePackage) (opening closing : Role → lib.Pake) : Role → Bytes
  | .host => lib.bytes (opening .host)
  | .guest => lib.bytes (closing .guest)

/-- What a side sends in an undisturbed exchange, in order: its public element and
the tag of the key. -/
def script (a : PakeArgs) (opening closing : Role → a.lib.Pake) (key : Bytes) (r : Role) :
    List PakeMessage :=
  [.pakeMsg (honestBytes a.lib opening closing r), .pakeConfirm (toHex (computeConfirmTag a key))]

/-- The local variables of side `r` are those of the honest exchange. -/
def OnTrack (a : PakeArgs) (opening closing : Role → a.lib.Pake) (key : Bytes) (r : Role) :
    Pc a.lib → Prop
  | .initializing => True
  | .awaitingMsg p => p = opening r
  | .updating p message => p = opening r ∧ message = honestBytes a.lib opening closing r.other
  | .derivingKey p => p = closing r
  | .tagging keyBytes | .awaitingConfirm keyBytes => keyBytes = key
  | .verifying keyBytes peerTag => keyBytes = key ∧ peerTag = computeConfirmTag a key
  | .freeing keyBytes ok => keyBytes = key ∧ ok = true
  | .settled outcome => outcome = .ok key

/-- The invariant of heard runs between honest ends with one code. -/
structure Tracked (a : PakeArgs) (opening closing : Role → a.lib.Pake) (key : Bytes)
    (s : State a.lib) : Prop where
  onTrack (r : Role) : OnTrack a opening closing key r (s.pc r)
  sent (r : Role) : s.sent r = (script a opening closing key r).take (posted r (s.pc r))
  seen (r : Role) : s.seen r = consumed (s.pc r)

theorem bytesEqual_self (b : Bytes) : bytesEqual b b = true := by
  have hfold : (List.zip b b).foldl (fun diff xy => diff ||| (xy.1 ^^^ xy.2)) (0 : UInt8) = 0 := by
    induction b with
    | nil => rfl
    | cons x b ih => simpa [List.zip_cons_cons] using ih
  simp [bytesEqual, hfold]

theorem jsInit_honest (hagr : a.lib.Agreement (a.code .host) a.seed opening closing key)
    (hcode : a.code .host = a.code .guest) (r : Role) :
    jsInit a.lib (a.code r) r.pakeRole (a.seed r)
      = .ok (opening r, if r.pakeRole = 0 then a.lib.bytes (opening r) else []) := by
  have h := hagr.initCurve r
  have hr : a.code r = a.code .host := by cases r <;> [rfl; exact hcode.symm]
  rw [jsInit, hr, h]
  rfl

theorem jsUpdate_honest (hagr : a.lib.Agreement (a.code .host) a.seed opening closing key)
    (r : Role) :
    jsUpdate a.lib (opening r) (honestBytes a.lib opening closing r.other)
      = .ok (closing r, if r.pakeRole = 1 then a.lib.bytes (closing r) else []) := by
  have h : a.lib.update (opening r) (honestBytes a.lib opening closing r.other)
      = .ok (closing r) := by cases r <;> [exact hagr.update_host; exact hagr.update_guest]
  rw [jsUpdate, h, ← hagr.role r]
  rfl

theorem jsSessionKey_honest (hagr : a.lib.Agreement (a.code .host) a.seed opening closing key)
    (r : Role) : jsSessionKey a.lib (closing r) = .ok key := by
  rw [jsSessionKey, hagr.sessionKey r]
  exact congrArg Except.ok (fromHex_toHex key)

/-- On track, the awaited operation succeeds, and leads on along the script. -/
theorem resume_onTrack (hagr : a.lib.Agreement (a.code .host) a.seed opening closing key)
    (hcode : a.code .host = a.code .guest) {r : Role} {pc : Pc a.lib}
    (h : OnTrack a opening closing key r pc) {res : _} (hres : resume a r pc = some res) :
    ∃ pc' out, res = .ok (pc', out) ∧ OnTrack a opening closing key r pc' ∧
      consumed pc' = consumed pc ∧
      (script a opening closing key r).take (posted r pc) ++ out
        = (script a opening closing key r).take (posted r pc') := by
  cases pc with
  | initializing =>
      rw [resume, jsInit_honest hagr hcode r] at hres
      refine ⟨_, _, (Option.some.inj hres).symm, rfl, rfl, ?_⟩
      cases r <;> rfl
  | updating p message =>
      obtain ⟨rfl, rfl⟩ := h
      rw [resume, jsUpdate_honest hagr r] at hres
      refine ⟨_, _, (Option.some.inj hres).symm, rfl, rfl, ?_⟩
      cases r <;> rfl
  | derivingKey p =>
      obtain rfl := h
      rw [resume, jsSessionKey_honest hagr r] at hres
      exact ⟨_, _, (Option.some.inj hres).symm, rfl, rfl, rfl⟩
  | tagging keyBytes =>
      obtain rfl := h
      exact ⟨_, _, (Option.some.inj hres).symm, rfl, rfl, rfl⟩
  | verifying keyBytes peerTag =>
      obtain ⟨rfl, rfl⟩ := h
      exact ⟨_, _, (Option.some.inj hres).symm, ⟨rfl, bytesEqual_self _⟩, rfl, rfl⟩
  | freeing keyBytes ok =>
      obtain ⟨rfl, rfl⟩ := h
      exact ⟨_, _, (Option.some.inj hres).symm, rfl, rfl, rfl⟩
  | awaitingMsg | awaitingConfirm | settled => cases hres

/-- On track, a message heard is the next one of the other side's script. -/
theorem hear_onTrack {r : Role} {pc : Pc a.lib} {m : PakeMessage}
    (h : OnTrack a opening closing key r pc) (hl : pc.listens m = true)
    (hm : m ∈ script a opening closing key r.other) : OnTrack a opening closing key r (hear pc m) := by
  rcases List.mem_pair.mp hm with rfl | rfl
  · cases pc <;> simp [Pc.listens] at hl
    exact ⟨h, rfl⟩
  · cases pc <;> simp [Pc.listens] at hl
    exact ⟨h, fromHex_toHex _⟩

theorem tracked_step (hagr : a.lib.Agreement (a.code .host) a.seed opening closing key)
    (hcode : a.code .host = a.code .guest) (s : State a.lib) (e : Event) (t : State a.lib)
    (hs : Ordered s ∧ Tracked a opening closing key s) (hg : Heard s e ∧ Succeeds s e)
    (hstep : step a s e = some t) : Ordered t ∧ Tracked a opening closing key t := by
  have hst := step_spec hstep
  refine ⟨hst.ordered hs.1, ?_⟩
  obtain ⟨hord, htr⟩ := hs
  cases e with
  | settle r err =>
      obtain rfl : err = none := hg.2
      rw [step] at hstep
      split at hstep
      next => cases hstep
      next res hres =>
        obtain ⟨pc, out, rfl, hon, hcons, hpost⟩ := resume_onTrack hagr hcode (htr.onTrack r) hres
        obtain rfl := Option.some.inj hstep
        refine ⟨fun q => ?_, fun q => ?_, fun q => ?_⟩ <;> dsimp only <;>
          rcases Role.eq_or_eq_other r q with rfl | rfl
        · rwa [Function.update_self]
        · simpa using htr.onTrack r.other
        · rw [Function.update_self, Function.update_self, htr.sent q, hpost]
        · simpa using htr.sent r.other
        · rw [Function.update_self, hcons, htr.seen q]
        · simpa using htr.seen r.other
  | dispatch r =>
      cases hst with
      | dispatched _ m h =>
        have hl := hg.1.listens h
        obtain ⟨-, hcons, hpost, -, -⟩ := hear_of_listens hl r
        have hm : m ∈ script a opening closing key r.other := by
          rw [htr.sent r.other] at h
          exact List.mem_of_mem_take (List.mem_of_getElem? h)
        refine ⟨fun q => ?_, fun q => ?_, fun q => ?_⟩ <;> dsimp only <;>
          rcases Role.eq_or_eq_other r q with rfl | rfl
        · rw [Function.update_self]
          exact hear_onTrack (htr.onTrack q) hl hm
        · simpa using htr.onTrack r.other
        · rw [Function.update_self, hpost, htr.sent q]
        · simpa using htr.sent r.other
        · rw [Function.update_self, Function.update_self, hcons, htr.seen q]
        · simpa using htr.seen r.other

/-- What a side that awaits no operation has taken and sent. -/
theorem counts_of_idle {r : Role} {pc : Pc a.lib} (hidle : resume a r pc = none)
    (h : OnTrack a opening closing key r pc) :
    consumed pc = 0 ∧ posted r pc = 1 - r.pakeRole ∨ consumed pc = 1 ∧ posted r pc = 2 ∨
      pc = .settled (.ok key) ∧ consumed pc = 2 ∧ posted r pc = 2 := by
  cases pc with
  | awaitingMsg p => cases r <;> exact .inl ⟨rfl, rfl⟩
  | awaitingConfirm keyBytes => exact .inr (.inl ⟨rfl, rfl⟩)
  | settled o =>
      obtain rfl : o = .ok key := h
      exact .inr (.inr ⟨rfl, rfl, rfl⟩)
  | initializing | updating | derivingKey | tagging | verifying | freeing => cases hidle

/-- A heard exchange that cannot go on is over on both sides. -/
theorem Tracked.returned {s : State a.lib} (hs : Tracked a opening closing key s)
    (hstuck : Transition.Stuck (step a) s) (r : Role) : s.pc r = .settled (.ok key) := by
  have idle (r : Role) : resume a r (s.pc r) = none := by
    have h := hstuck (.settle r none)
    rw [step] at h
    split at h
    next hres => exact hres
    next res hres => split at h <;> cases h
  have handed (r : Role) : posted r.other (s.pc r.other) ≤ consumed (s.pc r) := by
    have h := hstuck (.dispatch r)
    rw [step, hs.sent, hs.seen] at h
    split at h
    next hnone =>
      have hlen := List.getElem?_eq_none_iff.mp hnone
      have htwo : posted r.other (s.pc r.other) ≤ 2 := by
        cases s.pc r.other <;> cases r <;> simp [posted, Role.other, Role.pakeRole]
      rw [List.length_take] at hlen
      change min _ 2 ≤ _ at hlen
      omega
    next => cases h
  have hhost := counts_of_idle (idle .host) (hs.onTrack .host)
  have hguest := counts_of_idle (idle .guest) (hs.onTrack .guest)
  have h1 : posted .guest (s.pc .guest) ≤ consumed (s.pc .host) := handed .host
  have h2 : posted .host (s.pc .host) ≤ consumed (s.pc .guest) := handed .guest
  simp only [Role.pakeRole] at hhost hguest
  cases r with
  | host =>
      rcases hhost with hhost | hhost | ⟨h, -⟩
      · omega
      · omega
      · exact h
  | guest =>
      rcases hguest with hguest | hguest | ⟨h, -⟩
      · omega
      · omega
      · exact h

end

/-- No run of the exchange has more than 16 steps. When every dispatch of it
finds its listener, nobody waits for a message that was dispatched already;
and a run without failures that cannot go on, between ends that entered one
code, has both return one key if and only if every dispatch found its listener. -/
theorem returned_iff_heard (a : PakeArgs) (es : List Event) (s : State a.lib)
    (hr : Transition.run (step a) (init a.lib) es = some s) :
    es.length ≤ 16 ∧
      (Transition.Guarded (step a) Heard (init a.lib) es → NoneLost s) ∧
      (a.lib.Agrees → a.code .host = a.code .guest →
        Transition.Guarded (step a) Succeeds (init a.lib) es → Transition.Stuck (step a) s →
        ((∃ key, ∀ r, s.pc r = .settled (.ok key)) ↔
          Transition.Guarded (step a) Heard (init a.lib) es)) := by
  refine ⟨run_length_le hr, fun hg => ?_, fun hagr hcode hsucc hstuck => ⟨?_, fun hg => ?_⟩⟩
  · have hinv := hg.invariant (I := fun s => Ordered s ∧ UpToDate s)
      (fun s e t h hh hst => ⟨(step_spec hst).ordered h.1, (step_spec hst).upToDate h.1 h.2 hh⟩)
      ⟨.init, fun _ _ => rfl⟩ hr
    exact hinv.1.noneLost hinv.2
  · rintro ⟨key, hkey⟩
    exact heard_of_returned .init hr fun r => ⟨key, hkey r⟩
  · obtain ⟨opening, closing, key, hagr⟩ := hagr (a.code .host) a.seed
    have hinv := (hg.and hsucc).invariant (tracked_step hagr hcode)
      ⟨.init, fun _ => trivial, fun _ => rfl, fun _ => rfl⟩ hr
    exact ⟨key, hinv.2.returned hstuck⟩

/-! ## One code, one byte of randomness each -/

/-- The arguments of an exchange to evaluate with: the labelling package, and an
HMAC that joins key and text. -/
def labelArgs : PakeArgs where
  lib := labelPake
  hmac key message := key ++ message
  code _ := [4, 2]
  seed
    | .host => [1]
    | .guest => [2]

/-- The host's message reaches the guest while its engine still loads; the
guest then waits for it, and for good. -/
theorem pakeMsg_lost : ∃ s,
    Transition.run (step labelArgs) (init labelPake)
      [.settle .host none, .dispatch .guest, .settle .guest none] = some s ∧
    ¬ NoneLost s ∧ Transition.Stuck (step labelArgs) s := by
  refine ⟨_, rfl, by decide, fun e => ?_⟩
  cases e with
  | settle r err => cases r <;> rfl
  | dispatch r => cases r <;> rfl

/-- An exchange in which both listen in time. -/
def heardEvents : List Event :=
  [.settle .host none, .settle .guest none, .dispatch .guest, .settle .guest none, .dispatch .host,
    .settle .host none, .settle .guest none, .settle .host none, .settle .guest none,
    .settle .host none, .dispatch .host, .dispatch .guest, .settle .host none, .settle .guest none,
    .settle .host none, .settle .guest none]

theorem returned_iff_heard_label : ∃ s,
    Transition.run (step labelArgs) (init labelPake) heardEvents = some s ∧ NoneLost s ∧
      ∃ key, ∀ r, s.pc r = .settled (.ok key) := by
  have hr : Transition.run (step labelArgs) (init labelPake) heardEvents = some _ := rfl
  obtain ⟨-, hnone, hret⟩ := returned_iff_heard labelArgs heardEvents _ hr
  have hg : Transition.Guarded (step labelArgs) Heard (init labelArgs.lib) heardEvents := by
    decide
  refine ⟨_, hr, hnone hg, (hret labelPake_agrees rfl (by decide) fun e => ?_).mpr hg⟩
  cases e with
  | settle r err => cases r <;> rfl
  | dispatch r => cases r <;> rfl

end Quicksend.Pake
