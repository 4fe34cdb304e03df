import Quicksend.Server.Goroutines.Tables

/-!
# Pairing codes

A code is issued with a session, and is taken out of the table by the first
guess that finds it, by one that finds it expired, or by the sweep. The end of
its session leaves it where it is.
-/

namespace Quicksend.Server

/-- A code is issued for the session at `ref`, or a call finds it and it has not
expired. -/
inductive CodeEvent where
  | issued (code : String) (ref : Nat) (expiresAt : Time)
  | matched (code : String) (conn : ConnId) (now : Time)
  deriving DecidableEq

/-- The pairing code that the entry is about, whether it was given out or
redeemed. -/
def CodeEvent.code : CodeEvent → String
  | .issued code _ _ => code
  | .matched code _ _ => code

/-- The relay with what happened to its codes, the last event first. -/
structure Coded where
  relay : Goroutines
  log : List CodeEvent

namespace Coded

/-- A relay that has just started; no code was given out, and none was redeemed. -/
def init (cfg : Config) : Coded := { relay := Goroutines.init cfg, log := [] }

/-- The guess of a step when it finds its code. -/
def matched (x : Goroutines) : Step → Option CodeEvent
  | .begin c (.joinByCode (some code)) now _ => (x.threads[c]?).bind fun t =>
      match (x.hub.resolveCode code t.ip now).2 with
      | .error .tooManyAttempts | .error .invalidCode => none
      | _ => some (.matched code c now)
  | _ => none

/-- What the step does to a code, as read off its outcome: it gives one out, it
redeems one, or neither. -/
def event (x : Goroutines) (e : Step) : Option CodeEvent :=
  ((x.issued e).map fun i => .issued i.1 i.2.1 i.2.2).or (matched x e)

/-- A step of the relay, with what it did to a code put in front of the log. -/
def step (x : Coded) (e : Step) : Option Coded :=
  (x.relay.step e).map fun y => { relay := y, log := (event x.relay e).toList ++ x.log }

/-- The ids of new sessions are new: `newSessionID` draws 128 random bits. -/
def FreshIds (x : Coded) : Step → Prop
  | .begin _ _ _ draws => ∀ id ∈ draws.id.toOption, ∀ s ∈ x.relay.hub.heap, s.ID ≠ id
  | _ => True

instance (x : Coded) : (e : Step) → Decidable (x.FreshIds e)
  | .begin _ _ _ draws => inferInstanceAs (Decidable (∀ id ∈ draws.id.toOption, _))
  | .accept .. | .attach .. | .act .. | .frame .. | .drop .. | .readError .. | .reap .. | .look
  | .snap | .reapAct => .isTrue trivial

/-- A session is taken out of the map only when no code of the table is for it. -/
def SparesCodes (x : Coded) (e : Step) : Prop :=
  ∀ id ∈ x.relay.removes e, ∀ ev ∈ x.log, ∀ entry ∈ x.relay.hub.codes ev.code,
    entry.sessionID ≠ id

instance (x : Coded) (e : Step) : Decidable (x.SparesCodes e) :=
  inferInstanceAs (Decidable (∀ id ∈ x.relay.removes e, _))

end Coded

/-- The session that a handler has found, joins, has or had. -/
def Pc.session : Pc → Option Nat
  | .joining ref | .attaching ref _ => some ref
  | .resuming slot _ | .serving slot | .ended slot | .left slot => some slot.ref
  | .fresh | .refused => none

/-- The handler has begun, and is for no other session than this. -/
def Thread.boundTo (t : Thread) (ref : Nat) : Prop := t.pc ≠ .fresh ∧ ∀ r ∈ t.pc.session, r = ref

/-! ## A handler keeps to its session -/

namespace Goroutines

variable {x y : Goroutines} {c d : ConnId} {t : Thread} {ref : Nat} {e : Step}

theorem bound_modify {f : Thread → Thread} (ht : x.threads[d]? = some t) (hb : t.boundTo ref)
    (hf : x.threads[c]? = some t → (f t).boundTo ref) :
    ∃ t', (x.modify c f).threads[d]? = some t' ∧ t'.boundTo ref := by
  by_cases hd : c = d
  · subst hd
    exact ⟨f t, Tally.getElem?_modify_self ht f, hf ht⟩
  · exact ⟨t, (Tally.getElem?_modify_ne hd f).trans ht, hb⟩

theorem bound_attach {h h' : Hub} {first : First} {ip : String} {now : Time} {pc pc' : Pc}
    {todo : List Action} (ha : Attach h first ip c now pc h' pc' todo)
    (hsession : ∀ r ∈ pc.session, r = ref) : pc' ≠ .fresh ∧ ∀ r ∈ pc'.session, r = ref := by
  cases ha with
  | found | joined | resumed => exact ⟨by simp, hsession⟩
  | refused => exact ⟨by simp, fun r hr => by cases hr⟩

theorem bound_step (hstep : step x e = some y) (ht : x.threads[d]? = some t) (hb : t.boundTo ref) :
    ∃ t', y.threads[d]? = some t' ∧ t'.boundTo ref := by
  cases step_spec hstep with
  | accepted ip => exact ⟨t, Tally.getElem?_concat_of_some ht _, hb⟩
  | begun c first now draws t' hub pc todo ht' hfresh =>
      refine bound_modify (x := x.setHub hub) ht hb fun htc => ?_
      obtain rfl := Option.some.inj (ht'.symm.trans htc)
      exact absurd hfresh hb.1
  | attached c now t' first hub pc todo ht' hfirst ha =>
      refine bound_modify (x := x.setHub hub) ht hb fun htc => ?_
      obtain rfl := Option.some.inj (ht'.symm.trans htc)
      exact bound_attach ha hb.2
  | acted c t' a todo ht' htodo =>
      obtain ⟨t'', ht'', hcore⟩ := perform_get (a := a) ht
      have hb' : t''.boundTo ref := by
        rw [Thread.boundTo, hcore.pc]
        exact hb
      exact bound_modify ht'' hb' fun _ => hb'
  | received c msg now t' slot s ht' hpc htodo hs =>
      refine bound_modify (x := x.setHub _) ht hb fun htc => ?_
      obtain rfl := Option.some.inj (ht'.symm.trans htc)
      have hsession : ∀ r ∈ (Pc.serving slot).session, r = ref := hpc ▸ hb.2
      cases msg <;> exact ⟨by simp [Thread.goto, receive], hsession⟩
  | dropped c => exact bound_modify ht hb fun _ => hb
  | left c now t' slot s ht' hpc htodo hs =>
      refine bound_modify (x := x.setHub _) ht hb fun htc => ?_
      obtain rfl := Option.some.inj (ht'.symm.trans htc)
      exact ⟨by simp [Thread.goto], fun r hr => hb.2 r (hpc ▸ hr)⟩
  | swept | looked | snapped => exact ⟨t, ht, hb⟩
  | reaperActed a todo htodo =>
      obtain ⟨t'', ht'', hcore⟩ := perform_get (a := a) ht
      refine ⟨t'', ht'', ?_⟩
      rw [Thread.boundTo, hcore.pc]
      exact hb

/-- Who begins with a code goes to the session that the code led to. -/
theorem guessed_thread {code : String} {now : Time} {draws : Draws}
    (hstep : step x (.begin c (.joinByCode (some code)) now draws) = some y) :
    ∃ t t', x.threads[c]? = some t ∧ y.threads[c]? = some t' ∧ t'.pc ≠ .fresh ∧
      ∀ r ∈ t'.pc.session, (x.hub.resolveCode code t.ip now).2 = .ok r := by
  cases step_spec hstep with
  | begun _ _ _ _ t hub pc todo ht hfresh he henter =>
      refine ⟨t, _, ht, Tally.getElem?_modify_self ht _, ?_⟩
      have hfound : enter.found (.joinByCode (some code)) c (x.hub.resolveCode code t.ip now).2
          .joining = (pc, todo) := congrArg Prod.snd henter
      cases hresolve : (x.hub.resolveCode code t.ip now).2 with
      | ok ref =>
          rw [hresolve] at hfound
          cases hfound
          exact ⟨by simp [Thread.goto], fun r hr => congrArg _ (Option.some.inj hr)⟩
      | error err =>
          rw [hresolve] at hfound
          cases hfound
          exact ⟨by simp [Thread.goto], fun r hr => by cases hr⟩

end Goroutines

namespace Coded

variable {x y : Coded} {e : Step}

/-- The code was issued for this session, and nothing has happened to it since. -/
def IssuedLast (log : List CodeEvent) (code : String) (ref : Nat) (expiresAt : Time) : Prop :=
  ∃ post pre, log = post ++ .issued code ref expiresAt :: pre ∧ ∀ ev ∈ post, ev.code ≠ code

/-- Codes are unique, for one use and for a time. -/
structure OneTime (x : Coded) : Prop where
  /-- A code of the table is for the session it was last issued for, and for no
  other. -/
  designates : ∀ code entry, x.relay.hub.codes code = some entry →
    ∃ ref, IssuedLast x.log code ref entry.expiresAt ∧
      ∀ ref', x.relay.hub.idAt ref' = some entry.sessionID ↔ ref' = ref
  /-- No session has two codes. -/
  unique : ∀ code code' entry entry', x.relay.hub.codes code = some entry →
    x.relay.hub.codes code' = some entry' → entry.sessionID = entry'.sessionID → code = code'
  /-- Who finds a code is the first to find it since it was issued, read the clock
  before it expired, and goes nowhere but to its session. -/
  matched : ∀ post pre code c now, x.log = post ++ .matched code c now :: pre →
    ∃ ref expiresAt, IssuedLast pre code ref expiresAt ∧ now ≤ expiresAt ∧
      ∃ t, x.relay.threads[c]? = some t ∧ t.boundTo ref

/-- What the steps preserve: the hub's table of codes agrees with the log of what
was given out and redeemed. -/
structure Ledgered (x : Coded) : Prop where
  named : Goroutines.Named x.relay.hub
  table : ∀ code entry, x.relay.hub.codes code = some entry → ∃ ref,
    IssuedLast x.log code ref entry.expiresAt ∧ x.relay.hub.idAt ref = some entry.sessionID
  unique : ∀ code code' entry entry', x.relay.hub.codes code = some entry →
    x.relay.hub.codes code' = some entry' → entry.sessionID = entry'.sessionID → code = code'
  matched : ∀ post pre code c now, x.log = post ++ .matched code c now :: pre →
    ∃ ref expiresAt, IssuedLast pre code ref expiresAt ∧ now ≤ expiresAt ∧
      ∃ t, x.relay.threads[c]? = some t ∧ t.boundTo ref

theorem Ledgered.oneTime (hx : x.Ledgered) : x.OneTime where
  designates code entry hentry := by
    obtain ⟨ref, hissued, hid⟩ := hx.table code entry hentry
    refine ⟨ref, hissued, fun ref' => ⟨fun hid' => hx.named.inj ref' ref _ hid' hid, ?_⟩⟩
    rintro rfl
    exact hid
  unique := hx.unique
  matched := hx.matched

/-- Something that happens to another code. -/
theorem IssuedLast.cons {log : List CodeEvent} {code : String} {ref : Nat} {expiresAt : Time}
    (h : IssuedLast log code ref expiresAt) (ev : CodeEvent) (hev : ev.code ≠ code) :
    IssuedLast (ev :: log) code ref expiresAt := by
  obtain ⟨post, pre, hlog, hpost⟩ := h
  refine ⟨ev :: post, pre, by rw [hlog]; rfl, fun ev' hev' => ?_⟩
  rcases List.mem_cons.mp hev' with rfl | hev'
  · exact hev
  · exact hpost ev' hev'

theorem issuedLast_cons_self (log : List CodeEvent) (code : String) (ref : Nat) (expiresAt : Time) :
    IssuedLast (.issued code ref expiresAt :: log) code ref expiresAt := ⟨[], log, rfl, by simp⟩

/-- What was found stays found. -/
theorem Ledgered.matched_old (hx : x.Ledgered) {z : Goroutines} (hstep : x.relay.step e = some z)
    {post pre : List CodeEvent} {code : String} {c : ConnId} {now : Time}
    (hlog : x.log = post ++ .matched code c now :: pre) :
    ∃ ref expiresAt, IssuedLast pre code ref expiresAt ∧ now ≤ expiresAt ∧
      ∃ t, z.threads[c]? = some t ∧ t.boundTo ref := by
  obtain ⟨ref, expiresAt, hissued, hnow, t, ht, hb⟩ := hx.matched post pre code c now hlog
  exact ⟨ref, expiresAt, hissued, hnow, Goroutines.bound_step hstep ht hb⟩

/-- A step in which nothing happens to a code of the table that stays there. -/
theorem Ledgered.quiet (hx : x.Ledgered) {z : Goroutines} (hstep : x.relay.step e = some z)
    (hevent : event x.relay e = none) (hnamed : Goroutines.Named z.hub)
    (hids : ∀ ref id, x.relay.hub.idAt ref = some id → z.hub.idAt ref = some id)
    (hcodes : ∀ code entry, z.hub.codes code = some entry → x.relay.hub.codes code = some entry) :
    Ledgered ⟨z, (event x.relay e).toList ++ x.log⟩ := by
  rw [hevent]
  refine ⟨hnamed, fun code entry hentry => ?_, fun code code' entry entry' hentry hentry' => ?_,
    fun post pre code c now hlog => ?_⟩
  · obtain ⟨ref, hissued, hid⟩ := hx.table code entry (hcodes code entry hentry)
    exact ⟨ref, hissued, hids ref _ hid⟩
  · exact hx.unique code code' entry entry' (hcodes _ _ hentry) (hcodes _ _ hentry')
  · exact hx.matched_old hstep hlog

theorem event_eq_none (hissued : x.relay.issued e = none) (hguess : x.relay.guess e = none) :
    event x.relay e = none := by
  rw [event, hissued]
  unfold Coded.matched
  split
  next c code now draws =>
    have hnone : x.relay.threads[c]? = none := Option.map_eq_none_iff.mp hguess
    rw [hnone]
    rfl
  next => rfl

/-- A code is issued: the session is new, so no other code is for it. -/
theorem Ledgered.issued (hx : x.Ledgered) {z : Goroutines} {id code : String} {expiresAt : Time}
    (hstep : x.relay.step e = some z) (hadds : Adds x.relay.hub z.hub id)
    (hfresh : ∀ s ∈ x.relay.hub.heap, s.ID ≠ id)
    (hcodes : z.hub.codes = Function.update x.relay.hub.codes code (some ⟨id, expiresAt⟩))
    (hissued : x.relay.issued e = some (code, x.relay.hub.heap.length, expiresAt)) :
    Ledgered ⟨z, (event x.relay e).toList ++ x.log⟩ := by
  have hevent : event x.relay e = some (.issued code x.relay.hub.heap.length expiresAt) := by
    rw [event, hissued]
    rfl
  have hother : ∀ code' entry, x.relay.hub.codes code' = some entry → entry.sessionID ≠ id := by
    -- an entry for the new id would be for a session that was there before
    rintro code' entry hentry rfl
    obtain ⟨ref, -, hid⟩ := hx.table code' entry hentry
    obtain ⟨s, hs, heq⟩ := Option.map_eq_some_iff.mp hid
    exact hfresh s (List.mem_of_getElem? hs) heq
  rw [hevent]
  refine ⟨Goroutines.named_adds hx.named hadds hfresh, fun code' entry hentry => ?_,
    fun code₁ code₂ entry₁ entry₂ h₁ h₂ hsame => ?_, fun post pre code' c now hlog => ?_⟩
  · rw [hcodes] at hentry
    by_cases hcode : code' = code
    · subst hcode
      rw [Function.update_self] at hentry
      obtain rfl := Option.some.inj hentry
      refine ⟨_, issuedLast_cons_self _ _ _ _, ?_⟩
      obtain ⟨s, hid, hheap⟩ := hadds.heap
      rw [Goroutines.idAt_append hheap, Function.update_self, hid]
    · rw [Function.update_of_ne hcode] at hentry
      obtain ⟨ref, hlast, hid⟩ := hx.table code' entry hentry
      exact ⟨ref, hlast.cons (.issued code _ expiresAt) (Ne.symm hcode), Goroutines.idAt_adds hadds hid⟩
  · rw [hcodes] at h₁ h₂
    by_cases hcode₁ : code₁ = code
    · by_cases hcode₂ : code₂ = code
      · rw [hcode₁, hcode₂]
      · rw [hcode₁, Function.update_self] at h₁
        rw [Function.update_of_ne hcode₂] at h₂
        obtain rfl := Option.some.inj h₁
        exact absurd hsame.symm (hother code₂ entry₂ h₂)
    · rw [Function.update_of_ne hcode₁] at h₁
      by_cases hcode₂ : code₂ = code
      · rw [hcode₂, Function.update_self] at h₂
        obtain rfl := Option.some.inj h₂
        exact absurd hsame (hother code₁ entry₁ h₁)
      · rw [Function.update_of_ne hcode₂] at h₂
        exact hx.unique code₁ code₂ entry₁ entry₂ h₁ h₂ hsame
  · cases post with
    | nil => cases (List.cons.inj hlog).1
    | cons ev post => exact hx.matched_old hstep (List.cons.inj hlog).2

/-- A code that is found is in the table and has not expired; the session that
it leads to is the one it is for. -/
theorem lookUp_spec {h : Hub} {code ip : String} {now : Time}
    (hfound : h.lookUp code ip now ≠ .error .invalidCode) :
    ∃ entry, h.codes code = some entry ∧ now ≤ entry.expiresAt ∧
      ∀ r, h.lookUp code ip now = .ok r → h.sessions.lookup entry.sessionID = some r := by
  unfold Hub.lookUp at hfound ⊢
  cases hentry : h.codes code with
  | none =>
      rw [hentry] at hfound
      exact absurd rfl hfound
  | some entry =>
      rw [hentry] at hfound
      dsimp only at hfound ⊢
      by_cases hexpired : now > entry.expiresAt
      · rw [if_pos hexpired] at hfound
        exact absurd rfl hfound
      · refine ⟨entry, rfl, not_lt.mp hexpired, fun r hr => ?_⟩
        rw [if_neg hexpired] at hr
        split at hr
        next => cases hr
        next =>
          split at hr
          next => cases hr
          next ref hlookup =>
            obtain rfl : ref = r := by injection hr
            exact hlookup

/-- A guess puts no code into the table. -/
theorem codes_resolveCode {h : Hub} {code code' ip : String} {now : Time} {entry : CodeEntry}
    (hentry : (h.resolveCode code ip now).1.codes code' = some entry) :
    h.codes code' = some entry := by
  obtain ⟨guesses, hguesses⟩ := checkAndRecordGuess_fst h ip now
  rw [resolveCode_eq] at hentry
  split at hentry
  next =>
    change Function.update h.codes code none code' = _ at hentry
    by_cases hcode : code' = code
    · rw [hcode, Function.update_self] at hentry
      cases hentry
    · rwa [Function.update_of_ne hcode] at hentry
  next => rwa [hguesses] at hentry

/-- A guess that finds its code was let through. -/
theorem event_matched {h : Goroutines} {c : ConnId} {code : String} {now : Time} {draws : Draws}
    {t : Thread} (ht : h.threads[c]? = some t)
    (hsome : event h (.begin c (.joinByCode (some code)) now draws) ≠ none) :
    (h.hub.checkAndRecordGuess t.ip now).2 = true ∧
      h.hub.lookUp code t.ip now ≠ .error .invalidCode ∧
      event h (.begin c (.joinByCode (some code)) now draws) = some (.matched code c now) := by
  have hevent : event h (.begin c (.joinByCode (some code)) now draws) =
      match (h.hub.resolveCode code t.ip now).2 with
      | .error .tooManyAttempts | .error .invalidCode => none
      | _ => some (.matched code c now) := by
    rw [event, Coded.matched, ht]
    rfl
  have hresolve := resolveCode_eq h.hub code t.ip now
  by_cases hlet : (h.hub.checkAndRecordGuess t.ip now).2 = true
  · rw [if_pos hlet] at hresolve
    rw [hevent, hresolve] at hsome ⊢
    refine ⟨hlet, fun heq => hsome (by rw [heq]), ?_⟩
    split
    next heq => rw [heq] at hsome; exact absurd rfl hsome
    next heq => rw [heq] at hsome; exact absurd rfl hsome
    next => rfl
  · rw [if_neg hlet] at hresolve
    rw [hevent, hresolve] at hsome
    exact absurd rfl hsome

/-- A guess: a code that is found is gone. -/
theorem Ledgered.guessed (hx : x.Ledgered) {z : Goroutines} {c : ConnId} {code : String}
    {now : Time} {draws : Draws} {t : Thread} (ht : x.relay.threads[c]? = some t)
    (hstep : x.relay.step (.begin c (.joinByCode (some code)) now draws) = some z)
    (hhub : z.hub = (x.relay.hub.resolveCode code t.ip now).1) :
    Ledgered ⟨z, (event x.relay (.begin c (.joinByCode (some code)) now draws)).toList ++ x.log⟩ := by
  have hbooks := resolveCode_books x.relay.hub code t.ip now
  have hids : z.hub.idAt = x.relay.hub.idAt := Goroutines.idAt_of_heap (hhub ▸ hbooks.heap)
  have hnamed : Goroutines.Named z.hub := hx.named.same hids (hhub ▸ hbooks.sessions)
  have hcodes : ∀ code' entry, z.hub.codes code' = some entry →
      x.relay.hub.codes code' = some entry := fun code' entry hentry =>
    codes_resolveCode (hhub ▸ hentry)
  by_cases hmissed : event x.relay (.begin c (.joinByCode (some code)) now draws) = none
  · exact hx.quiet hstep hmissed hnamed (fun ref id hid => hids ▸ hid) hcodes
  · obtain ⟨hlet, hfound, hmatched⟩ := event_matched ht hmissed
    have hfst : z.hub.codes = Function.update x.relay.hub.codes code none := by
      rw [hhub, resolveCode_eq, if_pos hlet]
    have hsnd : (x.relay.hub.resolveCode code t.ip now).2 = x.relay.hub.lookUp code t.ip now := by
      rw [resolveCode_eq, if_pos hlet]
    obtain ⟨entry, hentry, hnow, hleads⟩ := lookUp_spec hfound
    rw [hmatched]
    refine ⟨hnamed, fun code' entry' hentry' => ?_, fun code₁ code₂ entry₁ entry₂ h₁ h₂ =>
      hx.unique code₁ code₂ entry₁ entry₂ (hcodes _ _ h₁) (hcodes _ _ h₂),
      fun post pre code' c' now' hlog => ?_⟩
    · obtain ⟨ref, hlast, hid⟩ := hx.table code' entry' (hcodes code' entry' hentry')
      refine ⟨ref, hlast.cons _ fun hcode => ?_, hids ▸ hid⟩
      change code = code' at hcode
      rw [← hcode, hfst, Function.update_self] at hentry'
      cases hentry'
    · cases post with
      | cons ev post => exact hx.matched_old hstep (List.cons.inj hlog).2
      | nil =>
          obtain ⟨hev, rfl⟩ := List.cons.inj hlog
          obtain ⟨rfl, rfl, rfl⟩ := CodeEvent.matched.inj hev
          obtain ⟨ref, hlast, hid⟩ := hx.table code entry hentry
          obtain ⟨t₀, t', ht₀, ht', hpc, hsession⟩ := Goroutines.guessed_thread hstep
          obtain rfl := Option.some.inj (ht.symm.trans ht₀)
          refine ⟨ref, entry.expiresAt, hlast, hnow, t', ht', hpc, fun r hr => ?_⟩
          have hr' := hx.named.lookup _ _ (hleads r (hsnd ▸ hsession r hr))
          exact hx.named.inj r ref _ hr' hid

theorem ledgered_step (hx : x.Ledgered) (hfresh : x.FreshIds e) (hstep : x.step e = some y) :
    y.Ledgered := by
  obtain ⟨z, hz, rfl⟩ := Option.map_eq_some_iff.mp hstep
  have hids : ∀ draws id, (∃ c first now, e = .begin c first now draws) → draws.id = .ok id →
      ∀ s ∈ x.relay.hub.heap, s.ID ≠ id := by
    rintro draws id ⟨c, first, now, rfl⟩ hdraw
    exact hfresh id (by rw [hdraw]; rfl)
  cases Goroutines.tabled_step hz with
  | same _ hsame hguess hreap hremoves hissued =>
      refine hx.quiet hz (event_eq_none hissued hguess) (hx.named.same hsame.ids hsame.sessions)
        (fun ref id hid => hsame.ids ▸ hid) fun code entry hentry => hsame.codes ▸ hentry
  | created c now draws id hdraw hadds hcodes =>
      exact hx.quiet hz rfl (Goroutines.named_adds hx.named hadds (hids draws id ⟨c, _, now, rfl⟩ hdraw))
        (fun ref id hid => Goroutines.idAt_adds hadds hid) fun code entry hentry => hcodes ▸ hentry
  | issued c now draws id code hdraw hadds hunused hcodes hissued =>
      exact hx.issued hz hadds (hids draws id ⟨c, _, now, rfl⟩ hdraw) hcodes hissued
  | guessed c code now draws t ht hhub => exact hx.guessed ht hz hhub
  | swept now ids hhub =>
      refine hx.quiet hz rfl (hx.named.same (hhub ▸ rfl) (hhub ▸ rfl))
        (fun ref id hid => by rw [hhub]; exact hid) fun code entry hentry => ?_
      rw [hhub] at hentry
      exact (Option.filter_eq_some_iff.mp hentry).1
  | removed _ id hremoves hguess hreap hissued hhub =>
      refine hx.quiet hz (event_eq_none hissued hguess)
        (hx.named.erase id (hhub ▸ rfl) (hhub ▸ rfl)) (fun ref id' hid => by rw [hhub]; exact hid)
        fun code entry hentry => ?_
      rw [hhub] at hentry
      exact hentry

theorem ledgered_init (cfg : Config) : (init cfg).Ledgered where
  named := (Goroutines.orderly_init cfg).named
  table code entry hentry := by cases hentry
  unique code code' entry entry' hentry := by cases hentry
  matched post pre code c now hlog := by simp [init] at hlog

/-- In every run, with any interleaving of the critical sections, codes are
unique, for one use and for a time. -/
theorem codes_oneTime (cfg : Config) (es : List Step) (x : Coded)
    (hfresh : Transition.Guarded step FreshIds (init cfg) es)
    (hrun : Transition.run step (init cfg) es = some x) : x.OneTime :=
  (hfresh.invariant (fun _ _ _ => ledgered_step) (ledgered_init cfg) hrun).oneTime

/-! ## A code that is issued again -/

/-- The random source gives a host this id, and the code 000007. -/
def drawSeven (id : String) : Draws := { id := .ok id, codes := fun _ => .ok ⟨7, by decide⟩ }

/-- A code is issued and used, and is issued again for another session while the
first guest has not joined yet. -/
def reissued : List Step :=
  [.accept "a", .begin 0 .createCodeSession 0 (drawSeven "s"),
    .accept "b", .begin 1 (.joinByCode (some "000007")) 5 (drawSeven ""),
    .accept "c", .begin 2 .createCodeSession 6 (drawSeven "t"),
    .accept "d", .begin 3 (.joinByCode (some "000007")) 306 (drawSeven ""), .attach 1 307,
    .attach 3 307, .attach 3 308, .attach 1 309]

theorem codes_oneTime_reissued : ∃ x, Transition.run step (init Relay.smallConfig) reissued = some x ∧
    x.log = [.matched "000007" 3 306, .issued "000007" 1 306, .matched "000007" 1 5,
      .issued "000007" 0 300] ∧ x.OneTime := by
  have hfresh : Transition.Guarded step FreshIds (init Relay.smallConfig) reissued := by
    decide +kernel
  have hrun : (Transition.run step (init Relay.smallConfig) reissued).any (fun x =>
      decide (x.log = [.matched "000007" 3 306, .issued "000007" 1 306, .matched "000007" 1 5,
        .issued "000007" 0 300])) = true := by decide +kernel
  obtain ⟨x, hx, hlog⟩ := (Option.any_eq_true _ _).mp hrun
  exact ⟨x, hx, of_decide_eq_true hlog, codes_oneTime Relay.smallConfig reissued x hfresh hx⟩

end Coded

/-! ## The codes of ended sessions -/

namespace Hub

/-- A guess that is not turned away is told that its code is invalid exactly when
no code of the table is for a session that is still there and has time left. -/
structure Honours (h : Hub) : Prop where
  live : ∀ code entry, h.codes code = some entry → entry.sessionID ∈ h.sessions
  invalid : ∀ (code ip : String) (conn : ConnId) (now : Time),
    (h.checkAndRecordGuess ip now).2 = true →
      ((h.JoinByCode code ip conn now).2.1 = .error .invalidCode ↔
        ¬ ∃ entry, h.codes code = some entry ∧ now ≤ entry.expiresAt ∧
          entry.sessionID ∈ h.sessions)

variable {h : Hub} {code ip : String} {conn : ConnId} {now : Time}

theorem attachGuest_error {ref : Nat} {err : BeginError}
    (herr : (h.attachGuest ref ip conn now).2.1 = .error err) : err ≠ .invalidCode := by
  unfold attachGuest at herr
  split at herr
  next => cases herr; simp
  next =>
    split at herr
    next => cases herr; simp
    next =>
      split at herr
      next => cases herr; simp
      next => cases herr

theorem lookUp_invalid (ip : String) : h.lookUp code ip now = .error .invalidCode ↔
    ¬ ∃ entry, h.codes code = some entry ∧ now ≤ entry.expiresAt := by
  constructor
  · rintro hinvalid ⟨entry, hentry, hnow⟩
    unfold lookUp at hinvalid
    rw [hentry] at hinvalid
    dsimp only at hinvalid
    rw [if_neg (not_lt.mpr hnow)] at hinvalid
    split at hinvalid
    next => cases hinvalid
    next => split at hinvalid <;> cases hinvalid
  · intro hnone
    by_contra hvalid
    obtain ⟨entry, hentry, hnow, -⟩ := Coded.lookUp_spec hvalid
    exact hnone ⟨entry, hentry, hnow⟩

theorem joinByCode_invalid (hlet : (h.checkAndRecordGuess ip now).2 = true) :
    (h.JoinByCode code ip conn now).2.1 = .error .invalidCode ↔
      ¬ ∃ entry, h.codes code = some entry ∧ now ≤ entry.expiresAt := by
  rw [← lookUp_invalid ip, JoinByCode, resolveCode_eq, if_pos hlet]
  cases h.lookUp code ip now with
  | error err => exact ⟨fun herr => by cases herr; rfl, fun herr => by cases herr; rfl⟩
  | ok ref => exact ⟨fun herr => absurd rfl (attachGuest_error herr), fun herr => by cases herr⟩

theorem honours_of_live
    (hlive : ∀ code entry, h.codes code = some entry → entry.sessionID ∈ h.sessions) :
    h.Honours where
  live := hlive
  invalid code ip conn now hlet := by
    rw [joinByCode_invalid hlet]
    refine not_congr ⟨?_, ?_⟩
    · rintro ⟨entry, hentry, hnow⟩
      exact ⟨entry, hentry, hnow, hlive code entry hentry⟩
    · rintro ⟨entry, hentry, hnow, -⟩
      exact ⟨entry, hentry, hnow⟩

end Hub

namespace Coded

variable {x y : Coded} {e : Step}

/-- Codes of the table have been issued, and while sessions are spared their
sessions are there. -/
structure Spared (x : Coded) : Prop where
  logged : ∀ code entry, x.relay.hub.codes code = some entry → ∃ ev ∈ x.log, ev.code = code
  live : ∀ code entry, x.relay.hub.codes code = some entry →
    entry.sessionID ∈ x.relay.hub.sessions

theorem spared_step (hx : x.Spared) (hspares : x.SparesCodes e) (hstep : x.step e = some y) :
    y.Spared := by
  obtain ⟨z, hz, rfl⟩ := Option.map_eq_some_iff.mp hstep
  have hlogged : ∀ code entry, x.relay.hub.codes code = some entry →
      ∃ ev ∈ (event x.relay e).toList ++ x.log, ev.code = code := by
    intro code entry hentry
    obtain ⟨ev, hev, hcode⟩ := hx.logged code entry hentry
    exact ⟨ev, List.mem_append_right _ hev, hcode⟩
  -- where no code is new and no session goes
  have hsubset : (∀ code entry, z.hub.codes code = some entry →
      x.relay.hub.codes code = some entry) → (∀ id ∈ x.relay.hub.sessions, id ∈ z.hub.sessions) →
      Spared ⟨z, (event x.relay e).toList ++ x.log⟩ := fun hcodes hsessions =>
    ⟨fun code entry hentry => hlogged code entry (hcodes code entry hentry),
      fun code entry hentry => hsessions _ (hx.live code entry (hcodes code entry hentry))⟩
  cases Goroutines.tabled_step hz with
  | same _ hsame =>
      exact hsubset (fun code entry hentry => hsame.codes ▸ hentry) fun id hid =>
        hsame.sessions ▸ hid
  | created c now draws id hdraw hadds hcodes =>
      refine hsubset (fun code entry hentry => hcodes ▸ hentry) fun id' hid' => ?_
      rw [hadds.sessions]
      exact (AList.mem_insert _).mpr (.inr hid')
  | issued c now draws id code hdraw hadds hunused hcodes hissued =>
      have hevent : event x.relay (.begin c .createCodeSession now draws) =
          some (.issued code x.relay.hub.heap.length (now + x.relay.hub.cfg.PairingCodeTTL)) := by
        rw [event, hissued]
        rfl
      refine ⟨fun code' entry hentry => ?_, fun code' entry hentry => ?_⟩ <;> rw [hcodes] at hentry
      · by_cases hcode : code' = code
        · rw [hevent, hcode]
          exact ⟨_, List.mem_append_left _ (List.mem_singleton_self _), rfl⟩
        · rw [Function.update_of_ne hcode] at hentry
          exact hlogged code' entry hentry
      · rw [hadds.sessions]
        refine (AList.mem_insert _).mpr ?_
        by_cases hcode : code' = code
        · rw [hcode, Function.update_self] at hentry
          obtain rfl := Option.some.inj hentry
          exact .inl rfl
        · rw [Function.update_of_ne hcode] at hentry
          exact .inr (hx.live code' entry hentry)
  | guessed c code now draws t ht hhub =>
      refine hsubset (fun code' entry hentry => codes_resolveCode (hhub ▸ hentry)) fun id hid => ?_
      rw [hhub, (resolveCode_books x.relay.hub code t.ip now).sessions]
      exact hid
  | swept now ids hhub =>
      refine hsubset (fun code entry hentry => ?_) fun id hid => by rw [hhub]; exact hid
      rw [hhub] at hentry
      -- the sweep only drops entries
      exact (Option.filter_eq_some_iff.mp hentry).1
  | removed _ id hremoves hguess hreap hissued hhub =>
      have hcodes : ∀ code entry, z.hub.codes code = some entry →
          x.relay.hub.codes code = some entry := by
        intro code entry hentry
        rw [hhub] at hentry
        exact hentry
      refine ⟨fun code entry hentry => hlogged code entry (hcodes code entry hentry),
        fun code entry hentry => ?_⟩
      have hentry := hcodes code entry hentry
      obtain ⟨ev, hev, rfl⟩ := hx.logged code entry hentry
      rw [hhub]
      -- the session that goes is none that a code of the table is for
      exact AList.mem_erase.mpr
        ⟨hspares id hremoves ev hev entry hentry, hx.live ev.code entry hentry⟩

theorem spared_init (cfg : Config) : (init cfg).Spared where
  logged code entry hentry := by cases hentry
  live code entry hentry := by cases hentry

/-- In a run, codes are honoured at every point if and only if no session is ever
taken out while a code of the table is for it. -/
theorem codes_honoured_iff (cfg : Config) (es : List Step) :
    Transition.Guarded step SparesCodes (init cfg) es ↔
      ∀ pre post x, es = pre ++ post → Transition.run step (init cfg) pre = some x →
        x.relay.hub.Honours := by
  constructor
  · rintro hspares pre post x rfl hrun
    have hpre : Transition.Guarded step SparesCodes (init cfg) pre :=
      (hspares.of_append hrun).1
    exact Hub.honours_of_live (hpre.invariant (fun _ _ _ => spared_step) (spared_init cfg) hrun).live
  · intro hhonours
    refine Transition.Guarded.of_prefixes fun pre e post x hes hrun id hremoves ev hev entry hentry
      heq => ?_
    -- the step that takes the session out would leave the code
    obtain ⟨z, hz, hhub⟩ := Goroutines.step_of_removes hremoves
    obtain ⟨y, hy, hsame⟩ : ∃ y, x.step e = some y ∧ y.relay = z := by
      rw [step, hz]
      exact ⟨_, rfl, rfl⟩
    have hlive := (hhonours (pre ++ [e]) post y (by rw [hes]; simp)
      (Transition.run_concat hrun hy)).live ev.code entry (by rw [hsame, hhub]; exact hentry)
    rw [hsame, hhub, heq] at hlive
    exact (AList.mem_erase.mp hlive).1 rfl

/-- A host that is shown its code ends the session. -/
def endedUnused : List Step :=
  [.accept "a", .begin 0 .createCodeSession 0 (drawSeven "s"), .act 0, .frame 0 .endSession 1,
    .act 0]

/-- The code is still in the table, and who uses it is told that there is no such
session. -/
theorem code_outlives_session : ¬ ∀ (cfg : Config) (es : List Step) (x : Coded),
    Transition.run step (init cfg) es = some x → x.relay.hub.Honours := by
  intro hall
  have hrun : (Transition.run step (init Relay.smallConfig) endedUnused).any (fun x =>
      (x.relay.hub.checkAndRecordGuess "b" 5).2 && decide ((x.relay.hub.sessions.lookup "s") = none) &&
      decide (x.relay.hub.codes "000007" = some ⟨"s", 300⟩)) = true := by decide +kernel
  obtain ⟨x, hx, hstate⟩ := (Option.any_eq_true _ _).mp hrun
  simp only [Bool.and_eq_true, decide_eq_true_eq] at hstate
  obtain ⟨⟨hlet, hgone⟩, hcode⟩ := hstate
  obtain ⟨-, hinvalid⟩ := hall Relay.smallConfig endedUnused x hx
  have hnone := (hinvalid "000007" "b" 1 5 hlet).mpr fun ⟨entry, hentry, hnow, hsession⟩ => by
    obtain rfl := Option.some.inj (hcode.symm.trans hentry)
    rw [← AList.lookup_isSome, hgone] at hsession
    cases hsession
  exact (Hub.joinByCode_invalid hlet).mp hnone ⟨_, hcode, by decide⟩

end Coded

end Quicksend.Server
