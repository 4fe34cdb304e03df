import Quicksend.Server.Goroutines.Tables
import Quicksend.Server.Load
import Mathlib.Tactic.Linarith

/-!
# The guess budget

The budget of an address belongs to a window that starts with its first guess
and is replaced by a new one when a guess finds it over. Each window lets
`MaxPairingAttempts` guesses through; those at the end of one window and those
at the start of the next are never added up.
-/

namespace Quicksend.Server

/-- A guess has a new window to start: there is none, or it is over. -/
def Hub.restarts (h : Hub) (ip : String) (now : Time) : Prop :=
  ∀ b ∈ h.guesses ip, h.cfg.PairingCodeTTL ≤ now - b.windowStart

instance (h : Hub) (ip : String) (now : Time) : Decidable (h.restarts ip now) :=
  inferInstanceAs (Decidable (∀ b ∈ h.guesses ip, _))

theorem guessBudget_of_restarts {h : Hub} {ip : String} {now : Time} (hr : h.restarts ip now) :
    h.guessBudget ip now = { count := 0, windowStart := now } := by
  unfold Hub.guessBudget
  split
  next => rfl
  next b hb => exact if_pos (hr b hb)

theorem guessBudget_of_not_restarts {h : Hub} {ip : String} {now : Time}
    (hr : ¬ h.restarts ip now) : h.guesses ip = some (h.guessBudget ip now) := by
  unfold Hub.guessBudget
  split
  next hnone => exact absurd (fun b hb => by rw [hnone] at hb; cases hb) hr
  next b hb =>
    rw [hb, if_neg fun hover => hr fun b' hb' => ?_]
    obtain rfl := Option.some.inj (hb.symm.trans hb')
    exact hover

/-- What a guess does to the budgets, and its verdict. -/
theorem checkAndRecordGuess_spec (h : Hub) (ip : String) (now : Time) :
    ∃ b, (h.checkAndRecordGuess ip now).1.guesses = Function.update h.guesses ip (some b) ∧
      b.windowStart = (h.guessBudget ip now).windowStart ∧
      b.count = (h.guessBudget ip now).count +
        (if (h.checkAndRecordGuess ip now).2 = true then 1 else 0) ∧
      ((h.checkAndRecordGuess ip now).2 = true ↔
        ((h.guessBudget ip now).count : Int) < h.cfg.MaxPairingAttempts) := by
  unfold Hub.checkAndRecordGuess
  dsimp only
  split
  next hover =>
    refine ⟨_, rfl, rfl, rfl, ?_⟩
    simp only [Bool.false_eq_true, false_iff]
    omega
  next hunder =>
    refine ⟨_, rfl, rfl, rfl, ?_⟩
    simp only [true_iff]
    omega

theorem resolveCode_guesses (h : Hub) (code ip : String) (now : Time) :
    (h.resolveCode code ip now).1.guesses = (h.checkAndRecordGuess ip now).1.guesses ∧
      (h.resolveCode code ip now).1.cfg = h.cfg := by
  have hcfg := checkAndRecordGuess_cfg h ip now
  rw [resolveCode_eq]
  split <;> exact ⟨rfl, hcfg⟩

/-- `resolveCode` has come past the check of the budget: all that it answers but
`tooManyAttempts` comes from behind it. -/
def lookedUp : Except BeginError Nat → Bool
  | .error .tooManyAttempts => false
  | _ => true

theorem lookedUp_lookUp (h : Hub) (code ip : String) (now : Time) :
    lookedUp (h.lookUp code ip now) = true := by
  unfold Hub.lookUp
  split
  next => rfl
  next =>
    split
    next => rfl
    next =>
      split
      next => rfl
      next => split <;> rfl

/-- What `resolveCode` answers shows the verdict on the guess. -/
theorem lookedUp_resolveCode (h : Hub) (code ip : String) (now : Time) :
    lookedUp (h.resolveCode code ip now).2 = (h.checkAndRecordGuess ip now).2 := by
  rw [resolveCode_eq]
  by_cases hlet : (h.checkAndRecordGuess ip now).2 = true
  · rw [if_pos hlet, hlet]
    exact lookedUp_lookUp h code ip now
  · rw [if_neg hlet, Bool.eq_false_iff.mpr hlet]
    rfl

/-- A guess of an address, with the time that it was made at: one whose code has
been looked up, or one that was turned away before that. -/
structure Guess where
  ip : String
  time : Time
  passed : Bool
  deriving DecidableEq

/-- What happens to the guess budgets of the relay: somebody guesses a code, or the
reaper deletes the budgets whose window is over. -/
inductive BudgetEvent where
  | guess (g : Guess)
  | sweep (now : Time)
  deriving DecidableEq

namespace BudgetEvent

/-- The clock that the relay read for the event. -/
def time : BudgetEvent → Time
  | .guess g => g.time
  | .sweep now => now

/-- A guess of this address whose code was looked up, which is what an address
has a budget of. -/
def lets (ip : String) : BudgetEvent → Bool
  | .guess g => g.passed && decide (g.ip = ip)
  | .sweep _ => false

/-- The event without the verdict: who guessed when is up to the clients and the
clock, and only the verdict is the relay's. -/
def asked : BudgetEvent → BudgetEvent
  | .guess g => .guess { g with passed := false }
  | .sweep now => .sweep now

/-- The event may touch the budget of the address: it is no guess of another
address. -/
def concerns (ip : String) : BudgetEvent → Bool
  | .guess g => g.ip = ip
  | .sweep _ => true

end BudgetEvent

/-- The relay with what happened to its budgets, the last event first. -/
structure Guessing where
  relay : Goroutines
  log : List BudgetEvent

namespace Guessing

/-- A relay that has just started, of which no code was looked up yet. -/
def init (cfg : Config) : Guessing := { relay := Goroutines.init cfg, log := [] }

/-- What a step does to the budgets. The verdict on a guess is read off what the
handler's `resolveCode` answers; `answered_of_event` says what becomes of the
code and of the guesser. -/
def event (x : Guessing) (e : Step) : Option BudgetEvent :=
  match e with
  | .reap now _ => some (.sweep now)
  | .begin c (.joinByCode (some code)) now _ => (x.relay.threads[c]?).map fun t =>
      .guess ⟨t.ip, now, lookedUp (x.relay.hub.resolveCode code t.ip now).2⟩
  | _ => none

/-- A step of the relay, any of them and of any connection, with its event put on
the log. -/
def step (x : Guessing) (e : Step) : Option Guessing :=
  (x.relay.step e).map fun y => { relay := y, log := (x.event e).toList ++ x.log }

/-- The clocks do not go back: no guess is earlier than one that was logged before
it. -/
def InOrder (x : Guessing) (e : Step) : Prop :=
  ∀ b ∈ x.event e, ∀ b' ∈ x.log, b'.time ≤ b.time

/-- A guess of the address starts a new window only when the last one that was
let through is `PairingCodeTTL` ago or longer. -/
def Rested (ip : String) (x : Guessing) (e : Step) : Prop :=
  ∀ g ∈ x.relay.guess e, g.1 = ip → x.relay.hub.restarts ip g.2 →
    ∀ b ∈ x.log, b.lets ip = true → b.time + x.relay.hub.cfg.PairingCodeTTL ≤ g.2

instance (x : Guessing) (e : Step) : Decidable (x.InOrder e) :=
  inferInstanceAs (Decidable (∀ b ∈ x.event e, _))

instance (ip : String) (x : Guessing) (e : Step) : Decidable (x.Rested ip e) :=
  inferInstanceAs (Decidable (∀ g ∈ x.relay.guess e, _))

/-- How many guesses of an address were let through for a time `ttl` from
`start` on. -/
def passedWithin (x : Guessing) (ip : String) (start ttl : Time) : Nat :=
  x.log.countP fun b => b.lets ip && decide (start ≤ b.time ∧ b.time < start + ttl)

/-! ## Within one window -/

variable {x y : Guessing} {cfg : Config} {ip : String} {e : Step}

/-- What the budget of an address knows of the guesses let through: those of its
window are counted, the others are a window's length before it. -/
structure Windowed (cfg : Config) (ip : String) (x : Guessing) : Prop where
  config : x.relay.hub.cfg = cfg
  window : ∀ b, x.relay.hub.guesses ip = some b →
    (∃ ev ∈ x.log, ev.time = b.windowStart) ∧
    (∀ ev ∈ x.log, ev.lets ip = true →
      b.windowStart ≤ ev.time ∨ ev.time + cfg.PairingCodeTTL ≤ b.windowStart) ∧
    x.log.countP (fun ev => ev.lets ip && decide (b.windowStart ≤ ev.time)) ≤ b.count
  bound : ∀ start, (x.passedWithin ip start cfg.PairingCodeTTL : Int) ≤ cfg.MaxPairingAttempts

/-- Events that let no guess of the address through count for nothing. -/
theorem countP_lets (ip : String) (p : BudgetEvent → Bool) {evs : List BudgetEvent}
    (hevs : ∀ ev ∈ evs, ev.lets ip = false) (log : List BudgetEvent) :
    (evs ++ log).countP (fun ev => ev.lets ip && p ev) =
      log.countP fun ev => ev.lets ip && p ev := by
  have hzero : evs.countP (fun ev => ev.lets ip && p ev) = 0 :=
    List.countP_eq_zero.mpr fun ev hev => by simp [hevs ev hev]
  rw [List.countP_append, hzero, Nat.zero_add]

/-- A step that lets no guess of the address through and gives it no new
budget. -/
theorem Windowed.quiet (hx : x.Windowed cfg ip) (evs : List BudgetEvent)
    (hevs : ∀ ev ∈ evs, ev.lets ip = false) (hcfg : y.relay.hub.cfg = x.relay.hub.cfg)
    (hlog : y.log = evs ++ x.log)
    (hguesses : ∀ b, y.relay.hub.guesses ip = some b → x.relay.hub.guesses ip = some b) :
    y.Windowed cfg ip where
  config := hcfg.trans hx.config
  window b hb := by
    obtain ⟨⟨ev, hev, htime⟩, hapart, hcount⟩ := hx.window b (hguesses b hb)
    rw [hlog, countP_lets ip _ hevs]
    refine ⟨⟨ev, by simp [hev], htime⟩, fun ev hev hlets => ?_, hcount⟩
    rcases List.mem_append.mp hev with hnew | hold
    · rw [hevs ev hnew] at hlets
      cases hlets
    · exact hapart ev hold hlets
  bound start := by
    rw [passedWithin, hlog, countP_lets ip _ hevs]
    exact hx.bound start

/-- Guesses let through since `since` are all that can fall into one interval
with a guess now, when the others are a window's length before `since`. -/
theorem passedWithin_le {since now start : Time} {n : Nat} (hsince : since ≤ now)
    (hnow : now < start + cfg.PairingCodeTTL)
    (hapart : ∀ ev ∈ x.log, ev.lets ip = true →
      since ≤ ev.time ∨ ev.time + cfg.PairingCodeTTL ≤ since)
    (hcount : x.log.countP (fun ev => ev.lets ip && decide (since ≤ ev.time)) ≤ n) :
    x.passedWithin ip start cfg.PairingCodeTTL ≤ n := by
  refine le_trans (List.countP_mono_left fun ev hev hin => ?_) hcount
  simp only [Bool.and_eq_true, decide_eq_true_eq] at hin ⊢
  obtain ⟨hlets, hstart, -⟩ := hin
  refine ⟨hlets, ?_⟩
  rcases hapart ev hev hlets with hafter | hbefore
  · exact hafter
  · linarith

/-- A guess of the address itself. -/
theorem Windowed.guessed (hx : x.Windowed cfg ip) (httl : 0 < cfg.PairingCodeTTL) {now : Time}
    (hcfg : y.relay.hub.cfg = x.relay.hub.cfg)
    (hlog : y.log = .guess ⟨ip, now, (x.relay.hub.checkAndRecordGuess ip now).2⟩ :: x.log)
    (hguesses : y.relay.hub.guesses = (x.relay.hub.checkAndRecordGuess ip now).1.guesses)
    (horder : ∀ ev ∈ x.log, ev.time ≤ now)
    (hrested : x.relay.hub.restarts ip now → ∀ ev ∈ x.log, ev.lets ip = true →
      ev.time + cfg.PairingCodeTTL ≤ now) : y.Windowed cfg ip := by
  obtain ⟨b, hb, hstart, hcount, hpassed⟩ := checkAndRecordGuess_spec x.relay.hub ip now
  rw [hx.config] at hpassed
  generalize (x.relay.hub.checkAndRecordGuess ip now).2 = passed at hlog hcount hpassed
  -- the budget of the guess, and what it knows of the guesses before
  obtain ⟨hsince, hapart, hknown⟩ : b.windowStart ≤ now ∧
      (∀ ev ∈ x.log, ev.lets ip = true →
        b.windowStart ≤ ev.time ∨ ev.time + cfg.PairingCodeTTL ≤ b.windowStart) ∧
      x.log.countP (fun ev => ev.lets ip && decide (b.windowStart ≤ ev.time)) ≤
        (x.relay.hub.guessBudget ip now).count := by
    by_cases hr : x.relay.hub.restarts ip now
    · rw [guessBudget_of_restarts hr] at hstart ⊢
      rw [hstart]
      -- a window that starts now: all that was let through lies a whole window back
      refine ⟨le_refl _, fun ev hev hlets => .inr (hrested hr ev hev hlets), ?_⟩
      refine Nat.le_of_eq (List.countP_eq_zero.mpr fun ev hev hin => ?_)
      simp only [Bool.and_eq_true, decide_eq_true_eq] at hin
      linarith [hrested hr ev hev hin.1]
    · -- the window goes on, and what was known of it still holds
      obtain ⟨⟨ev, hev, htime⟩, hapart, hcount⟩ :=
        hx.window _ (guessBudget_of_not_restarts hr)
      rw [hstart]
      exact ⟨htime ▸ horder ev hev, hapart, hcount⟩
  have hlets : BudgetEvent.lets ip (.guess ⟨ip, now, passed⟩) = passed := by
    simp [BudgetEvent.lets]
  refine ⟨hcfg.trans hx.config, fun b' hb' => ?_, fun start => ?_⟩
  · rw [hguesses, hb, Function.update_self] at hb'
    obtain rfl := Option.some.inj hb'
    rw [hlog]
    refine ⟨?_, fun ev hev hlets => ?_, ?_⟩
    · by_cases hr : x.relay.hub.restarts ip now
      · refine ⟨_, List.mem_cons_self, ?_⟩
        rw [hstart, guessBudget_of_restarts hr]
        rfl
      · obtain ⟨⟨ev, hev, htime⟩, -, -⟩ := hx.window _ (guessBudget_of_not_restarts hr)
        exact ⟨ev, List.mem_cons_of_mem _ hev, htime.trans hstart.symm⟩
    · rcases List.mem_cons.mp hev with rfl | hold
      · exact .inl hsince
      · exact hapart ev hold hlets
    · rw [List.countP_cons, hlets, hcount]
      have hnew : decide (b.windowStart ≤ BudgetEvent.time (.guess ⟨ip, now, passed⟩)) = true :=
        decide_eq_true hsince
      rw [hnew, Bool.and_true]
      exact Nat.add_le_add_right hknown _
  · have hbound := hx.bound start
    rw [passedWithin, hlog, List.countP_cons, hlets]
    change ((x.passedWithin ip start cfg.PairingCodeTTL + _ : Nat) : Int) ≤ _
    split
    next hin =>
      rw [Bool.and_eq_true, decide_eq_true_eq] at hin
      -- the new guess is in the window asked about, and so is in the budget's own
      have hle := passedWithin_le hsince hin.2.2 hapart hknown
      have := hpassed.mp hin.1
      omega
    next => exact hbound

theorem event_none (hguess : x.relay.guess e = none) (hreap : ∀ now ids, e ≠ .reap now ids) :
    x.event e = none := by
  unfold event
  split
  next now ids => exact absurd rfl (hreap now ids)
  next c code now draws =>
    rw [Goroutines.guess, Option.map_eq_none_iff] at hguess
    rw [hguess, Option.map_none]
  next => rfl

theorem event_guess {c : ConnId} {t : Thread} (ht : x.relay.threads[c]? = some t) (code : String)
    (now : Time) (draws : Draws) :
    x.relay.guess (.begin c (.joinByCode (some code)) now draws) = some (t.ip, now) ∧
      x.event (.begin c (.joinByCode (some code)) now draws) =
        some (.guess ⟨t.ip, now, (x.relay.hub.checkAndRecordGuess t.ip now).2⟩) := by
  have hguess : x.relay.guess (.begin c (.joinByCode (some code)) now draws) =
      some (t.ip, now) := by
    rw [Goroutines.guess, ht]
    rfl
  refine ⟨hguess, ?_⟩
  rw [event, ht, Option.map_some, lookedUp_resolveCode]

/-- A step that is no guess and no sweep. -/
theorem Windowed.other (hx : x.Windowed cfg ip) {z : Goroutines} (hevent : x.event e = none)
    (hcfg : z.hub.cfg = x.relay.hub.cfg) (hguesses : z.hub.guesses = x.relay.hub.guesses) :
    Windowed cfg ip ⟨z, (x.event e).toList ++ x.log⟩ := by
  rw [hevent]
  exact hx.quiet [] (by simp) hcfg rfl fun b hb => hguesses ▸ hb

theorem windowed_step (httl : 0 < cfg.PairingCodeTTL) (hx : x.Windowed cfg ip) (ho : x.InOrder e)
    (hr : x.Rested ip e) (hstep : x.step e = some y) : y.Windowed cfg ip := by
  obtain ⟨z, hz, rfl⟩ := Option.map_eq_some_iff.mp hstep
  cases Goroutines.tabled_step hz with
  | same _ hsame hguess hreap =>
      exact hx.other (event_none hguess hreap) hsame.cfg hsame.guesses
  | created c now draws id hdraw hadds => exact hx.other rfl hadds.cfg hadds.guesses
  | issued c now draws id code hdraw hadds => exact hx.other rfl hadds.cfg hadds.guesses
  | removed _ id hremoves hguess hreap hissued hhub =>
      exact hx.other (event_none hguess hreap) (by rw [hhub]; rfl) (by rw [hhub]; rfl)
  | swept now ids hhub =>
      refine hx.quiet [.sweep now] (by simp [BudgetEvent.lets]) (by rw [hhub]; rfl) rfl
        fun b hb => ?_
      rw [hhub] at hb
      exact (Option.filter_eq_some_iff.mp hb).1
  | guessed c code now draws t ht hhub =>
      obtain ⟨hguesses, hcfg⟩ := resolveCode_guesses x.relay.hub code t.ip now
      rw [← hhub] at hguesses hcfg
      obtain ⟨hguess, hevent⟩ := event_guess (x := x) ht code now draws
      by_cases hip : t.ip = ip
      · subst hip
        refine hx.guessed httl hcfg (by rw [hevent]; rfl) hguesses (ho _ hevent) ?_
        have hrested := hr _ hguess rfl
        rw [hx.config] at hrested
        exact hrested
      · obtain ⟨b', hb', -⟩ := checkAndRecordGuess_spec x.relay.hub t.ip now
        refine hx.quiet _ ?_ hcfg rfl fun b hb => ?_
        · rw [hevent]
          simp [BudgetEvent.lets, hip]
        · rw [hguesses, hb', Function.update_of_ne (Ne.symm hip)] at hb
          exact hb

theorem windowed_init (hmax : 0 ≤ cfg.MaxPairingAttempts) : (init cfg).Windowed cfg ip where
  config := rfl
  window b hb := by cases hb
  bound start := by exact_mod_cast hmax

/-! ## What a guesser is answered -/

/-- What a step makes of a guess with this verdict. A guess that is let through
has its code looked up and taken out of the table, whatever it led to, and the
handler goes on from there; one that is turned away leaves the codes as they are,
and the guesser hears that it has made too many. -/
inductive Answered (x y : Goroutines) (c : ConnId) (code ip : String) (now : Time) : Bool → Prop where
  | lookedUp (hcodes : y.hub.codes = Function.update x.hub.codes code none)
      (hfound : x.hub.lookUp code ip now ≠ .error .tooManyAttempts)
      (hnext : (y.threads[c]?).map (fun t => (t.pc, t.todo)) = some
        (enter.found (.joinByCode (some code)) c (x.hub.lookUp code ip now) .joining)) :
      Answered x y c code ip now true
  | turnedAway (hcodes : y.hub.codes = x.hub.codes)
      (hnext : (y.threads[c]?).map (fun t => (t.pc, t.todo)) =
        some (refuse c (.joinByCode (some code)) .tooManyAttempts)) :
      Answered x y c code ip now false

/-- The hub and the guesser behind the critical section of a guess. -/
theorem guessed_next {x y : Goroutines} {c : ConnId} {code : String} {now : Time} {draws : Draws}
    {t : Thread} (hstep : x.step (.begin c (.joinByCode (some code)) now draws) = some y)
    (ht : x.threads[c]? = some t) :
    y.hub = (x.hub.resolveCode code t.ip now).1 ∧
      (y.threads[c]?).map (fun t => (t.pc, t.todo)) = some
        (enter.found (.joinByCode (some code)) c (x.hub.resolveCode code t.ip now).2 .joining) := by
  cases Goroutines.step_spec hstep with
  | begun _ _ _ _ t' hub pc todo ht' hfresh he henter =>
      obtain rfl := Option.some.inj (ht.symm.trans ht')
      refine ⟨(congrArg Prod.fst henter).symm, ?_⟩
      have hthread := Tally.getElem?_modify_self ht fun t =>
        { t.goto pc todo with first := some (.joinByCode (some code)) }
      refine (congrArg (Option.map fun t : Thread => (t.pc, t.todo)) hthread).trans ?_
      exact congrArg some (congrArg Prod.snd henter).symm

theorem answered {x y : Goroutines} {c : ConnId} {code : String} {now : Time} {draws : Draws}
    {t : Thread} (hstep : x.step (.begin c (.joinByCode (some code)) now draws) = some y)
    (ht : x.threads[c]? = some t) :
    Answered x y c code t.ip now (lookedUp (x.hub.resolveCode code t.ip now).2) := by
  obtain ⟨hhub, hnext⟩ := guessed_next hstep ht
  rw [lookedUp_resolveCode]
  rw [resolveCode_eq] at hhub hnext
  by_cases hlet : (x.hub.checkAndRecordGuess t.ip now).2 = true
  · rw [if_pos hlet] at hhub hnext
    rw [hlet]
    refine .lookedUp (by rw [hhub]) (fun hmany => ?_) hnext
    have hlooked := lookedUp_lookUp x.hub code t.ip now
    rw [hmany] at hlooked
    cases hlooked
  · rw [if_neg hlet] at hhub hnext
    rw [Bool.eq_false_iff.mpr hlet]
    obtain ⟨guesses, hguesses⟩ := checkAndRecordGuess_fst x.hub t.ip now
    exact .turnedAway (by rw [hhub, hguesses]) hnext

/-- The verdict on a guess decides what the step makes of it. -/
theorem answered_of_event {g : Guess} (hstep : x.step e = some y)
    (hevent : x.event e = some (.guess g)) :
    ∃ c code draws, e = .begin c (.joinByCode (some code)) g.time draws ∧
      Answered x.relay y.relay c code g.ip g.time g.passed := by
  obtain ⟨z, hz, rfl⟩ := Option.map_eq_some_iff.mp hstep
  unfold event at hevent
  split at hevent
  next => cases hevent
  next c code now draws =>
    obtain ⟨t, ht, heq⟩ := Option.map_eq_some_iff.mp hevent
    obtain rfl := BudgetEvent.guess.inj heq
    exact ⟨c, code, draws, rfl, answered hz ht⟩
  next => cases hevent

/-! ## One address and the others -/

/-- What an event makes of a budget, with its verdict. -/
def replayEvent (cfg : Config) (ip : String) (b : Option GuessBudget) :
    BudgetEvent → Option GuessBudget × BudgetEvent
  | .guess g =>
      let r := { Hub.new cfg with guesses := fun _ => b }.checkAndRecordGuess ip g.time
      (r.1.guesses ip, .guess { g with passed := r.2 })
  | .sweep now =>
      (b.filter fun b => ¬ now - b.windowStart ≥ cfg.PairingCodeTTL, .sweep now)

/-- The budget of an address and the verdicts on its guesses, from its own
guesses and the sweeps. -/
def replay (cfg : Config) (ip : String) :
    List BudgetEvent → Option GuessBudget × List BudgetEvent
  | [] => (none, [])
  | ev :: log =>
      let (b, verdicts) := replay cfg ip log
      let (b, ev) := replayEvent cfg ip b ev
      (b, ev :: verdicts)

/-- The part of the log that concerns one address, be it a guess or a verdict on
one. -/
def own (x : Guessing) (ip : String) : List BudgetEvent :=
  x.log.filter (BudgetEvent.concerns ip)

/-- A verdict depends on the budget of its address alone. -/
theorem checkAndRecordGuess_own (h : Hub) (ip : String) (now : Time) :
    ((h.checkAndRecordGuess ip now).1.guesses ip, (h.checkAndRecordGuess ip now).2) =
      (let r := { Hub.new h.cfg with guesses := fun _ => h.guesses ip }.checkAndRecordGuess ip now
       (r.1.guesses ip, r.2)) := by
  have hbudget : { Hub.new h.cfg with guesses := fun _ => h.guesses ip }.guessBudget ip now =
      h.guessBudget ip now := by
    unfold Hub.guessBudget
    rfl
  unfold Hub.checkAndRecordGuess
  dsimp only
  rw [hbudget]
  by_cases hover : ((h.guessBudget ip now).count : Int) ≥ h.cfg.MaxPairingAttempts
  · rw [if_pos hover]
    refine Eq.trans ?_ (congrArg (fun r : Hub × Bool => (r.1.guesses ip, r.2)) (if_pos hover).symm)
    simp
  · rw [if_neg hover]
    refine Eq.trans ?_ (congrArg (fun r : Hub × Bool => (r.1.guesses ip, r.2)) (if_neg hover).symm)
    simp

/-- The budget of an address and its verdicts are those of the replay. -/
structure Replayed (cfg : Config) (ip : String) (x : Guessing) : Prop where
  config : x.relay.hub.cfg = cfg
  replay : replay cfg ip ((x.own ip).map BudgetEvent.asked) = (x.relay.hub.guesses ip, x.own ip)

/-- A step that does not concern the address. -/
theorem Replayed.other (hx : x.Replayed cfg ip) {z : Goroutines}
    (hevent : ∀ ev ∈ x.event e, ev.concerns ip = false)
    (hcfg : z.hub.cfg = x.relay.hub.cfg) (hguesses : z.hub.guesses ip = x.relay.hub.guesses ip) :
    Replayed cfg ip ⟨z, (x.event e).toList ++ x.log⟩ := by
  have hown : own ⟨z, (x.event e).toList ++ x.log⟩ ip = x.own ip := by
    rw [own, List.filter_append, List.filter_eq_nil_iff.mpr fun ev hev => ?_, List.nil_append]
    · rfl
    · simp [hevent ev (Option.mem_toList.mp hev)]
  refine ⟨hcfg.trans hx.config, ?_⟩
  rw [hown, hx.replay]
  exact congrArg (·, x.own ip) hguesses.symm

/-- A step that does. -/
theorem Replayed.concerned (hx : x.Replayed cfg ip) {z : Goroutines} {ev : BudgetEvent}
    (hevent : x.event e = some ev) (hconcerns : ev.concerns ip = true)
    (hcfg : z.hub.cfg = x.relay.hub.cfg)
    (hreplay : replayEvent cfg ip (x.relay.hub.guesses ip) ev.asked = (z.hub.guesses ip, ev)) :
    Replayed cfg ip ⟨z, (x.event e).toList ++ x.log⟩ := by
  have hown : own ⟨z, (x.event e).toList ++ x.log⟩ ip = ev :: x.own ip := by
    rw [own, hevent]
    exact List.filter_cons_of_pos hconcerns
  refine ⟨hcfg.trans hx.config, ?_⟩
  rw [hown, List.map_cons, Guessing.replay, hx.replay]
  dsimp only
  rw [hreplay]

theorem replayed_step (hx : x.Replayed cfg ip) (hstep : x.step e = some y) :
    y.Replayed cfg ip := by
  obtain ⟨z, hz, rfl⟩ := Option.map_eq_some_iff.mp hstep
  cases Goroutines.tabled_step hz with
  | same _ hsame hguess hreap =>
      refine hx.other ?_ hsame.cfg (by rw [hsame.guesses])
      rw [event_none hguess hreap]
      simp
  | created c now draws id hdraw hadds =>
      exact hx.other (by simp [event]) hadds.cfg (by rw [hadds.guesses])
  | issued c now draws id code hdraw hadds =>
      exact hx.other (by simp [event]) hadds.cfg (by rw [hadds.guesses])
  | removed _ id hremoves hguess hreap hissued hhub =>
      refine hx.other ?_ (by rw [hhub]; rfl) (by rw [hhub]; rfl)
      rw [event_none hguess hreap]
      simp
  | swept now ids hhub =>
      refine hx.concerned rfl rfl (by rw [hhub]; rfl) ?_
      rw [hhub, ← hx.config]
      rfl
  | guessed c code now draws t ht hhub =>
      obtain ⟨hguesses, hcfg⟩ := resolveCode_guesses x.relay.hub code t.ip now
      rw [← hhub] at hguesses hcfg
      obtain ⟨-, hevent⟩ := event_guess (x := x) ht code now draws
      by_cases hip : t.ip = ip
      · subst hip
        refine hx.concerned hevent (by simp [BudgetEvent.concerns]) hcfg ?_
        obtain ⟨hb, hverdict⟩ := Prod.mk.inj (checkAndRecordGuess_own x.relay.hub t.ip now)
        rw [hguesses, hb, hverdict, hx.config]
        rfl
      · obtain ⟨b', hb', -⟩ := checkAndRecordGuess_spec x.relay.hub t.ip now
        refine hx.other ?_ hcfg ?_
        · rw [hevent]
          simp [BudgetEvent.concerns, hip]
        · rw [hguesses, hb', Function.update_of_ne (Ne.symm hip)]

theorem replayed_init (cfg : Config) (ip : String) : (init cfg).Replayed cfg ip := ⟨rfl, rfl⟩

/-- With clocks that do not go back, an address whose new windows start with its
last accepted guess a window's length behind it gets no more than
`MaxPairingAttempts` guesses through in any interval of that length. What others
guess changes none of its verdicts. And a verdict is what the guesser gets: its
code is looked up exactly when the guess is let through. -/
theorem guesses_within_budget (env : Env) (cfg : Config) (hload : Load env = .ok cfg) (ip : String)
    (es : List Step) (x : Guessing) (hrun : Transition.run step (init cfg) es = some x) :
    (Transition.Guarded step InOrder (init cfg) es →
      Transition.Guarded step (Rested ip) (init cfg) es →
      ∀ start, (x.passedWithin ip start cfg.PairingCodeTTL : Int) ≤ cfg.MaxPairingAttempts) ∧
    (∀ (es' : List Step) (x' : Guessing), Transition.run step (init cfg) es' = some x' →
      (x.own ip).map BudgetEvent.asked = (x'.own ip).map BudgetEvent.asked →
      x.own ip = x'.own ip) ∧
    ∀ (e : Step) (y : Guessing) (g : Guess), x.step e = some y → x.event e = some (.guess g) →
      ∃ c code draws, e = .begin c (.joinByCode (some code)) g.time draws ∧
        Answered x.relay y.relay c code g.ip g.time g.passed := by
  obtain ⟨-, -, hmax⟩ := load_positive hload
  refine ⟨fun horder hrested start => ?_, fun es' x' hrun' hasked => ?_,
    fun e y g hstep hevent => answered_of_event hstep hevent⟩
  · by_cases httl : 0 < cfg.PairingCodeTTL
    · have hwindowed : x.Windowed cfg ip := (horder.and hrested).invariant
        (fun _ _ _ hx hg hstep => windowed_step httl hx hg.1 hg.2 hstep) (windowed_init hmax.le) hrun
      exact hwindowed.bound start
    · -- no time is within an interval of no length
      have hnone : x.passedWithin ip start cfg.PairingCodeTTL = 0 := by
        refine List.countP_eq_zero.mpr fun ev _ hin => ?_
        simp only [Bool.and_eq_true, decide_eq_true_eq] at hin
        linarith [hin.2.1, hin.2.2]
      rw [hnone]
      exact hmax.le
  · have hx : x.Replayed cfg ip :=
      Transition.invariant (fun _ _ _ hx hstep => replayed_step hx hstep) (replayed_init cfg ip) hrun
    have hx' : x'.Replayed cfg ip :=
      Transition.invariant (fun _ _ _ hx hstep => replayed_step hx hstep) (replayed_init cfg ip) hrun'
    have hreplay := hx.replay
    rw [hasked, hx'.replay] at hreplay
    exact (Prod.mk.inj hreplay).2.symm

/-! ## Two guesses an interval -/

/-- A configuration under which an address has two guesses in a window. -/
def twoAttempts : Config := { Relay.smallConfig with MaxPairingAttempts := 2 }

/-- The environment from which that configuration is loaded, every variable of it
set. -/
def twoAttemptsEnv : Env where
  QUICKSEND_MAX_FILE_SIZE_BYTES := some (.ok 100)
  QUICKSEND_MAX_SESSIONS_PER_IP := some (.ok 2)
  QUICKSEND_SESSION_INACTIVITY_TIMEOUT := some (.ok 300)
  QUICKSEND_RECONNECT_GRACE_PERIOD := some (.ok 45)
  QUICKSEND_PAIRING_CODE_TTL := some (.ok 300)
  QUICKSEND_MAX_PAIRING_ATTEMPTS := some (.ok 2)

/-- A guess of the code `000000` by a fresh connection, at this time. -/
def guessStep (c : ConnId) (now : Time) : Step :=
  .begin c (.joinByCode (some "000000")) now (Relay.drawID "")

/-- Guesses of these addresses at these times, each on a connection of its own. -/
def guessesBy (guesses : List (String × Time)) : List Step :=
  guesses.zipIdx.flatMap fun p => [.accept p.1.1, guessStep p.2 p.1.2]

/-- Four guesses of one address: of the three in the first window the last is
turned away, as it is when another address guesses in between. -/
theorem guesses_within_budget_twice :
    (∃ x x', Transition.run step (init twoAttempts)
        (guessesBy [("a", 0), ("a", 299), ("a", 299), ("a", 600)]) = some x ∧
      Transition.run step (init twoAttempts) (guessesBy
        [("a", 0), ("b", 0), ("b", 1), ("a", 299), ("b", 299), ("a", 299), ("a", 600)]) = some x' ∧
      (x.own "a").length = 4 ∧ (x.passedWithin "a" 299 300 : Int) ≤ 2 ∧ x.own "a" = x'.own "a") ∧
    ∃ x y, Transition.run step (init twoAttempts)
        (guessesBy [("a", 0), ("a", 299)] ++ [.accept "a"]) = some x ∧
      x.step (guessStep 2 299) = some y ∧ Answered x.relay y.relay 2 "000000" "a" 299 false := by
  constructor
  · have horder : Transition.Guarded step InOrder (init twoAttempts)
        (guessesBy [("a", 0), ("a", 299), ("a", 299), ("a", 600)]) := by decide +kernel
    have hrested : Transition.Guarded step (Rested "a") (init twoAttempts)
        (guessesBy [("a", 0), ("a", 299), ("a", 299), ("a", 600)]) := by decide +kernel
    have hruns : (Transition.run step (init twoAttempts)
        (guessesBy [("a", 0), ("a", 299), ("a", 299), ("a", 600)])).any (fun x =>
          (Transition.run step (init twoAttempts) (guessesBy [("a", 0), ("b", 0), ("b", 1),
            ("a", 299), ("b", 299), ("a", 299), ("a", 600)])).any fun x' =>
          decide ((x.own "a").length = 4 ∧
            (x.own "a").map BudgetEvent.asked = (x'.own "a").map BudgetEvent.asked)) = true := by
      decide +kernel
    obtain ⟨x, hx, hruns⟩ := (Option.any_eq_true _ _).mp hruns
    obtain ⟨x', hx', hasked⟩ := (Option.any_eq_true _ _).mp hruns
    obtain ⟨hlen, hasked⟩ := of_decide_eq_true hasked
    obtain ⟨hwithin, hothers, -⟩ :=
      guesses_within_budget twoAttemptsEnv twoAttempts rfl "a" _ x hx
    exact ⟨x, x', hx, hx', hlen, hwithin horder hrested 299, hothers _ x' hx' hasked⟩
  · have hruns : (Transition.run step (init twoAttempts)
        (guessesBy [("a", 0), ("a", 299)] ++ [.accept "a"])).any (fun x =>
          (x.step (guessStep 2 299)).any fun _ =>
            decide (x.event (guessStep 2 299) = some (.guess ⟨"a", 299, false⟩))) = true := by
      decide +kernel
    obtain ⟨x, hx, hruns⟩ := (Option.any_eq_true _ _).mp hruns
    obtain ⟨y, hy, hevent⟩ := (Option.any_eq_true _ _).mp hruns
    obtain ⟨c, code, draws, heq, hanswered⟩ :=
      (guesses_within_budget twoAttemptsEnv twoAttempts rfl "a" _ x hx).2.2 _ y _ hy
        (of_decide_eq_true hevent)
    obtain ⟨rfl, hfirst, -⟩ := Step.begin.inj heq
    obtain rfl := Option.some.inj (First.joinByCode.inj hfirst)
    exact ⟨x, y, hx, hy, hanswered⟩

/-- A guess at the start of a window, one at its end and two when it is over:
three get through within one window's length. -/
theorem guesses_exceed_budget : ¬ ∀ (env : Env) (cfg : Config), Load env = .ok cfg →
    ∀ (ip : String) (es : List Step) (x : Guessing), Transition.run step (init cfg) es = some x →
      Transition.Guarded step InOrder (init cfg) es → ∀ start,
        (x.passedWithin ip start cfg.PairingCodeTTL : Int) ≤ cfg.MaxPairingAttempts := by
  intro hall
  have horder : Transition.Guarded step InOrder (init twoAttempts)
      (guessesBy [("a", 0), ("a", 299), ("a", 300), ("a", 300)]) := by decide +kernel
  have hrun : (Transition.run step (init twoAttempts)
      (guessesBy [("a", 0), ("a", 299), ("a", 300), ("a", 300)])).any
      (fun x => decide (x.passedWithin "a" 299 300 = 3)) = true := by decide +kernel
  obtain ⟨x, hx, hthree⟩ := (Option.any_eq_true _ _).mp hrun
  have hle := hall twoAttemptsEnv twoAttempts rfl "a" _ x hx horder 299
  rw [show twoAttempts.PairingCodeTTL = 300 from rfl, of_decide_eq_true hthree] at hle
  exact absurd hle (by decide)

end Guessing

end Quicksend.Server
