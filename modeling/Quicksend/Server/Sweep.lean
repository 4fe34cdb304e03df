import Quicksend.Server.Goroutines.Tables
import Mathlib.Data.List.Sort

/-!
# The sweep of the tables cannot be observed

Two hubs agree at a time when a sweep at that time makes them the same. What a
guess or a new code session does depends on nothing that a sweep at its own time
deletes, so hubs that agree answer alike and agree afterwards.
-/

namespace Quicksend.Server

namespace Hub

/-- What has not expired at `now` is the same. -/
def AgreeAt (now : Time) (h h' : Hub) : Prop := h.sweep now = h'.sweep now

theorem filter_filter_of_imp {α : Type} {p q : α → Bool} (hpq : ∀ a, q a = true → p a = true)
    (o : Option α) : (o.filter p).filter q = o.filter q := by
  rw [Option.filter_filter]
  congr 1
  funext a
  cases hq : q a with
  | false => exact Bool.and_false _
  | true => rw [hpq a hq, Bool.and_self]

variable {h h' : Hub} {now : Time}

/-- What a sweep deletes, every later one would. -/
theorem sweep_sweep (h : Hub) {later : Time} (hle : now ≤ later) :
    (h.sweep now).sweep later = h.sweep later := by
  unfold sweep
  congr 1
  · funext code
    refine filter_filter_of_imp (fun entry hlive => ?_) (h.codes code)
    simp only [decide_eq_true_eq, gt_iff_lt] at hlive ⊢
    exact fun hnow => hlive (lt_of_lt_of_le hnow hle)
  · funext ip
    refine filter_filter_of_imp (fun b hopen => ?_) (h.guesses ip)
    simp only [decide_eq_true_eq, ge_iff_le] at hopen ⊢
    exact fun hnow => hopen (le_trans hnow (Int.sub_le_sub_right hle _))

theorem AgreeAt.eq (hag : AgreeAt now h h') : h.sweep now = h'.sweep now := hag

theorem AgreeAt.cfg (hag : AgreeAt now h h') : h.cfg = h'.cfg := by
  have hcfg := congrArg Hub.cfg hag.eq
  exact hcfg

theorem AgreeAt.full (hag : AgreeAt now h h') (ip : String) : h.full ip = h'.full ip := by
  have hfull := congrArg (Hub.full · ip) hag.eq
  exact hfull

theorem AgreeAt.mono {later : Time} (hag : AgreeAt now h h') (hle : now ≤ later) :
    AgreeAt later h h' := by
  rw [AgreeAt, ← sweep_sweep h hle, ← sweep_sweep h' hle, hag]

/-- A sweep keeps a hub in agreement. -/
theorem AgreeAt.sweep (hag : AgreeAt now h h') : AgreeAt now (h.sweep now) h' := by
  rw [AgreeAt, sweep_sweep h (le_refl now), hag]

/-! ## What a guess reads of the tables -/

theorem guessBudget_sweep (h : Hub) (ip : String) (now : Time) :
    (h.sweep now).guessBudget ip now = h.guessBudget ip now := by
  unfold guessBudget sweep
  dsimp only
  cases h.guesses ip with
  | none => rfl
  | some b =>
      by_cases hold : now - b.windowStart ≥ h.cfg.PairingCodeTTL
      · simp [Option.filter, hold]
      · simp [Option.filter, hold]

theorem lookUp_sweep (h : Hub) (code ip : String) (now : Time) :
    (h.sweep now).lookUp code ip now = h.lookUp code ip now := by
  unfold lookUp sweep
  dsimp only
  cases h.codes code with
  | none => rfl
  | some entry =>
      by_cases hold : now > entry.expiresAt
      · simp [Option.filter, hold]
      · simp only [Option.filter, hold, not_false_eq_true, decide_true, if_true, if_false]
        rfl

/-! ## What it writes there -/

theorem AgreeAt.setGuess (hag : AgreeAt now h h') (ip : String) (b : Option GuessBudget) :
    AgreeAt now { h with guesses := Function.update h.guesses ip b }
      { h' with guesses := Function.update h'.guesses ip b } := by
  have hset (h : Hub) : ({ h with guesses := Function.update h.guesses ip b } : Hub).sweep now =
      { h.sweep now with
        guesses := Function.update (h.sweep now).guesses ip
          (b.filter fun b => ¬ now - b.windowStart ≥ (h.sweep now).cfg.PairingCodeTTL) } := by
    unfold Hub.sweep
    congr 1
    funext other
    exact Function.apply_update (fun _ o => Option.filter _ o) h.guesses ip b other
  rw [AgreeAt, hset, hset, hag]

theorem AgreeAt.setCode (hag : AgreeAt now h h') (code : String) (entry : Option CodeEntry) :
    AgreeAt now { h with codes := Function.update h.codes code entry }
      { h' with codes := Function.update h'.codes code entry } := by
  have hset (h : Hub) : ({ h with codes := Function.update h.codes code entry } : Hub).sweep now =
      { h.sweep now with
        codes := Function.update (h.sweep now).codes code
          (entry.filter fun entry => ¬ now > entry.expiresAt) } := by
    unfold Hub.sweep
    congr 1
    funext other
    exact Function.apply_update (fun _ o => Option.filter _ o) h.codes code entry other
  rw [AgreeAt, hset, hset, hag]

/-! ## The calls -/

theorem AgreeAt.checkAndRecordGuess (hag : AgreeAt now h h') (ip : String) :
    (h.checkAndRecordGuess ip now).2 = (h'.checkAndRecordGuess ip now).2 ∧
      AgreeAt now (h.checkAndRecordGuess ip now).1 (h'.checkAndRecordGuess ip now).1 := by
  have hbudget : h.guessBudget ip now = h'.guessBudget ip now := by
    rw [← guessBudget_sweep h, ← guessBudget_sweep h', hag]
  unfold Hub.checkAndRecordGuess
  have hmax : h.cfg.MaxPairingAttempts = h'.cfg.MaxPairingAttempts :=
    congrArg Config.MaxPairingAttempts hag.cfg
  rw [hbudget, hmax]
  dsimp only
  split
  next => exact ⟨rfl, hag.setGuess ip _⟩
  next => exact ⟨rfl, hag.setGuess ip _⟩

theorem AgreeAt.resolveCode (hag : AgreeAt now h h') (code ip : String) :
    (h.resolveCode code ip now).2 = (h'.resolveCode code ip now).2 ∧
      AgreeAt now (h.resolveCode code ip now).1 (h'.resolveCode code ip now).1 := by
  obtain ⟨hallowed, hag'⟩ := hag.checkAndRecordGuess ip
  have hlookUp : h.lookUp code ip now = h'.lookUp code ip now := by
    rw [← lookUp_sweep h, ← lookUp_sweep h', hag]
  obtain ⟨g, hg⟩ := checkAndRecordGuess_fst h ip now
  obtain ⟨g', hg'⟩ := checkAndRecordGuess_fst h' ip now
  rw [resolveCode_eq, resolveCode_eq, hallowed, hlookUp]
  split
  next =>
    refine ⟨rfl, ?_⟩
    have hset := hag'.setCode code none
    rw [hg, hg'] at hset ⊢
    exact hset
  next => exact ⟨rfl, hag'⟩

theorem attachGuest_sweep (h : Hub) (ref : Nat) (ip : String) (conn : ConnId) (now t : Time) :
    (h.sweep t).attachGuest ref ip conn now =
      ((h.attachGuest ref ip conn now).1.sweep t, (h.attachGuest ref ip conn now).2) := by
  unfold attachGuest
  have hheap : (h.sweep t).heap[ref]? = h.heap[ref]? := rfl
  rw [hheap]
  cases h.heap[ref]? with
  | none => rfl
  | some s =>
      dsimp only
      cases s.connOf .host with
      | none => rfl
      | some hostConn =>
          dsimp only
          cases s.attach .guest conn ip now <;> rfl

theorem AgreeAt.attachGuest (hag : AgreeAt now h h') (ref : Nat) (ip : String) (conn : ConnId) :
    (h.attachGuest ref ip conn now).2 = (h'.attachGuest ref ip conn now).2 ∧
      AgreeAt now (h.attachGuest ref ip conn now).1 (h'.attachGuest ref ip conn now).1 := by
  have heq := attachGuest_sweep h ref ip conn now now
  rw [hag, attachGuest_sweep h' ref ip conn now now] at heq
  obtain ⟨hhub, hresult⟩ := Prod.mk.inj heq
  exact ⟨hresult.symm, hhub.symm⟩

/-- A guess is answered alike, and leaves the hubs in agreement. -/
theorem AgreeAt.JoinByCode (hag : AgreeAt now h h') (code ip : String) (conn : ConnId) :
    (h.JoinByCode code ip conn now).2 = (h'.JoinByCode code ip conn now).2 ∧
      AgreeAt now (h.JoinByCode code ip conn now).1 (h'.JoinByCode code ip conn now).1 := by
  obtain ⟨hresult, hag'⟩ := hag.resolveCode code ip
  unfold Hub.JoinByCode
  generalize h.resolveCode code ip now = r at hresult hag' ⊢
  generalize h'.resolveCode code ip now = r' at hresult hag' ⊢
  obtain ⟨g, result⟩ := r
  obtain ⟨g', result'⟩ := r'
  obtain rfl : result = result' := hresult
  cases result with
  | error err => exact ⟨rfl, hag'⟩
  | ok ref => exact hag'.attachGuest ref ip conn

/-- The code that `CreateCodeSession` draws, when it comes to that. -/
def drawnCode (h : Hub) (ip : String) (id : Except String String)
    (draws : Fin 20 → Except String (Fin 1000000)) : Option (Except BeginError String) :=
  if h.full ip then none
  else match id with
    | .error _ => none
    | .ok _ => some (h.newUniqueCode (List.ofFn draws))

/-- A new code session, with the same code drawn. -/
theorem AgreeAt.CreateCodeSession (hag : AgreeAt now h h') (ip : String) (conn : ConnId)
    (id : Except String String) {draws draws' : Fin 20 → Except String (Fin 1000000)}
    (hdrawn : h.drawnCode ip id draws = h'.drawnCode ip id draws') :
    AgreeAt now (h.CreateCodeSession ip conn now id draws).1
      (h'.CreateCodeSession ip conn now id draws').1 := by
  unfold drawnCode at hdrawn
  unfold Hub.CreateCodeSession
  rw [hag.full] at hdrawn ⊢
  by_cases hfull : h'.full ip = true
  · rw [if_pos hfull, if_pos hfull]
    exact hag
  · rw [if_neg hfull, if_neg hfull] at hdrawn
    rw [if_neg hfull, if_neg hfull]
    cases id with
    | error err => exact hag
    | ok id =>
        dsimp only at hdrawn ⊢
        have httl : h.cfg.PairingCodeTTL = h'.cfg.PairingCodeTTL :=
          congrArg Config.PairingCodeTTL hag.cfg
        rw [Option.some.inj hdrawn, httl]
        cases h'.newUniqueCode (List.ofFn draws') with
        | error err => exact hag
        | ok code =>
            have hadd : AgreeAt now (h.addSession id ip conn now).1
                (h'.addSession id ip conn now).1 :=
              congrArg (fun g : Hub => (g.addSession id ip conn now).1) hag.eq
            exact hadd.setCode code _

end Hub

/-! ## Runs -/

/-- The calls of a run that look at the tables: creating a code session, and
redeeming a code. -/
inductive Call where
  | create (ip : String) (conn : ConnId) (now : Time) (id : Except String String)
      (draws : Fin 20 → Except String (Fin 1000000))
  | join (code ip : String) (conn : ConnId) (now : Time)

/-- A call, or a sweep between two calls. -/
inductive Swept where
  | call (c : Call)
  | sweep (now : Time)

/-- What a guess is answered: its slot or its error, and what is sent. -/
abbrev Answer := Except BeginError Slot × List Effect

namespace Call

/-- The time at which the call is made. -/
def now : Call → Time
  | .create _ _ now _ _ | .join _ _ _ now => now

/-- The hub after the call; what it answers is left to `answer` and `drawn`. -/
def run (h : Hub) : Call → Hub
  | .create ip conn now id draws => (h.CreateCodeSession ip conn now id draws).1
  | .join code ip conn now => (h.JoinByCode code ip conn now).1

/-- What a redeemed code is answered with; creating a code session is answered
through its code instead. -/
def answer (h : Hub) : Call → Option Answer
  | .create _ _ _ _ _ => none
  | .join code ip conn now => some (h.JoinByCode code ip conn now).2

/-- The code that creating a session draws, which depends on the codes that are in
use. -/
def drawn (h : Hub) : Call → Option (Except BeginError String)
  | .create ip _ _ id draws => h.drawnCode ip id draws
  | .join _ _ _ _ => none

end Call

/-- The same call; what the random source gives may differ. -/
inductive SameCall : Call → Call → Prop where
  | create (ip : String) (conn : ConnId) (now : Time) (id : Except String String)
      (draws draws' : Fin 20 → Except String (Fin 1000000)) :
      SameCall (.create ip conn now id draws) (.create ip conn now id draws')
  | join (code ip : String) (conn : ConnId) (now : Time) :
      SameCall (.join code ip conn now) (.join code ip conn now)

namespace Swept

/-- The time at which the call or the sweep happens. -/
def now : Swept → Time
  | .call c => c.now
  | .sweep now => now

/-- The call itself, or none where the step is a sweep. -/
def call? : Swept → Option Call
  | .call c => some c
  | .sweep _ => none

/-- The hub after the call, or after its expired codes and guessing windows were
deleted. -/
def run (h : Hub) : Swept → Hub
  | .call c => c.run h
  | .sweep now => h.sweep now

end Swept

/-- What the guesses of a run are answered, in order. -/
def answers (h : Hub) : List Swept → List Answer
  | [] => []
  | e :: es => (e.call?.bind (Call.answer h)).toList ++ answers (e.run h) es

/-- The codes drawn in a run, in order. -/
def drawnCodes (h : Hub) : List Swept → List (Except BeginError String)
  | [] => []
  | e :: es => (e.call?.bind (Call.drawn h)).toList ++ drawnCodes (e.run h) es

section

variable {h h' : Hub} {c c' : Call}

/-- Hubs that agree when a call comes draw in the same calls. -/
theorem drawn_isSome (hag : h.AgreeAt c.now h') (hsame : SameCall c c') :
    (c.drawn h).isSome = (c'.drawn h').isSome := by
  cases hsame with
  | join code ip conn now => rfl
  | create ip conn now id draws draws' =>
      change (h.drawnCode ip id draws).isSome = (h'.drawnCode ip id draws').isSome
      unfold Hub.drawnCode
      rw [hag.full]
      by_cases hfull : h'.full ip = true
      · rw [if_pos hfull, if_pos hfull]
      · rw [if_neg hfull, if_neg hfull]
        cases id <;> rfl

/-- They answer alike, and agree after the call. -/
theorem agree_call (hag : h.AgreeAt c.now h') (hsame : SameCall c c')
    (hdrawn : c.drawn h = c'.drawn h') :
    c.answer h = c'.answer h' ∧ (c.run h).AgreeAt c.now (c'.run h') := by
  cases hsame with
  | join code ip conn now =>
      obtain ⟨hresult, hag'⟩ := hag.JoinByCode code ip conn
      exact ⟨congrArg some hresult, hag'⟩
  | create ip conn now id draws draws' => exact ⟨rfl, hag.CreateCodeSession ip conn id hdrawn⟩

end

/-- Two lists that begin with an optional element each, both or neither. -/
theorem toList_append_inj {α : Type} {o o' : Option α} {as bs : List α}
    (hsome : o.isSome = o'.isSome) (heq : o.toList ++ as = o'.toList ++ bs) : o = o' ∧ as = bs := by
  cases o with
  | none =>
      cases o' with
      | none => exact ⟨rfl, heq⟩
      | some b => cases hsome
  | some a =>
      cases o' with
      | none => cases hsome
      | some b =>
          obtain ⟨rfl, hrest⟩ := List.cons.inj heq
          exact ⟨rfl, hrest⟩

/-- The simulation, from hubs that agree whenever something happens. -/
theorem answers_eq {h h' : Hub} {es : List Swept} {cs : List Call}
    (hagree : ∀ e ∈ es, h.AgreeAt e.now h')
    (hcalls : List.Forall₂ SameCall (es.filterMap Swept.call?) cs)
    (htimes : (es.map Swept.now).Pairwise (· ≤ ·))
    (hdrawn : drawnCodes h es = drawnCodes h' (cs.map .call)) :
    answers h es = answers h' (cs.map .call) := by
  induction es generalizing h h' cs with
  | nil =>
      cases hcalls
      rfl
  | cons e es ih =>
      have hnow := hagree e List.mem_cons_self
      obtain ⟨hle, hrest⟩ := List.pairwise_cons.mp htimes
      have hlater : ∀ e' ∈ es, e.now ≤ e'.now := fun e' he' => hle _ (List.mem_map_of_mem he')
      cases e with
      | sweep now =>
          exact ih (fun e' he' => hnow.sweep.mono (hlater e' he')) hcalls hrest hdrawn
      | call c =>
          cases cs with
          | nil => cases hcalls
          | cons c' cs =>
              obtain ⟨hsame, hcalls⟩ := List.forall₂_cons.mp hcalls
              obtain ⟨hcode, hdrawn⟩ := toList_append_inj (drawn_isSome hnow hsame) hdrawn
              obtain ⟨hanswer, hag⟩ := agree_call hnow hsame hcode
              have heq := ih (fun e' he' => hag.mono (hlater e' he')) hcalls hrest hdrawn
              exact congrArg₂ (fun o as => Option.toList o ++ as) hanswer heq

/-- **The sweep is unobservable.** A run with sweeps at any moments and the run of
its calls alone, in which the same codes are drawn, answer every guess alike. -/
theorem sweep_unobservable (h : Hub) (es : List Swept) (cs : List Call)
    (hcalls : List.Forall₂ SameCall (es.filterMap Swept.call?) cs)
    (htimes : (es.map Swept.now).Pairwise (· ≤ ·))
    (hdrawn : drawnCodes h es = drawnCodes h (cs.map .call)) :
    answers h es = answers h (cs.map .call) :=
  answers_eq (fun _ _ => rfl) hcalls htimes hdrawn

/-- The call by which a host creates a session whose code comes out as the ninth. -/
def ninthHost : Call := .create "b" 0 0 (.ok "s") fun _ => .ok ⟨9, by decide⟩

/-- A host, a wrong guess, and a guess at the code after it expired. -/
def guessedLate : List Call :=
  [ninthHost, .join "000008" "a" 1 10, .join "000009" "a" 2 301, .join "000009" "a" 3 310]

/-- With sweeps at the instants of expiry and after them. -/
def guessedLateSwept : List Swept :=
  [.call ninthHost, .call (.join "000008" "a" 1 10), .sweep 300, .sweep 301,
    .call (.join "000009" "a" 2 301), .sweep 310, .call (.join "000009" "a" 3 310)]

theorem sweep_unobservable_guessedLate :
    answers (Hub.new Relay.smallConfig) guessedLateSwept =
      answers (Hub.new Relay.smallConfig) (guessedLate.map .call) :=
  sweep_unobservable _ guessedLateSwept guessedLate
    (.cons (.create ..) (.cons (.join ..) (.cons (.join ..) (.cons (.join ..) .nil))))
    (by decide) (by decide +kernel)

end Quicksend.Server
