import Quicksend.Server.Goroutines.Tables

/-!
# What a refused entry leaves behind

The five operations by which a connection gets a slot. One that fails has
counted at most a guess and taken at most the code it presented.
-/

namespace Quicksend.Server

/-- An entry operation, with what the caller and the random source give to it. -/
inductive EntryOp where
  | CreateSession (id : Except String String)
  | CreateCodeSession (id : Except String String) (draws : Fin 20 → Except String (Fin 1000000))
  | JoinSession (id : String)
  | JoinByCode (code : String)
  | Reconnect (sessionID : String) (role : Role) (token : Bytes)

namespace EntryOp

/-- Call the entry operation on behalf of a connection from this address, at this
time. -/
def run (e : EntryOp) (h : Hub) (ip : String) (conn : ConnId) (now : Time) : Hub.Begun :=
  match e with
  | .CreateSession id => h.CreateSession ip conn now id
  | .CreateCodeSession id draws => h.CreateCodeSession ip conn now id draws
  | .JoinSession id => h.JoinSession id ip conn now
  | .JoinByCode code => h.JoinByCode code ip conn now
  | .Reconnect sessionID role token => h.Reconnect sessionID role token ip conn now

/-- The pairing code that is presented; only one of the operations takes one. -/
def code : EntryOp → Option String
  | .JoinByCode code => some code
  | .CreateSession _ | .CreateCodeSession _ _ | .JoinSession _ | .Reconnect _ _ _ => none

end EntryOp

/-- The sessions, their slots, files and activity, and the slots counted are as
before. Of the guesses only those of `ip` may differ, and the codes have lost at
most the one that was presented; without one the tables are as before. -/
structure Unmoved (presented : Option String) (ip : String) (h h' : Hub) : Prop where
  cfg : h'.cfg = h.cfg
  heap : h'.heap = h.heap
  sessions : h'.sessions = h.sessions
  ipCounts : h'.ipCounts = h.ipCounts
  guesses : ∀ other, h'.guesses other ≠ h.guesses other → presented.isSome = true ∧ other = ip
  codes : ∀ code, h'.codes code ≠ h.codes code → presented = some code ∧ h'.codes code = none

theorem Unmoved.refl (presented : Option String) (ip : String) (h : Hub) :
    Unmoved presented ip h h :=
  ⟨rfl, rfl, rfl, rfl, fun _ hne => absurd rfl hne, fun _ hne => absurd rfl hne⟩

namespace Hub

variable {h : Hub} {ip : String} {conn : ConnId} {now : Time} {err : BeginError}

theorem createSession_refused {id : Except String String}
    (hfail : (h.CreateSession ip conn now id).2.1 = .error err) :
    h.CreateSession ip conn now id = (h, .error err, []) := by
  unfold CreateSession at hfail ⊢
  split at hfail
  next hfull => rw [if_pos hfull, Except.error.inj hfail]
  next hfull =>
    rw [if_neg hfull]
    cases id with
    | error e =>
        obtain rfl := Except.error.inj hfail
        rfl
    | ok id => cases hfail

theorem createCodeSession_refused {id : Except String String}
    {draws : Fin 20 → Except String (Fin 1000000)}
    (hfail : (h.CreateCodeSession ip conn now id draws).2.1 = .error err) :
    h.CreateCodeSession ip conn now id draws = (h, .error err, []) := by
  unfold CreateCodeSession at hfail ⊢
  split at hfail
  next hfull => rw [if_pos hfull, Except.error.inj hfail]
  next hfull =>
    rw [if_neg hfull]
    cases id with
    | error e =>
        obtain rfl := Except.error.inj hfail
        rfl
    | ok id =>
        dsimp only at hfail ⊢
        split at hfail
        next e he => rw [Except.error.inj hfail]
        next => cases hfail

theorem attachGuest_refused {ref : Nat} (hfail : (h.attachGuest ref ip conn now).2.1 = .error err) :
    h.attachGuest ref ip conn now = (h, .error err, []) := by
  unfold attachGuest at hfail ⊢
  split at hfail
  next =>
    obtain rfl := Except.error.inj hfail
    rfl
  next s hs =>
    split at hfail
    next =>
      obtain rfl := Except.error.inj hfail
      rfl
    next hostConn =>
      split at hfail
      next =>
        obtain rfl := Except.error.inj hfail
        rfl
      next => cases hfail

theorem joinSession_refused {id : String}
    (hfail : (h.JoinSession id ip conn now).2.1 = .error err) :
    h.JoinSession id ip conn now = (h, .error err, []) := by
  unfold JoinSession at hfail ⊢
  split at hfail
  next =>
    obtain rfl := Except.error.inj hfail
    rfl
  next ref hlookup =>
    split at hfail
    next hfull => rw [if_pos hfull, Except.error.inj hfail]
    next hfull =>
      rw [if_neg hfull]
      exact attachGuest_refused hfail

theorem reconnect_refused {sessionID : String} {role : Role} {token : Bytes}
    (hfail : (h.Reconnect sessionID role token ip conn now).2.1 = .error err) :
    h.Reconnect sessionID role token ip conn now = (h, .error err, []) := by
  unfold Reconnect at hfail ⊢
  split at hfail
  next =>
    obtain rfl := Except.error.inj hfail
    rfl
  next ref hlookup =>
    split at hfail
    next hfull => rw [if_pos hfull, Except.error.inj hfail]
    next hfull =>
      rw [if_neg hfull]
      split at hfail
      next =>
        obtain rfl := Except.error.inj hfail
        rfl
      next => cases hfail

/-- A guess counts for its own address. -/
theorem checkAndRecordGuess_unmoved (h : Hub) (code ip : String) (now : Time) :
    Unmoved (some code) ip h (h.checkAndRecordGuess ip now).1 := by
  unfold checkAndRecordGuess
  have hguesses (b : GuessBudget) (other : String)
      (hne : Function.update h.guesses ip (some b) other ≠ h.guesses other) : other = ip := by
    by_contra hother
    exact hne (Function.update_of_ne hother ..)
  dsimp only
  split
  next => exact ⟨rfl, rfl, rfl, rfl, fun _ hne => ⟨rfl, hguesses _ _ hne⟩, fun _ hne => absurd rfl hne⟩
  next => exact ⟨rfl, rfl, rfl, rfl, fun _ hne => ⟨rfl, hguesses _ _ hne⟩, fun _ hne => absurd rfl hne⟩

theorem resolveCode_unmoved (h : Hub) (code ip : String) (now : Time) :
    Unmoved (some code) ip h (h.resolveCode code ip now).1 := by
  have hguess := checkAndRecordGuess_unmoved h code ip now
  obtain ⟨guesses, hg⟩ := checkAndRecordGuess_fst h ip now
  rw [resolveCode_eq]
  split
  next =>
    refine ⟨hguess.cfg, hguess.heap, hguess.sessions, hguess.ipCounts, hguess.guesses,
      fun c hne => ?_⟩
    by_cases hc : c = code
    · rw [hc]
      exact ⟨rfl, Function.update_self ..⟩
    · exact absurd (Function.update_of_ne hc ..) hne
  next => exact hguess

/-- Past the code table, a guess fails as a join does. -/
theorem joinByCode_refused {code : String}
    (hfail : (h.JoinByCode code ip conn now).2.1 = .error err) :
    h.JoinByCode code ip conn now = ((h.resolveCode code ip now).1, .error err, []) := by
  unfold JoinByCode at hfail ⊢
  split at hfail
  next hresolve => rw [Except.error.inj hfail, hresolve]
  next h' ref hresolve => rw [attachGuest_refused hfail, hresolve]

end Hub

/-- **Failed entries change nothing.** An entry operation that returns an error
sends nothing, and leaves the hub as it was but for a guess counted to the caller
and the code that was presented. -/
theorem refused_unmoved (h : Hub) (e : EntryOp) (ip : String) (conn : ConnId) (now : Time)
    (err : BeginError) (hfail : (e.run h ip conn now).2.1 = .error err) :
    Unmoved e.code ip h (e.run h ip conn now).1 ∧ (e.run h ip conn now).2.2 = [] := by
  cases e with
  | CreateSession id =>
      rw [EntryOp.run, Hub.createSession_refused hfail]
      exact ⟨.refl _ _ h, rfl⟩
  | CreateCodeSession id draws =>
      rw [EntryOp.run, Hub.createCodeSession_refused hfail]
      exact ⟨.refl _ _ h, rfl⟩
  | JoinSession id =>
      rw [EntryOp.run, Hub.joinSession_refused hfail]
      exact ⟨.refl _ _ h, rfl⟩
  | JoinByCode code =>
      rw [EntryOp.run, Hub.joinByCode_refused hfail]
      exact ⟨Hub.resolveCode_unmoved h code ip now, rfl⟩
  | Reconnect sessionID role token =>
      rw [EntryOp.run, Hub.reconnect_refused hfail]
      exact ⟨.refl _ _ h, rfl⟩

/-- A guess at a code that expired. -/
theorem refused_unmoved_expired :
    let h : Hub := { Hub.new Relay.smallConfig with
      codes := Function.update (fun _ => none) "000007" (some ⟨"s", 5⟩) }
    Unmoved (some "000007") "a" h (h.JoinByCode "000007" "a" 0 6).1 ∧
      (h.JoinByCode "000007" "a" 0 6).2.2 = [] :=
  refused_unmoved _ (.JoinByCode "000007") "a" 0 6 .invalidCode rfl

end Quicksend.Server
