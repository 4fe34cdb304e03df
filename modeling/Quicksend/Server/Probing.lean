import Quicksend.Lib.Transition
import Quicksend.Server.Handler

/-!
# What a failed reconnect tells

Two hubs that differ in one session, and a reconnect to it that fails in
both. Whether the session exists is looked up before the limit of the
caller's address, and this order is all that can tell the hubs apart.
-/

namespace Quicksend.Server

namespace Hub

/-- The session that the map has under an id. -/
def session (h : Hub) (id : String) : Option Session :=
  (h.sessions.lookup id).bind fun ref => h.heap[ref]?

/-- The hubs differ in the session `id` at most: in one it may be absent, its
slots may be taken, connected or have other tokens. -/
structure SameBut (id : String) (h h' : Hub) : Prop where
  cfg : h.cfg = h'.cfg
  ipCounts : h.ipCounts = h'.ipCounts
  codes : h.codes = h'.codes
  guesses : h.guesses = h'.guesses
  session : ∀ other, other ≠ id → h.session other = h'.session other

theorem SameBut.full {id : String} {h h' : Hub} (hsame : SameBut id h h') (ip : String) :
    h'.full ip = h.full ip := by
  rw [Hub.full, Hub.full, hsame.cfg, hsame.ipCounts]

variable {h h' : Hub} {id ip : String} {role : Role} {token : Bytes} {conn : ConnId} {now : Time}
  {err : BeginError}

/-- A reconnect fails for the limit of the address when the session is there to
be limited, and else with the one error of all mismatches. -/
theorem reconnect_error (hfail : (h.Reconnect id role token ip conn now).2.1 = .error err) :
    err = if id ∈ h.sessions ∧ h.full ip = true then .tooManySessions
      else .invalidReconnectToken := by
  unfold Reconnect at hfail
  split at hfail
  next habsent =>
    obtain rfl := Except.error.inj hfail
    have hid : ¬ id ∈ h.sessions := AList.lookup_eq_none.mp habsent
    rw [if_neg fun hc => hid hc.1]
  next ref hlookup =>
    have hid : id ∈ h.sessions := AList.lookup_isSome.mp (by rw [hlookup]; rfl)
    split at hfail
    next hfull =>
      obtain rfl := Except.error.inj hfail
      rw [if_pos ⟨hid, hfull⟩]
    next hfull =>
      rw [if_neg fun hc => hfull hc.2]
      split at hfail
      next =>
        obtain rfl := Except.error.inj hfail
        rfl
      next => cases hfail

/-- A reconnect that fails in both hubs fails with the same error if and only if
the address is below its limit, or the session exists in both or in neither. -/
theorem reconnect_errors_agree_iff (h h' : Hub) (id : String) (hsame : SameBut id h h')
    (role : Role) (token : Bytes) (ip : String) (conn conn' : ConnId) (now now' : Time)
    (err err' : BeginError)
    (hfail : (h.Reconnect id role token ip conn now).2.1 = .error err)
    (hfail' : (h'.Reconnect id role token ip conn' now').2.1 = .error err') :
    err = err' ↔ (h.full ip = true → (id ∈ h.sessions ↔ id ∈ h'.sessions)) := by
  rw [reconnect_error hfail, reconnect_error hfail', hsame.full ip]
  by_cases hfull : h.full ip = true
  · by_cases hid : id ∈ h.sessions <;> by_cases hid' : id ∈ h'.sessions <;>
      simp [hfull, hid, hid']
  · simp [hfull]

end Hub

namespace Relay

/-- An address with as many sessions as it may have, and a session whose host
dropped. -/
def crowded : List Event :=
  [.begin "b" .createSession 100 (drawID "p"), .begin "b" .createSession 100 (drawID "q"),
    .begin "a" .createSession 0 (drawID "s"), .readError 2 1]

/-- The crowded run, and after it a round of the reaper that ends the session
asked for. -/
def crowdedReaped : List Event := crowded ++ [.reap 101 ["s", "q", "p"]]

set_option maxRecDepth 4000 in
/-- The two hubs differ in the session that was reaped. A reconnect to it with a
wrong token fails in both, from the crowded address and from another one. -/
theorem crowded_states : ∃ x y, Transition.run next (init smallConfig) crowded = some x ∧
    Transition.run next (init smallConfig) crowdedReaped = some y ∧
    Hub.SameBut "s" x.hub y.hub ∧
    (x.hub.Reconnect "s" .host [] "b" 3 102).2.1 = .error .tooManySessions ∧
    (y.hub.Reconnect "s" .host [] "b" 3 102).2.1 = .error .invalidReconnectToken ∧
    (x.hub.Reconnect "s" .host [] "c" 3 102).2.1 = .error .invalidReconnectToken ∧
    (y.hub.Reconnect "s" .host [] "c" 3 102).2.1 = .error .invalidReconnectToken := by
  refine ⟨_, _, rfl, rfl, ⟨rfl, rfl, rfl, rfl, fun other hother => ?_⟩, rfl, rfl, rfl, rfl⟩
  unfold Hub.session
  exact (congrArg (fun o : Option Nat => o.bind _) (AList.lookup_erase_ne hother)).symm

theorem reconnect_errors_agree_iff_crowded : ∃ x y,
    Transition.run next (init smallConfig) crowded = some x ∧
    Transition.run next (init smallConfig) crowdedReaped = some y ∧
    (BeginError.invalidReconnectToken = .invalidReconnectToken ↔
      (x.hub.full "c" = true → ("s" ∈ x.hub.sessions ↔ "s" ∈ y.hub.sessions))) := by
  obtain ⟨x, y, hx, hy, hsame, -, -, hc, hc'⟩ := crowded_states
  exact ⟨x, y, hx, hy,
    Hub.reconnect_errors_agree_iff x.hub y.hub "s" hsame .host [] "c" 3 3 102 102 _ _ hc hc'⟩

/-- From an address at its limit a failed reconnect tells whether the session
exists. -/
theorem reconnect_probes : ¬ ∀ (cfg : Config) (es es' : List Event) (x y : Relay),
    Transition.run next (init cfg) es = some x → Transition.run next (init cfg) es' = some y →
    ∀ id, Hub.SameBut id x.hub y.hub →
    ∀ (role : Role) (token : Bytes) (ip : String) (conn : ConnId) (now : Time)
      (err err' : BeginError),
      (x.hub.Reconnect id role token ip conn now).2.1 = .error err →
      (y.hub.Reconnect id role token ip conn now).2.1 = .error err' → err = err' := by
  intro hall
  obtain ⟨x, y, hx, hy, hsame, hb, hb', -, -⟩ := crowded_states
  cases hall smallConfig crowded crowdedReaped x y hx hy "s" hsame .host [] "b" 3 102 _ _ hb hb'

end Relay

end Quicksend.Server
