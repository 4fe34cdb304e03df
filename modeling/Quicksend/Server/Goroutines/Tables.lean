import Quicksend.Server.Goroutines.Orphans

/-!
# The tables of the hub over a step

Of the sessions, the codes and the guess budgets: which critical section
changes which.
-/

namespace Quicksend.Server

/-- The two hubs list the same sessions, codes and guesses; they may differ in
what goes on within a session. -/
structure SameTables (h h' : Hub) : Prop where
  cfg : h'.cfg = h.cfg
  ids : h'.idAt = h.idAt
  sessions : h'.sessions = h.sessions
  codes : h'.codes = h.codes
  guesses : h'.guesses = h.guesses

theorem SameTables.refl (h : Hub) : SameTables h h := ⟨rfl, rfl, rfl, rfl, rfl⟩

/-- The hub has a new session under the id that was drawn. -/
structure Adds (h h' : Hub) (id : String) : Prop where
  cfg : h'.cfg = h.cfg
  heap : ∃ s, s.ID = id ∧ h'.heap = h.heap ++ [s]
  sessions : h'.sessions = h.sessions.insert id h.heap.length
  guesses : h'.guesses = h.guesses

theorem addSession_adds (h : Hub) (id ip : String) (conn : ConnId) (now : Time) :
    Adds h (h.addSession id ip conn now).1 id := by
  obtain ⟨s, hs⟩ : ∃ s, (Session.new id now).attach .host conn ip now = some s := ⟨_, rfl⟩
  obtain ⟨-, hid, -⟩ := Session.attach_spec hs
  refine ⟨rfl, ⟨s, hid, ?_⟩, rfl, rfl⟩
  rw [Hub.addSession, hs]
  rfl

/-- A code that is drawn is not in use. -/
theorem newUniqueCode_ok {h : Hub} {draws : List (Except String (Fin 1000000))} {code : String}
    (hok : h.newUniqueCode draws = .ok code) : h.codes code = none := by
  induction draws with
  | nil => cases hok
  | cons d draws ih =>
      cases d with
      | error err => cases hok
      | ok n =>
          rw [Hub.newUniqueCode] at hok
          split at hok
          next hfree =>
            obtain rfl := Except.ok.inj hok
            exact Option.isNone_iff_eq_none.mp hfree
          next => exact ih hok

/-! ## A guess -/

theorem checkAndRecordGuess_fst (h : Hub) (ip : String) (now : Time) : ∃ guesses,
    (h.checkAndRecordGuess ip now).1 = { h with guesses := guesses } := by
  unfold Hub.checkAndRecordGuess
  dsimp only
  split <;> exact ⟨_, rfl⟩

/-- What a code that is looked up leads to. -/
def Hub.lookUp (h : Hub) (code ip : String) (now : Time) : Except BeginError Nat :=
  match h.codes code with
  | none => .error .invalidCode
  | some entry =>
      if now > entry.expiresAt then .error .invalidCode
      else if h.full ip then .error .tooManySessions
      else match h.sessions.lookup entry.sessionID with
        | none => .error .sessionNotFound
        | some ref => .ok ref

/-- A guess that is let through takes the code out of the table, whatever it
leads to. -/
theorem resolveCode_eq (h : Hub) (code ip : String) (now : Time) :
    h.resolveCode code ip now =
      if (h.checkAndRecordGuess ip now).2 = true then
        ({ (h.checkAndRecordGuess ip now).1 with codes := Function.update h.codes code none },
          h.lookUp code ip now)
      else ((h.checkAndRecordGuess ip now).1, .error .tooManyAttempts) := by
  obtain ⟨guesses, hg⟩ := checkAndRecordGuess_fst h ip now
  unfold Hub.resolveCode Hub.lookUp
  generalize h.checkAndRecordGuess ip now = r at hg
  obtain ⟨g, allowed⟩ := r
  obtain rfl : g = { h with guesses := guesses } := hg
  cases allowed with
  | false => rfl
  | true =>
      simp only [Bool.not_true, Bool.false_eq_true, if_false, if_true]
      cases h.codes code with
      | none => rfl
      | some entry =>
          dsimp only
          by_cases hexpired : now > entry.expiresAt
          · rw [if_pos hexpired, if_pos hexpired]
          · rw [if_neg hexpired, if_neg hexpired]
            by_cases hfull : h.full ip = true
            · exact (if_pos hfull).trans (congrArg _ (if_pos hfull).symm)
            · refine (if_neg hfull).trans (Eq.trans ?_ (congrArg _ (if_neg hfull).symm))
              cases h.sessions.lookup entry.sessionID <;> rfl

/-! ## The sections of a handler that begins -/

/-- The code that the host is about to be told, its session and when it expires. -/
def issuedCode : Pc × List Action → Option (String × Nat × Time)
  | (.serving slot, [.send _ (.control (.codeSessionCreated code expiresAt))]) =>
      some (code, slot.ref, expiresAt)
  | _ => none

/-- What a first message that is no guess makes of the tables. -/
inductive EnterTables (h h' : Hub) (conn : ConnId) (now : Time) (draws : Draws) :
    First → Pc × List Action → Prop where
  | same (first : First) (next : Pc × List Action) (hsame : SameTables h h')
      (hissued : issuedCode next = none) : EnterTables h h' conn now draws first next
  | created (id : String) (next : Pc × List Action) (hdraw : draws.id = .ok id)
      (hadds : Adds h h' id) (hcodes : h'.codes = h.codes) :
      EnterTables h h' conn now draws .createSession next
  | issued (id code : String) (next : Pc × List Action) (hdraw : draws.id = .ok id)
      (hadds : Adds h h' id) (hunused : h.codes code = none)
      (hcodes : h'.codes = Function.update h.codes code (some ⟨id, now + h.cfg.PairingCodeTTL⟩))
      (hissued : issuedCode next = some (code, h.heap.length, now + h.cfg.PairingCodeTTL)) :
      EnterTables h h' conn now draws .createCodeSession next

variable {h h' : Hub} {first : First} {ip : String} {conn : ConnId} {now : Time} {draws : Draws}
  {pc : Pc} {todo : List Action}

theorem createSession_tables
    (he : enter.created first conn (h.CreateSession ip conn now draws.id) = (h', pc, todo)) :
    EnterTables h h' conn now draws .createSession (pc, todo) := by
  unfold Hub.CreateSession at he
  split at he
  next =>
    cases he
    exact .same _ _ (.refl h) rfl
  next =>
    split at he
    next =>
      cases he
      exact .same _ _ (.refl h) rfl
    next id hdraw =>
      cases he
      exact .created id _ hdraw (addSession_adds h id ip conn now) rfl

theorem createCodeSession_tables
    (he : enter.created first conn (h.CreateCodeSession ip conn now draws.id draws.codes) =
      (h', pc, todo)) : EnterTables h h' conn now draws .createCodeSession (pc, todo) := by
  unfold Hub.CreateCodeSession at he
  split at he
  next =>
    cases he
    exact .same _ _ (.refl h) rfl
  next =>
    split at he
    next =>
      cases he
      exact .same _ _ (.refl h) rfl
    next id hdraw =>
      split at he
      next =>
        cases he
        exact .same _ _ (.refl h) rfl
      next code hcode =>
        cases he
        obtain ⟨hcfg, hheap, hsessions, hguesses⟩ := addSession_adds h id ip conn now
        exact .issued id code _ hdraw ⟨hcfg, hheap, hsessions, hguesses⟩ (newUniqueCode_ok hcode)
          rfl rfl

theorem issuedCode_found {ref : Except BeginError Nat} {next : Nat → Pc}
    (he : enter.found first conn ref next = (pc, todo)) : issuedCode (pc, todo) = none := by
  cases ref with
  | ok ref =>
      cases he
      unfold issuedCode
      split
      next heq => cases (Prod.mk.inj heq).2
      next => rfl
  | error err =>
      cases he
      rfl

theorem enter_tables (hguess : ∀ code, first ≠ .joinByCode (some code))
    (he : enter h first ip conn now draws = (h', pc, todo)) :
    EnterTables h h' conn now draws first (pc, todo) := by
  unfold enter at he
  split at he
  · exact createSession_tables he
  · exact createCodeSession_tables he
  · obtain ⟨rfl, hfound⟩ := Prod.mk.inj he
    exact .same _ _ (.refl h) (issuedCode_found hfound)
  · next code => exact absurd rfl (hguess code)
  · split at he
    · obtain ⟨rfl, hfound⟩ := Prod.mk.inj he
      exact .same _ _ (.refl h) (issuedCode_found hfound)
    · cases he
      exact .same _ _ (.refl h) rfl
  all_goals
    cases he
    exact .same _ _ (.refl h) rfl

theorem attach_tables {pc' : Pc} (ha : Attach h first ip conn now pc h' pc' todo) :
    SameTables h h' := by
  cases ha with
  | found => exact .refl h
  | joined ref hostConn s t hs ht =>
      obtain ⟨-, hid, -⟩ := Session.attach_spec ht
      exact ⟨rfl, Goroutines.idAt_set hs hid rfl, rfl, rfl, rfl⟩
  | resumed slot token s t hs ht =>
      obtain ⟨-, hid, -⟩ := Session.reattach_spec ht
      exact ⟨rfl, Goroutines.idAt_set hs hid rfl, rfl, rfl, rfl⟩
  | refused => exact .refl h

namespace Goroutines

variable {x y : Goroutines}

/-- A new session leaves the others where they are. -/
theorem idAt_adds {h h' : Hub} {id : String} (hadds : Adds h h' id) {ref : Nat} {id' : String}
    (hid : h.idAt ref = some id') : h'.idAt ref = some id' := by
  obtain ⟨s, -, hheap⟩ := hadds.heap
  rw [idAt_append hheap, Function.update_of_ne]
  · exact hid
  · rintro rfl
    rw [idAt_new] at hid
    cases hid

theorem named_adds {h h' : Hub} {id : String} (hn : Named h) (hadds : Adds h h' id)
    (hfresh : ∀ s ∈ h.heap, s.ID ≠ id) : Named h' := by
  obtain ⟨s, rfl, hheap⟩ := hadds.heap
  exact hn.insert hfresh hheap hadds.sessions

/-- The guess of a step: whose address, and the clock that was read. -/
def guess (x : Goroutines) : Step → Option (String × Time)
  | .begin c (.joinByCode (some _)) now _ => (x.threads[c]?).map fun t => (t.ip, now)
  | _ => none

/-- The pairing code that a step gives out, with its session and its expiry. -/
def issued (x : Goroutines) : Step → Option (String × Nat × Time)
  | .begin c .createCodeSession now draws => (x.threads[c]?).bind fun t =>
      issuedCode (enter x.hub .createCodeSession t.ip c now draws).2
  | _ => none

/-- The session that a step takes out of the map. -/
def removes (x : Goroutines) : Step → Option String
  | .act c => (x.threads[c]?).bind fun t => removal t.todo
  | .reapAct => removal x.reaperTodo
  | _ => none
where
  removal : List Action → Option String
    | .remove id :: _ => some id
    | _ => none

/-- What a step makes of the tables of sessions, codes and guesses, one
constructor for each kind of change. -/
inductive Tabled (x y : Goroutines) : Step → Prop where
  | same (e : Step) (hsame : SameTables x.hub y.hub) (hguess : x.guess e = none)
      (hreap : ∀ now ids, e ≠ .reap now ids) (hremoves : x.removes e = none)
      (hissued : x.issued e = none) : Tabled x y e
  | created (c : ConnId) (now : Time) (draws : Draws) (id : String) (hdraw : draws.id = .ok id)
      (hadds : Adds x.hub y.hub id) (hcodes : y.hub.codes = x.hub.codes) :
      Tabled x y (.begin c .createSession now draws)
  | issued (c : ConnId) (now : Time) (draws : Draws) (id code : String)
      (hdraw : draws.id = .ok id) (hadds : Adds x.hub y.hub id) (hunused : x.hub.codes code = none)
      (hcodes : y.hub.codes = Function.update x.hub.codes code
        (some ⟨id, now + x.hub.cfg.PairingCodeTTL⟩))
      (hissued : x.issued (.begin c .createCodeSession now draws) =
        some (code, x.hub.heap.length, now + x.hub.cfg.PairingCodeTTL)) :
      Tabled x y (.begin c .createCodeSession now draws)
  | guessed (c : ConnId) (code : String) (now : Time) (draws : Draws) (t : Thread)
      (ht : x.threads[c]? = some t) (hhub : y.hub = (x.hub.resolveCode code t.ip now).1) :
      Tabled x y (.begin c (.joinByCode (some code)) now draws)
  | swept (now : Time) (ids : List String) (hhub : y.hub = x.hub.sweep now) :
      Tabled x y (.reap now ids)
  | removed (e : Step) (id : String) (hremoves : x.removes e = some id)
      (hguess : x.guess e = none) (hreap : ∀ now ids, e ≠ .reap now ids)
      (hissued : x.issued e = none) (hhub : y.hub = x.hub.removeByID id) : Tabled x y e

theorem perform_tables (x : Goroutines) (a : Action) (hnot : ∀ id, a ≠ .remove id) :
    SameTables x.hub (x.perform a).1.hub := by
  cases a with
  | remove id => exact absurd rfl (hnot id)
  | record slot data =>
      refine ⟨?_, idAt_recorded x.hub slot data, ?_, ?_, ?_⟩ <;>
        (simp only [perform, setHub]; unfold recorded; split <;> rfl)
  | _ => exact ⟨rfl, rfl, rfl, rfl, rfl⟩

theorem receive_tables {h : Hub} {slot : Slot} {s : Session} (hs : h.heap[slot.ref]? = some s)
    (c : ConnId) (msg : Incoming) (now : Time) : SameTables h (receive h c slot s msg now).1 := by
  cases msg with
  | endSession => exact .refl h
  | other binary data => exact ⟨rfl, idAt_receive hs c _ now, rfl, rfl, rfl⟩
  | reconnectToken tokenHex =>
      refine ⟨?_, idAt_receive hs c _ now, sessions_receive h c slot s _ now, ?_, ?_⟩ <;>
        (simp only [receive, Relay.handleReconnectToken, Hub.RegisterReconnectToken]
         split
         · rfl
         · split <;> rfl)

theorem tabled_acted {e : Step} (a : Action) (todo : List Action)
    (hremoves : x.removes e = removes.removal (a :: todo)) (hguess : x.guess e = none)
    (hreap : ∀ now ids, e ≠ .reap now ids) (hissued : x.issued e = none)
    (hhub : y.hub = (x.perform a).1.hub) : Tabled x y e := by
  by_cases hremove : ∃ id, a = .remove id
  · obtain ⟨id, rfl⟩ := hremove
    exact .removed e id hremoves hguess hreap hissued hhub
  · have hnot : ∀ id, a ≠ .remove id := fun id heq => hremove ⟨id, heq⟩
    refine .same e (hhub ▸ perform_tables x a hnot) hguess hreap ?_ hissued
    rw [hremoves]
    unfold removes.removal
    split
    next id _ heq => exact absurd (List.cons.inj heq).1 (hnot id)
    next => rfl

theorem tabled_step {e : Step} (hstep : step x e = some y) : Tabled x y e := by
  cases step_spec hstep with
  | accepted => exact .same _ (.refl x.hub) rfl (by simp) rfl rfl
  | begun c first now draws t hub pc todo ht hfresh he henter =>
      -- a guess may delete its code; every other first message goes through `enter_tables`
      by_cases hcode : ∃ code, first = .joinByCode (some code)
      · obtain ⟨code, rfl⟩ := hcode
        exact .guessed c code now draws t ht (congrArg Prod.fst henter).symm
      · have hguess : x.guess (.begin c first now draws) = none := by
          unfold guess
          split
          next code _ _ heq => exact absurd ⟨code, (Step.begin.inj heq).2.1⟩ hcode
          next => rfl
        cases enter_tables (fun code heq => hcode ⟨code, heq⟩) henter with
        | same _ _ hsame hissued =>
            refine .same _ hsame hguess (by simp) rfl ?_
            unfold issued
            split
            next heq =>
              obtain ⟨rfl, rfl, rfl, rfl⟩ := Step.begin.inj heq
              rw [ht, Option.bind_some, henter]
              exact hissued
            next => rfl
        | created id _ hdraw hadds hcodes => exact .created c now draws id hdraw hadds hcodes
        | issued id code _ hdraw hadds hunused hcodes hissued =>
            refine .issued c now draws id code hdraw hadds hunused hcodes ?_
            rw [issued, ht, Option.bind_some, henter]
            exact hissued
  | attached c now t first hub pc todo ht hfirst ha hnext =>
      exact .same _ (attach_tables ha) rfl (by simp) rfl rfl
  | acted c t a todo ht htodo =>
      refine tabled_acted a todo ?_ rfl (by simp) rfl rfl
      rw [removes, ht, Option.bind_some, htodo]
  | received c msg now t slot s ht hpc htodo hs =>
      exact .same _ (receive_tables hs c msg now) rfl (by simp) rfl rfl
  | dropped c => exact .same _ (.refl x.hub) rfl (by simp) rfl rfl
  | left c now t slot s ht hpc htodo hs =>
      refine .same _ ⟨rfl, idAt_set hs ?_ rfl, rfl, rfl, rfl⟩ rfl (by simp) rfl rfl
      unfold Session.markDisconnected
      split <;> rfl
  | swept now ids => exact .swept now ids rfl
  | looked => exact .same _ (.refl x.hub) rfl (by simp) rfl rfl
  | snapped => exact .same _ (.refl x.hub) rfl (by simp) rfl rfl
  | reaperActed a todo htodo =>
      refine tabled_acted a todo ?_ rfl (by simp) rfl rfl
      rw [removes, htodo]

theorem removal_eq_some {todo : List Action} {id : String} (h : removes.removal todo = some id) :
    ∃ rest, todo = .remove id :: rest := by
  unfold removes.removal at h
  split at h
  next id' rest =>
    obtain rfl := Option.some.inj h
    exact ⟨rest, rfl⟩
  next => cases h

/-- A session that is about to be taken out is taken out. -/
theorem step_of_removes {e : Step} {id : String} (hremoves : x.removes e = some id) :
    ∃ y, step x e = some y ∧ y.hub = x.hub.removeByID id := by
  cases e with
  | act c =>
      obtain ⟨t, ht, htodo⟩ := Option.bind_eq_some_iff.mp hremoves
      obtain ⟨rest, htodo⟩ := removal_eq_some htodo
      refine ⟨(x.setHub (x.hub.removeByID id)).modify c (Thread.setTodo rest), ?_, rfl⟩
      unfold step
      simp only [ht, htodo]
      rfl
  | reapAct =>
      obtain ⟨rest, htodo⟩ := removal_eq_some hremoves
      refine ⟨{ x.setHub (x.hub.removeByID id) with reaperTodo := rest }, ?_, rfl⟩
      unfold step
      simp only [htodo]
      rfl
  | _ => cases hremoves

end Goroutines

end Quicksend.Server
