import Quicksend.Server.Goroutines
import Quicksend.Server.Ownership

/-!
# What one step of the goroutines can do

The inversion of `Goroutines.step`: one constructor for each critical section
and for each kind of action, with what it read.
-/

namespace Quicksend.Server

/-! ## The sections of a handler that begins -/

/-- The first critical section of the entry operations. -/
inductive Enter (h : Hub) (first : First) (ip : String) (conn : ConnId) (draws : Draws) :
    Hub → Pc → List Action → Prop where
  | created (h' : Hub) (id : String) (s : Session) (m : Control) (hfull : h.full ip = false)
      (hdraw : draws.id = .ok id) (hid : s.ID = id)
      (hs : s.connAndIP = Function.update (fun _ : Role => none) .host (some (conn, ip)))
      (hheap : h'.heap = h.heap ++ [s]) (hsessions : h'.sessions = h.sessions.insert id h.heap.length)
      (hcounts : h'.ipCounts = (h.take ip).ipCounts) (hcfg : h'.cfg = h.cfg)
      (hfirst : first = .createSession ∨ first = .createCodeSession)
      (hm : (∃ id, m = .sessionCreated id) ∨ ∃ code at_, m = .codeSessionCreated code at_) :
      Enter h first ip conn draws h' (.serving ⟨h.heap.length, .host⟩) [.send conn (.control m)]
  | joining (h' : Hub) (ref : Nat) (id : String) (hb : SameBooks h h') (hcfg : h'.cfg = h.cfg)
      (hfull : h.full ip = false) (hid : h.sessions.lookup id = some ref)
      (hfirst : (∃ id, first = .join id) ∨ ∃ code, first = .joinByCode code) :
      Enter h first ip conn draws h' (.joining ref) []
  | resuming (slot : Slot) (token : Bytes) (id : String) (hfull : h.full ip = false)
      (hid : h.sessions.lookup id = some slot.ref)
      (hfirst : ∃ payload, first = .reconnect (some payload) ∧
        parseRole payload.role = some slot.role ∧ decodeString payload.tokenHex = some token) :
      Enter h first ip conn draws h (.resuming slot token) []
  | refused (h' : Hub) (err : BeginError) (hb : SameBooks h h') (hcfg : h'.cfg = h.cfg) :
      Enter h first ip conn draws h' .refused (refuse conn first err).2

section Enter

variable {h : Hub} {first : First} {ip : String} {conn : ConnId} {now : Time} {draws : Draws}

theorem addSession_enter (id : String) (m : Control) (hfull : h.full ip = false)
    (hdraw : draws.id = .ok id)
    (hfirst : first = .createSession ∨ first = .createCodeSession)
    (hm : (∃ id, m = .sessionCreated id) ∨ ∃ code at_, m = .codeSessionCreated code at_)
    {h' : Hub} (hheap : h'.heap = (h.addSession id ip conn now).1.heap)
    (hsessions : h'.sessions = (h.addSession id ip conn now).1.sessions)
    (hcounts : h'.ipCounts = (h.addSession id ip conn now).1.ipCounts) (hcfg : h'.cfg = h.cfg) :
    Enter h first ip conn draws h' (.serving (h.addSession id ip conn now).2)
      [.send conn (.control m)] := by
  obtain ⟨s, hs⟩ : ∃ s, (Session.new id now).attach .host conn ip now = some s := ⟨_, rfl⟩
  obtain ⟨-, hid, hslots⟩ := Session.attach_spec hs
  refine .created h' id s m hfull hdraw hid hslots ?_ hsessions hcounts hcfg hfirst hm
  rw [hheap, Hub.addSession, hs]
  rfl

theorem findSession_ok {id : String} {ref : Nat} (hok : h.findSession id ip = .ok ref) :
    h.sessions.lookup id = some ref ∧ h.full ip = false := by
  unfold Hub.findSession at hok
  split at hok
  next => cases hok
  next ref' hid =>
    split at hok
    next => cases hok
    next hfull =>
      obtain rfl : ref' = ref := by injection hok
      exact ⟨hid, by simpa using hfull⟩

theorem findResumable_ok {id : String} {ref : Nat} (hok : h.findResumable id ip = .ok ref) :
    h.sessions.lookup id = some ref ∧ h.full ip = false := by
  unfold Hub.findResumable at hok
  split at hok
  next => cases hok
  next ref' hid =>
    split at hok
    next => cases hok
    next hfull =>
      obtain rfl : ref' = ref := by injection hok
      exact ⟨hid, by simpa using hfull⟩

theorem checkAndRecordGuess_cfg (h : Hub) (ip : String) (now : Time) :
    (h.checkAndRecordGuess ip now).1.cfg = h.cfg := by
  unfold Hub.checkAndRecordGuess
  dsimp only
  split <;> rfl

theorem resolveCode_cfg (h : Hub) (code ip : String) (now : Time) :
    (h.resolveCode code ip now).1.cfg = h.cfg := by
  have hcfg := checkAndRecordGuess_cfg h ip now
  unfold Hub.resolveCode
  generalize h.checkAndRecordGuess ip now = r at hcfg
  obtain ⟨g, allowed⟩ := r
  cases allowed with
  | false => exact hcfg
  | true =>
      simp only [Bool.not_true, Bool.false_eq_true, if_false]
      split
      next => exact hcfg
      next =>
        split
        next => exact hcfg
        next =>
          split
          next => exact hcfg
          next => split <;> exact hcfg

/-- A code that is resolved leads to a listed session. -/
theorem resolveCode_ok {code : String} {ref : Nat} (hok : (h.resolveCode code ip now).2 = .ok ref) :
    (∃ id, h.sessions.lookup id = some ref) ∧ h.full ip = false := by
  have hb := checkAndRecordGuess_books h ip now
  have hcfg := checkAndRecordGuess_cfg h ip now
  unfold Hub.resolveCode at hok
  generalize h.checkAndRecordGuess ip now = r at hb hcfg hok
  obtain ⟨g, allowed⟩ := r
  cases allowed with
  | false => cases hok
  | true =>
      simp only [Bool.not_true, Bool.false_eq_true, if_false] at hok
      split at hok
      next => cases hok
      next entry _ =>
        split at hok
        next => cases hok
        next =>
          split at hok
          next => cases hok
          next hfull =>
            split at hok
            next => cases hok
            next ref' hid =>
              obtain rfl : ref' = ref := by injection hok
              refine ⟨⟨entry.sessionID, hb.sessions ▸ hid⟩, ?_⟩
              have hsame : Hub.full { g with codes := Function.update g.codes code none } ip =
                  h.full ip := by
                rw [Hub.full, Hub.full, hb.ipCounts, hcfg]
              rw [← hsame]
              simpa using hfull

theorem createSession_enter (hfirst : first = .createSession) {h' : Hub} {pc : Pc}
    {todo : List Action}
    (he : enter.created first conn (h.CreateSession ip conn now draws.id) = (h', pc, todo)) :
    Enter h first ip conn draws h' pc todo := by
  unfold Hub.CreateSession at he
  split at he
  next =>
    cases he
    exact .refused _ _ (.refl h) rfl
  next hfull =>
    split at he
    next =>
      cases he
      exact .refused _ _ (.refl h) rfl
    next id hdraw =>
      cases he
      exact addSession_enter id (.sessionCreated id) (by simpa using hfull) hdraw (.inl hfirst)
        (.inl ⟨id, rfl⟩) rfl rfl rfl rfl

theorem createCodeSession_enter (hfirst : first = .createCodeSession) {h' : Hub} {pc : Pc}
    {todo : List Action}
    (he : enter.created first conn (h.CreateCodeSession ip conn now draws.id draws.codes) =
      (h', pc, todo)) : Enter h first ip conn draws h' pc todo := by
  unfold Hub.CreateCodeSession at he
  split at he
  next =>
    cases he
    exact .refused _ _ (.refl h) rfl
  next hfull =>
    split at he
    next =>
      cases he
      exact .refused _ _ (.refl h) rfl
    next id hdraw =>
      split at he
      next =>
        cases he
        exact .refused _ _ (.refl h) rfl
      next code _ =>
        cases he
        exact addSession_enter id (.codeSessionCreated code _) (by simpa using hfull) hdraw
          (.inr hfirst) (.inr ⟨code, _, rfl⟩) rfl rfl rfl rfl

theorem enter_spec {h' : Hub} {pc : Pc} {todo : List Action}
    (he : enter h first ip conn now draws = (h', pc, todo)) :
    Enter h first ip conn draws h' pc todo := by
  unfold enter at he
  split at he
  · exact createSession_enter rfl he
  · exact createCodeSession_enter rfl he
  · next id =>
      cases hfind : h.findSession id ip with
      | ok ref =>
          rw [hfind] at he
          cases he
          obtain ⟨hid, hfull⟩ := findSession_ok hfind
          exact .joining _ ref id (.refl h) rfl hfull hid (.inl ⟨id, rfl⟩)
      | error err =>
          rw [hfind] at he
          cases he
          exact .refused _ err (.refl h) rfl
  · next code =>
      have hb := resolveCode_books h code ip now
      have hcfg := resolveCode_cfg h code ip now
      cases hresolve : (h.resolveCode code ip now).2 with
      | ok ref =>
          obtain ⟨⟨id, hid⟩, hfull⟩ := resolveCode_ok hresolve
          dsimp only at he
          rw [hresolve] at he
          cases he
          -- the guess is on the books whether or not the code is found
          exact .joining _ ref id hb hcfg hfull hid (.inr ⟨code, rfl⟩)
      | error err =>
          dsimp only at he
          rw [hresolve] at he
          cases he
          exact .refused _ err hb hcfg
  · next payload =>
      split at he
      next role token hrole htoken =>
        cases hfind : h.findResumable payload.sessionID ip with
        | ok ref =>
            rw [hfind] at he
            cases he
            obtain ⟨hid, hfull⟩ := findResumable_ok hfind
            exact .resuming ⟨ref, role⟩ token payload.sessionID hfull hid
              ⟨payload, rfl, hrole, htoken⟩
        | error err =>
            rw [hfind] at he
            cases he
            exact .refused _ err (.refl h) rfl
      next =>
        cases he
        exact .refused _ _ (.refl h) rfl
  all_goals
    cases he
    exact .refused _ _ (.refl h) rfl

end Enter

/-- Inside an entry operation, with no slot yet. -/
def Pc.entering : Pc → Bool
  | .joining _ | .attaching _ _ | .resuming _ _ => true
  | .fresh | .serving _ | .ended _ | .left _ | .refused => false

/-- The later critical sections of the entry operations. -/
inductive Attach (h : Hub) (first : First) (ip : String) (conn : ConnId) (now : Time) :
    Pc → Hub → Pc → List Action → Prop where
  | found (ref : Nat) (hostConn : ConnId) (hconn : h.connAt ⟨ref, .host⟩ = some hostConn) :
      Attach h first ip conn now (.joining ref) h (.attaching ref hostConn) []
  | joined (ref : Nat) (hostConn : ConnId) (s t : Session) (hs : h.heap[ref]? = some s)
      (ht : s.attach .guest conn ip now = some t) :
      Attach h first ip conn now (.attaching ref hostConn) (h.setSession ref t)
        (.serving ⟨ref, .guest⟩)
        [.take ip, .send hostConn (.control (.paired t.ID)), .send conn (.control (.paired t.ID))]
  | resumed (slot : Slot) (token : Bytes) (s t : Session) (hs : h.heap[slot.ref]? = some s)
      (ht : s.reattach slot.role token conn ip now = some t) :
      Attach h first ip conn now (.resuming slot token) (h.setSession slot.ref t) (.serving slot)
        [.take ip, .tell slot.other (.control .peerReconnected), .send conn (.control .reconnected)]
  | refused (pc : Pc) (err : BeginError) (hpc : pc.entering = true) :
      Attach h first ip conn now pc h .refused (refuse conn first err).2

theorem attachNext_spec {h h' : Hub} {first : First} {ip : String} {conn : ConnId} {now : Time}
    {pc pc' : Pc} {todo : List Action}
    (ha : attachNext h pc first ip conn now = some (h', pc', todo)) :
    Attach h first ip conn now pc h' pc' todo := by
  unfold attachNext at ha
  split at ha
  next ref =>
    split at ha
    next =>
      cases ha
      exact .refused _ .sessionNotFound rfl
    next hostConn hconn =>
      cases ha
      exact .found ref hostConn hconn
  next ref hostConn =>
    split at ha
    next => cases ha
    next s hs =>
      split at ha
      next =>
        cases ha
        exact .refused _ .sessionFull rfl
      next t ht =>
        cases ha
        exact .joined ref hostConn s t hs ht
  next slot token =>
    split at ha
    next => cases ha
    next s hs =>
      split at ha
      next =>
        cases ha
        exact .refused _ .invalidReconnectToken rfl
      next t ht =>
        cases ha
        exact .resumed slot token s t hs ht
  all_goals cases ha

namespace Goroutines

variable {x y : Goroutines}

/-- What is left to do when a handler's read failed. -/
def leaveActions (c : ConnId) (other : Option ConnId) (ip : String) : List Action :=
  .release ip :: ((other.map fun o => Action.send o (.control .peerDisconnected)).toList
    ++ [.close c "connection closed"])

/-- All that a step of the relay can do, one constructor for each kind of step
with its guards, so that no proof has to unfold `step`. -/
inductive Steps (x : Goroutines) : Step → Goroutines → Prop where
  | accepted (ip : String) :
      Steps x (.accept ip) { x with threads := x.threads ++ [Thread.accept ip] }
  | begun (c : ConnId) (first : First) (now : Time) (draws : Draws) (t : Thread) (h : Hub) (pc : Pc)
      (todo : List Action) (ht : x.threads[c]? = some t) (hfresh : t.pc = .fresh)
      (he : Enter x.hub first t.ip c draws h pc todo)
      (henter : enter x.hub first t.ip c now draws = (h, pc, todo)) :
      Steps x (.begin c first now draws)
        ((x.setHub h).modify c fun t => { t.goto pc todo with first := some first })
  | attached (c : ConnId) (now : Time) (t : Thread) (first : First) (h : Hub) (pc : Pc)
      (todo : List Action) (ht : x.threads[c]? = some t) (hfirst : t.first = some first)
      (ha : Attach x.hub first t.ip c now t.pc h pc todo)
      (hnext : attachNext x.hub t.pc first t.ip c now = some (h, pc, todo)) :
      Steps x (.attach c now) ((x.setHub h).modify c (Thread.goto pc todo))
  | acted (c : ConnId) (t : Thread) (a : Action) (todo : List Action)
      (ht : x.threads[c]? = some t) (htodo : t.todo = a :: todo) :
      Steps x (.act c) ((x.perform a).1.modify c (Thread.setTodo ((x.perform a).2 ++ todo)))
  | received (c : ConnId) (msg : Incoming) (now : Time) (t : Thread) (slot : Slot) (s : Session)
      (ht : x.threads[c]? = some t) (hpc : t.pc = .serving slot) (htodo : t.todo = [])
      (hs : x.hub.heap[slot.ref]? = some s) :
      Steps x (.frame c msg now)
        ((x.setHub (receive x.hub c slot s msg now).1).modify c
          (Thread.goto (receive x.hub c slot s msg now).2.1 (receive x.hub c slot s msg now).2.2))
  | dropped (c : ConnId) : Steps x (.drop c) (x.modify c Thread.shut)
  | left (c : ConnId) (now : Time) (t : Thread) (slot : Slot) (s : Session)
      (ht : x.threads[c]? = some t) (hpc : t.pc = .serving slot) (htodo : t.todo = [])
      (hs : x.hub.heap[slot.ref]? = some s) :
      Steps x (.readError c now)
        ((x.setHub (x.hub.setSession slot.ref (s.markDisconnected slot.role now).1)).modify c
          (Thread.goto (.left slot) (leaveActions c (s.markDisconnected slot.role now).2.1
            (s.markDisconnected slot.role now).2.2)))
  | swept (now : Time) (ids : List String) (hidle : x.reaper = .idle) (htodo : x.reaperTodo = []) :
      Steps x (.reap now ids) { x with hub := x.hub.sweep now, reaper := .scanning now ids }
  | looked (pc : ReaperPc) (htodo : x.reaperTodo = [])
      (hfound : ∀ now ids ref, pc = .found now ids ref → ∃ id, x.hub.sessions.lookup id = some ref) :
      Steps x .look { x with reaper := pc }
  | snapped (now : Time) (ids : List String) (ref : Nat) (s : Session)
      (hpc : x.reaper = .found now ids ref) (hs : x.hub.heap[ref]? = some s) :
      Steps x .snap { x with reaper := .scanning now ids, reaperTodo := reapActions x.hub s now }
  | reaperActed (a : Action) (todo : List Action) (htodo : x.reaperTodo = a :: todo) :
      Steps x .reapAct { (x.perform a).1 with reaperTodo := (x.perform a).2 ++ todo }

theorem step_spec {e : Step} (h : step x e = some y) : Steps x e y := by
  cases e with
  | accept ip =>
      obtain rfl := Option.some.inj h
      exact .accepted ip
  | begin c first now draws =>
      unfold step at h
      dsimp only at h
      split at h
      next t ht =>
        split at h
        next hfresh =>
          obtain rfl := Option.some.inj h
          exact .begun c first now draws t _ _ _ ht hfresh (enter_spec rfl) rfl
        next => cases h
      next => cases h
  | attach c now =>
      unfold step at h
      dsimp only at h
      split at h
      next t ht =>
        split at h
        next hub pc todo hbind =>
          obtain rfl := Option.some.inj h
          obtain ⟨first, hfirst, ha⟩ := Option.bind_eq_some_iff.mp hbind
          exact .attached c now t first _ _ _ ht hfirst (attachNext_spec ha) ha
        next => cases h
      next => cases h
  | act c =>
      unfold step at h
      dsimp only at h
      split at h
      next t ht =>
        split at h
        next a todo htodo =>
          obtain rfl := Option.some.inj h
          exact .acted c t a todo ht htodo
        next => cases h
      next => cases h
  | frame c msg now =>
      unfold step at h
      dsimp only at h
      split at h
      next t ht =>
        split at h
        next slot hpc htodo =>
          split at h
          next s hs =>
            obtain rfl := Option.some.inj h
            exact .received c msg now t slot s ht hpc htodo hs
          next => cases h
        next => cases h
      next => cases h
  | drop c =>
      unfold step at h
      dsimp only at h
      split at h
      next =>
        obtain rfl := Option.some.inj h
        exact .dropped c
      next => cases h
  | readError c now =>
      unfold step at h
      dsimp only at h
      split at h
      next t ht =>
        split at h
        next slot hpc htodo =>
          split at h
          next s hs =>
            obtain rfl := Option.some.inj h
            exact .left c now t slot s ht hpc htodo hs
          next => cases h
        next => cases h
      next => cases h
  | reap now ids =>
      unfold step at h
      dsimp only at h
      split at h
      next hidle =>
        obtain rfl := Option.some.inj h
        exact .swept now ids hidle.1 hidle.2.1
      next => cases h
  | look =>
      unfold step at h
      dsimp only at h
      split at h
      next htodo =>
        split at h
        next =>
          obtain rfl := Option.some.inj h
          exact .looked .idle htodo (by simp)
        next now id ids _ =>
          split at h
          next ref hid =>
            obtain rfl := Option.some.inj h
            -- only a session that is in the map is found
            refine .looked (.found now ids ref) htodo fun _ _ ref' heq => ?_
            obtain ⟨-, -, rfl⟩ := ReaperPc.found.inj heq
            exact ⟨id, hid⟩
          next =>
            obtain rfl := Option.some.inj h
            exact .looked (.scanning now ids) htodo (by simp)
        next => cases h
        next => cases h
      next => cases h
  | snap =>
      unfold step at h
      dsimp only at h
      split at h
      next now ids ref hpc =>
        split at h
        next s hs =>
          obtain rfl := Option.some.inj h
          exact .snapped now ids ref s hpc hs
        next => cases h
      next => cases h
      next => cases h
  | reapAct =>
      unfold step at h
      dsimp only at h
      split at h
      next a todo htodo =>
        obtain rfl := Option.some.inj h
        exact .reaperActed a todo htodo
      next => cases h

end Goroutines

end Quicksend.Server
