import Quicksend.Server.Goroutines.Rounds

/-!
# A session in use survives the reaper

One session is watched: when somebody last came to it or was relayed, and since
when its slots are left. While neither is longer ago than its timeout whenever
the reaper looks, the session stays in the map.
-/

namespace Quicksend.Server

/-- When somebody last came or was relayed, and who has dropped since when. -/
structure Visits where
  last : Time
  left : Role → Option Time

/-- The session is within both of its timeouts at this time, as far as these
visits tell. -/
def Visits.Current (v : Visits) (cfg : Config) (now : Time) : Prop :=
  now - v.last < cfg.SessionInactivityTimeout ∧
    ∀ role, ∀ since ∈ v.left role, now - since < cfg.ReconnectGracePeriod

instance (v : Visits) (cfg : Config) (now : Time) : Decidable (v.Current cfg now) :=
  inferInstanceAs (Decidable (_ ∧ _))

/-- The relay, and what happened to one session once it was there. -/
structure Watched where
  relay : Goroutines
  visits : Option Visits

namespace Goroutines

variable {x y : Goroutines} {ref : Nat}

/-- The visits of session `ref` after a critical section. -/
def visit (ref : Nat) (x y : Goroutines) (visits : Option Visits) : Step → Option Visits
  | .begin _ _ now _ =>
      if x.hub.heap.length = ref ∧ y.hub.heap.length = ref + 1 then some ⟨now, fun _ => none⟩
      else visits
  | .attach c now =>
      match y.held c with
      | some slot =>
          if slot.ref = ref then
            visits.map fun v => ⟨now, Function.update v.left slot.role none⟩
          else visits
      | none => visits
  | .frame c (.other _ _) now =>
      match x.held c with
      | some slot => if slot.ref = ref then visits.map ({ · with last := now }) else visits
      | none => visits
  | .readError c now =>
      match x.held c with
      | some slot =>
          if slot.ref = ref then
            visits.map fun v => { v with left := Function.update v.left slot.role (some now) }
          else visits
      | none => visits
  | _ => visits

theorem visit_attach {visits : Option Visits} {c : ConnId} {now : Time} {slot : Slot}
    (hheld : y.held c = some slot) : visit ref x y visits (.attach c now) =
      if slot.ref = ref then visits.map fun v => ⟨now, Function.update v.left slot.role none⟩
      else visits := by
  simp only [visit, hheld]

theorem visit_attach_none {visits : Option Visits} {c : ConnId} {now : Time}
    (hheld : y.held c = none) : visit ref x y visits (.attach c now) = visits := by
  simp only [visit, hheld]

theorem visit_frame {visits : Option Visits} {c : ConnId} {binary : Bool} {data : Bytes}
    {now : Time} {slot : Slot} (hheld : x.held c = some slot) :
    visit ref x y visits (.frame c (.other binary data) now) =
      if slot.ref = ref then visits.map ({ · with last := now }) else visits := by
  simp only [visit, hheld]

theorem visit_readError {visits : Option Visits} {c : ConnId} {now : Time} {slot : Slot}
    (hheld : x.held c = some slot) : visit ref x y visits (.readError c now) =
      if slot.ref = ref then
        visits.map fun v => { v with left := Function.update v.left slot.role (some now) }
      else visits := by
  simp only [visit, hheld]

/-- The last activity and the drops of a session are its visits. -/
def Fits (s : Session) (v : Visits) : Prop :=
  s.lastActivity = v.last ∧
    ∀ role p since, s.peers role = some p → p.disconnectedAt = some since → v.left role = some since

/-- Session ids are drawn once, nobody ends the session, and the reaper looks at
it while it is within its timeouts. -/
def InUse (ref : Nat) (x : Goroutines) (visits : Option Visits) : Step → Prop
  | .begin _ _ _ draws =>
      match draws.id with
      | .ok id => ∀ s ∈ x.hub.heap, s.ID ≠ id
      | .error _ => True
  | .frame c .endSession _ => ∀ slot ∈ x.held c, slot.ref ≠ ref
  | .snap =>
      match x.reaper with
      | .found now _ r => r = ref → ∀ v ∈ visits, v.Current x.hub.cfg now
      | .idle | .scanning _ _ => True
  | _ => True

instance (ref : Nat) (x : Goroutines) (visits : Option Visits) :
    (e : Step) → Decidable (x.InUse ref visits e)
  | .begin _ _ _ draws =>
      match h : draws.id with
      | .ok id => decidable_of_iff (∀ s ∈ x.hub.heap, s.ID ≠ id) (by rw [InUse, h])
      | .error _ => .isTrue (by rw [InUse, h]; trivial)
  | .frame c .endSession _ => inferInstanceAs (Decidable (∀ slot ∈ x.held c, slot.ref ≠ ref))
  | .snap =>
      match h : x.reaper with
      | .found now _ r =>
          decidable_of_iff (r = ref → ∀ v ∈ visits, v.Current x.hub.cfg now) (by rw [InUse, h])
      | .idle => .isTrue (by rw [InUse, h]; trivial)
      | .scanning _ _ => .isTrue (by rw [InUse, h]; trivial)
  | .accept .. | .attach .. | .act .. | .frame _ (.reconnectToken _) _ | .frame _ (.other _ _) _
  | .drop .. | .readError .. | .reap .. | .look | .reapAct => .isTrue trivial

end Goroutines

namespace Watched

/-- A relay that has just started; the reaper has not looked at any session. -/
def init (cfg : Config) : Watched := { relay := Goroutines.init cfg, visits := none }

/-- A round of the relay, with what the reaper's own loop saw of session `ref`
kept for as long as it may act on it. -/
def next (ref : Nat) (w : Watched) (r : Round) : Option Watched :=
  (w.relay.round r).map fun y =>
    { relay := y
      visits := match r with
        | .step e => Goroutines.visit ref w.relay y w.visits e
        | .reapOnce _ _ => w.visits }

/-- In this round the session is not given up on: whatever the reaper saw of it is
no reason to end it. -/
def InUse (ref : Nat) (w : Watched) : Round → Prop
  | .step e => w.relay.InUse ref w.visits e
  | .reapOnce now _ => ∀ v ∈ w.visits, v.Current w.relay.hub.cfg now

instance (ref : Nat) (w : Watched) : (r : Round) → Decidable (w.InUse ref r)
  | .step e => inferInstanceAs (Decidable (w.relay.InUse ref w.visits e))
  | .reapOnce now _ => inferInstanceAs (Decidable (∀ v ∈ w.visits, v.Current w.relay.hub.cfg now))

end Watched

namespace Goroutines

variable {x y : Goroutines} {ref : Nat} {h h' : Hub} {s t : Session} {v : Visits} {e : Step}
  {visits : Option Visits}

/-! ## A session that is visited -/

/-- A session within its timeouts is not reaped. -/
theorem Fits.kept {cfg : Config} {now : Time} (hfit : Fits s v) (hcurrent : v.Current cfg now) :
    ¬ s.Idle cfg now ∧ ¬ s.Forsaken cfg now := by
  refine ⟨fun hidle => ?_, ?_⟩
  · rw [Session.Idle, hfit.1] at hidle
    exact absurd hcurrent.1 (not_lt.mpr hidle)
  · rintro ⟨role, p, hp, since, hsince, hlong⟩
    exact absurd (hcurrent.2 role since (hfit.2 role p since hp hsince)) (not_lt.mpr hlong)

/-- Somebody takes a slot. -/
theorem Fits.visited {now : Time} {role : Role} {p : Peer} (hfit : Fits s v)
    (hlast : t.lastActivity = now) (hpeers : t.peers = Function.update s.peers role (some p))
    (hp : p.disconnectedAt = none) :
    Fits t ⟨now, Function.update v.left role none⟩ := by
  refine ⟨hlast, fun role' p' since hp' hsince => ?_⟩
  rw [hpeers] at hp'
  by_cases heq : role' = role
  · rw [heq, Function.update_self] at hp'
    obtain rfl := Option.some.inj hp'
    rw [hp] at hsince
    cases hsince
  · rw [Function.update_of_ne heq] at hp'
    exact (Function.update_of_ne heq ..).trans (hfit.2 role' p' since hp' hsince)

theorem Fits.attach {conn : ConnId} {ip : String} {now : Time} {role : Role} (hfit : Fits s v)
    (ht : s.attach role conn ip now = some t) :
    Fits t ⟨now, Function.update v.left role none⟩ := by
  unfold Session.attach at ht
  split at ht
  next => cases ht
  next =>
    obtain rfl := Option.some.inj ht
    exact hfit.visited rfl rfl rfl

theorem Fits.reattach {conn : ConnId} {ip : String} {now : Time} {role : Role} {token : Bytes}
    (hfit : Fits s v) (ht : s.reattach role token conn ip now = some t) :
    Fits t ⟨now, Function.update v.left role none⟩ := by
  unfold Session.reattach at ht
  split at ht
  next => cases ht
  next p hp =>
    split at ht
    next => cases ht
    next =>
      split at ht
      next => cases ht
      next =>
        obtain rfl := Option.some.inj ht
        exact hfit.visited rfl rfl rfl

theorem Fits.touch (hfit : Fits s v) (now : Time) :
    Fits (s.touch now) { v with last := now } := ⟨rfl, hfit.2⟩

theorem Fits.markDisconnected (hfit : Fits s v) (role : Role) (now : Time) :
    Fits (s.markDisconnected role now).1
      { v with left := Function.update v.left role (some now) } := by
  unfold Session.markDisconnected
  split
  next p hp =>
    refine ⟨hfit.1, fun role' p' since hp' hsince => ?_⟩
    dsimp only at hp' ⊢
    by_cases heq : role' = role
    · rw [heq, Function.update_self] at hp'
      obtain rfl := Option.some.inj hp'
      rw [heq, Function.update_self]
      exact hsince
    · rw [Function.update_of_ne heq] at hp'
      rw [Function.update_of_ne heq]
      exact hfit.2 role' p' since hp' hsince
  next hnone =>
    refine ⟨hfit.1, fun role' p' since hp' hsince => ?_⟩
    dsimp only at hp' ⊢
    have heq : role' ≠ role := by
      rintro rfl
      rw [hnone] at hp'
      cases hp'
    rw [Function.update_of_ne heq]
    exact hfit.2 role' p' since hp' hsince

theorem Fits.setReconnectToken (hfit : Fits s v) (role : Role) (token : Bytes) :
    Fits (s.setReconnectToken role token) v := by
  unfold Session.setReconnectToken
  split
  next p hp =>
    refine ⟨hfit.1, fun role' p' since hp' hsince => ?_⟩
    dsimp only at hp'
    by_cases heq : role' = role
    · rw [heq, Function.update_self] at hp'
      obtain rfl := Option.some.inj hp'
      rw [heq]
      exact hfit.2 role p since hp hsince
    · rw [Function.update_of_ne heq] at hp'
      exact hfit.2 role' p' since hp' hsince
  next => exact hfit

theorem Fits.recordChunkBytes (hfit : Fits s v) (frame : Bytes) (maxSize : Int) :
    Fits (s.recordChunkBytes frame maxSize).1 v := by
  obtain ⟨current, heq⟩ := Session.recordChunkBytes_fst s frame maxSize
  rw [heq]
  exact hfit

/-! ## A session that begins -/

theorem addSession_fits (h : Hub) (id ip : String) (conn : ConnId) (now : Time) :
    ∃ s, (h.addSession id ip conn now).1.heap = h.heap ++ [s] ∧ Fits s ⟨now, fun _ => none⟩ := by
  obtain ⟨s, hs⟩ : ∃ s, (Session.new id now).attach .host conn ip now = some s := ⟨_, rfl⟩
  refine ⟨s, by rw [Hub.addSession, hs]; rfl, ?_⟩
  have hnew : Fits (Session.new id now) ⟨now, fun _ => none⟩ :=
    ⟨rfl, fun role p since hp => by cases hp⟩
  have hfit := hnew.attach hs
  rwa [Function.update_eq_self] at hfit

/-- A first message leaves the sessions as they are, or adds one that was just
visited. -/
theorem enter_heap {first : First} {ip : String} {conn : ConnId} {now : Time} {draws : Draws}
    {pc : Pc} {todo : List Action} (henter : enter h first ip conn now draws = (h', pc, todo)) :
    h'.heap = h.heap ∨ ∃ s, h'.heap = h.heap ++ [s] ∧ Fits s ⟨now, fun _ => none⟩ := by
  cases enter_spec henter with
  | joining _ _ _ hb => exact .inl hb.heap
  | resuming => exact .inl rfl
  | refused _ _ hb => exact .inl hb.heap
  | created _ id s m hfull hdraw hid hs hheap hsessions hcounts hcfg hfirst hm =>
      right
      rcases hfirst with rfl | rfl
      · obtain ⟨s', hs', hfit⟩ := addSession_fits h id ip conn now
        refine ⟨s', ?_, hfit⟩
        change enter.created _ _ (h.CreateSession ip conn now draws.id) = _ at henter
        unfold Hub.CreateSession at henter
        rw [if_neg (by simp [hfull]), hdraw] at henter
        rw [← hs']
        exact congrArg (fun r => r.1.heap) henter.symm
      · obtain ⟨s', hs', hfit⟩ := addSession_fits h id ip conn now
        refine ⟨s', ?_, hfit⟩
        change enter.created _ _ (h.CreateCodeSession ip conn now draws.id draws.codes) = _ at henter
        unfold Hub.CreateCodeSession at henter
        rw [if_neg (by simp [hfull]), hdraw] at henter
        dsimp only at henter
        cases hcode : h.newUniqueCode (List.ofFn draws.codes) with
        | error err =>
            rw [hcode] at henter
            cases henter
        | ok code =>
            rw [hcode] at henter
            rw [← hs']
            exact congrArg (fun r => r.1.heap) henter.symm

/-! ## One step -/

/-- What a goroutine has still to take out of the map are other sessions. -/
def SparesSession (x : Goroutines) (ref : Nat) (todo : List Action) : Prop :=
  ∀ id, .remove id ∈ todo → ∃ ref', ref' ≠ ref ∧ x.hub.idAt ref' = some id

theorem SparesSession.mono {todo : List Action} (h : x.SparesSession ref todo) (hids : KeepsIds x y) :
    y.SparesSession ref todo := by
  intro id hid
  obtain ⟨ref', hne, hat⟩ := h id hid
  exact ⟨ref', hne, hids ref' id hat⟩

theorem sparesSession_of_none {todo : List Action} (hnone : ∀ id, .remove id ∉ todo) :
    x.SparesSession ref todo :=
  fun id hid => absurd hid (hnone id)

theorem keepsIds_step (hstep : step x e = some y) : KeepsIds x y := by
  cases tabled_step hstep with
  | same _ hsame => exact keepsIds_of_eq hsame.ids
  | created _ _ _ _ _ hadds => exact fun _ _ => idAt_adds hadds
  | issued _ _ _ _ _ _ hadds => exact fun _ _ => idAt_adds hadds
  | guessed _ code now _ t _ hhub =>
      refine keepsIds_of_eq (idAt_of_heap ?_)
      rw [hhub]
      exact (Hub.resolveCode_unmoved x.hub code t.ip now).heap
  | swept _ _ hhub => exact keepsIds_of_eq (idAt_of_heap (by rw [hhub]; rfl))
  | removed _ _ _ _ _ _ hhub => exact keepsIds_of_eq (idAt_of_heap (by rw [hhub]; rfl))

/-- Ids that are drawn once name one session each. -/
theorem named_step (hn : Named x.hub) (hu : x.InUse ref visits e)
    (hstep : step x e = some y) : Named y.hub := by
  have hfresh : ∀ {c first now draws id}, e = .begin c first now draws → draws.id = .ok id →
      ∀ s ∈ x.hub.heap, s.ID ≠ id := by
    rintro c first now draws id rfl hdraw
    rw [InUse, hdraw] at hu
    exact hu
  cases tabled_step hstep with
  | same _ hsame => exact hn.same hsame.ids hsame.sessions
  | created _ _ _ _ hdraw hadds => exact named_adds hn hadds (hfresh rfl hdraw)
  | issued _ _ _ _ _ hdraw hadds => exact named_adds hn hadds (hfresh rfl hdraw)
  | guessed _ code now _ t _ hhub =>
      have hunmoved := Hub.resolveCode_unmoved x.hub code t.ip now
      rw [← hhub] at hunmoved
      exact hn.same (idAt_of_heap hunmoved.heap) hunmoved.sessions
  | swept _ _ hhub => exact hn.same (idAt_of_heap (by rw [hhub]; rfl)) (by rw [hhub]; rfl)
  | removed _ id _ _ _ _ hhub =>
      exact hn.erase id (idAt_of_heap (by rw [hhub]; rfl)) (by rw [hhub]; rfl)

/-- The session of a slot is as it was, or what the step made of the slot's. -/
theorem get_setSession {ref' : Nat} {s' : Session} (hs : h.heap[ref]? = some s)
    (hs' : h.heap[ref']? = some s') (t : Session) :
    (ref' = ref ∧ s' = s ∧ (h.setSession ref' t).heap[ref]? = some t) ∨
      (ref' ≠ ref ∧ (h.setSession ref' t).heap[ref]? = some s) := by
  have hget := setSession_heap hs' t hs
  by_cases heq : ref = ref'
  · subst heq
    rw [if_pos rfl] at hget
    exact .inl ⟨rfl, Option.some.inj (hs'.symm.trans hs), hget⟩
  · rw [if_neg heq] at hget
    exact .inr ⟨Ne.symm heq, hget⟩

/-- No action of a goroutine visits a session. -/
theorem perform_fits {a : Action} (hs : x.hub.heap[ref]? = some s) (hfit : Fits s v) :
    ∃ t, (x.perform a).1.hub.heap[ref]? = some t ∧ t.ID = s.ID ∧ Fits t v := by
  cases a with
  | record slot data =>
      change ∃ t, (recorded x.hub slot data).1.heap[ref]? = some t ∧ _
      unfold recorded
      split
      next => exact ⟨s, hs, rfl, hfit⟩
      next s' hs' =>
        dsimp only
        rcases get_setSession hs hs' (s'.recordChunkBytes data x.hub.cfg.MaxFileSize).1 with
          ⟨-, rfl, hget⟩ | ⟨-, hget⟩
        · exact ⟨_, hget, (Session.recordChunkBytes_spec s' data _).1, hfit.recordChunkBytes data _⟩
        · exact ⟨s, hget, rfl, hfit⟩
  | _ => exact ⟨s, hs, rfl, hfit⟩

theorem held_goto {c : ConnId} {t : Thread} {pc : Pc} {todo : List Action}
    (ht : x.threads[c]? = some t) (hub : Hub) :
    ((x.setHub hub).modify c (Thread.goto pc todo)).held c = pc.held := by
  have hget : ((x.setHub hub).modify c (Thread.goto pc todo)).threads[c]? =
      some (t.goto pc todo) := Tally.getElem?_modify_self ht _
  rw [held_of_get hget]
  rfl

/-- The visits of a session are followed by every step. -/
theorem fits_step (hs : x.hub.heap[ref]? = some s) (hfit : Fits s v)
    (hstep : step x e = some y) : ∃ t v', y.hub.heap[ref]? = some t ∧ t.ID = s.ID ∧
      visit ref x y (some v) e = some v' ∧ Fits t v' := by
  cases step_spec hstep with
  | accepted => exact ⟨s, v, hs, rfl, rfl, hfit⟩
  | begun c first now draws t hub pc todo ht hfresh he henter =>
      have hlt : ref < x.hub.heap.length := (List.getElem?_eq_some_iff.mp hs).1
      -- a new session goes to the end of the heap
      refine ⟨s, v, ?_, rfl, if_neg fun hlen => by omega, hfit⟩
      change hub.heap[ref]? = some s
      rcases enter_heap henter with hheap | ⟨s', hheap, -⟩
      · rw [hheap, hs]
      · rw [hheap, List.getElem?_append_left hlt, hs]
  | attached c now t first hub pc todo ht hfirst ha hnext =>
      have hheld : ((x.setHub hub).modify c (Thread.goto pc todo)).held c = pc.held :=
        held_goto ht hub
      generalize t.pc = before at ha
      cases ha with
      -- only who gets a slot of this very session visits it
      | found => exact ⟨s, v, hs, rfl, visit_attach_none hheld, hfit⟩
      | refused => exact ⟨s, v, hs, rfl, visit_attach_none hheld, hfit⟩
      | joined ref' hostConn s' t' hs' ht' =>
          rcases get_setSession hs hs' t' with ⟨rfl, rfl, hget⟩ | ⟨hne, hget⟩
          · exact ⟨t', _, hget, (Session.attach_spec ht').2.1,
              (visit_attach hheld).trans (if_pos rfl), hfit.attach ht'⟩
          · exact ⟨s, v, hget, rfl, (visit_attach hheld).trans (if_neg hne), hfit⟩
      | resumed slot token s' t' hs' ht' =>
          rcases get_setSession hs hs' t' with ⟨heq, rfl, hget⟩ | ⟨hne, hget⟩
          · exact ⟨t', _, hget, (Session.reattach_spec ht').2.1,
              (visit_attach hheld).trans (if_pos heq), hfit.reattach ht'⟩
          · exact ⟨s, v, hget, rfl, (visit_attach hheld).trans (if_neg hne), hfit⟩
  | acted c t a todo ht htodo =>
      obtain ⟨t', hget, hid, hfit'⟩ := perform_fits (a := a) hs hfit
      exact ⟨t', v, hget, hid, rfl, hfit'⟩
  | received c msg now t slot s' ht hpc htodo hs' =>
      have hheld : x.held c = some slot := by
        rw [held_of_get ht, hpc]
        rfl
      cases msg with
      | endSession => exact ⟨s, v, hs, rfl, rfl, hfit⟩
      -- a token is no activity: `RegisterReconnectToken` does not touch the session
      | reconnectToken tokenHex =>
          change ∃ t' v', (Relay.handleReconnectToken x.hub slot tokenHex).heap[ref]? = some t' ∧ _
          unfold Relay.handleReconnectToken Hub.RegisterReconnectToken
          split
          next => exact ⟨s, v, hs, rfl, rfl, hfit⟩
          next token _ =>
            rw [hs']
            rcases get_setSession hs hs' (s'.setReconnectToken slot.role token) with
              ⟨-, rfl, hget⟩ | ⟨-, hget⟩
            · exact ⟨_, v, hget, (Session.setReconnectToken_spec s' slot.role token).1, rfl,
                hfit.setReconnectToken slot.role token⟩
            · exact ⟨s, v, hget, rfl, rfl, hfit⟩
      | other binary data =>
          rcases get_setSession hs hs' (s'.touch now) with ⟨heq, rfl, hget⟩ | ⟨hne, hget⟩
          · exact ⟨_, _, hget, rfl, (visit_frame hheld).trans (if_pos heq), hfit.touch now⟩
          · exact ⟨s, v, hget, rfl, (visit_frame hheld).trans (if_neg hne), hfit⟩
  | dropped => exact ⟨s, v, hs, rfl, rfl, hfit⟩
  | left c now t slot s' ht hpc htodo hs' =>
      have hheld : x.held c = some slot := by
        rw [held_of_get ht, hpc]
        rfl
      rcases get_setSession hs hs' (s'.markDisconnected slot.role now).1 with
        ⟨heq, rfl, hget⟩ | ⟨hne, hget⟩
      · refine ⟨_, _, hget, ?_, (visit_readError hheld).trans (if_pos heq),
          hfit.markDisconnected slot.role now⟩
        unfold Session.markDisconnected
        split <;> rfl
      · exact ⟨s, v, hget, rfl, (visit_readError hheld).trans (if_neg hne), hfit⟩
  | swept => exact ⟨s, v, hs, rfl, rfl, hfit⟩
  | looked => exact ⟨s, v, hs, rfl, rfl, hfit⟩
  | snapped => exact ⟨s, v, hs, rfl, rfl, hfit⟩
  | reaperActed a todo htodo =>
      obtain ⟨t', hget, hid, hfit'⟩ := perform_fits (a := a) hs hfit
      exact ⟨t', v, hget, hid, rfl, hfit'⟩

/-! ## Who takes sessions out of the map -/

theorem mem_of_removes {id : String} (hremoves : x.removes e = some id) :
    (∃ (c : ConnId) (t : Thread), x.threads[c]? = some t ∧ Action.remove id ∈ t.todo) ∨
      Action.remove id ∈ x.reaperTodo := by
  cases e with
  | act c =>
      obtain ⟨t, ht, htodo⟩ := Option.bind_eq_some_iff.mp hremoves
      obtain ⟨rest, htodo⟩ := removal_eq_some htodo
      exact .inl ⟨c, t, ht, by rw [htodo]; exact List.mem_cons_self⟩
  | reapAct =>
      obtain ⟨rest, htodo⟩ := removal_eq_some hremoves
      exact .inr (by rw [htodo]; exact List.mem_cons_self)
  | _ => cases hremoves

/-- A session that everybody spares stays in the map. -/
theorem lookup_step (hn : Named x.hub) (hs : x.hub.heap[ref]? = some s)
    (hlookup : x.hub.sessions.lookup s.ID = some ref)
    (hthreads : ∀ (c : ConnId) (t : Thread), x.threads[c]? = some t → x.SparesSession ref t.todo)
    (hreaper : x.SparesSession ref x.reaperTodo) (hu : x.InUse ref visits e)
    (hstep : step x e = some y) : y.hub.sessions.lookup s.ID = some ref := by
  have hadds : ∀ {c first now draws id}, e = .begin c first now draws → draws.id = .ok id →
      Adds x.hub y.hub id → y.hub.sessions.lookup s.ID = some ref := by
    rintro c first now draws id rfl hdraw hadds
    rw [InUse, hdraw] at hu
    rw [hadds.sessions, AList.lookup_insert_ne (hu s (List.mem_of_getElem? hs)), hlookup]
  cases tabled_step hstep with
  | same _ hsame => rw [hsame.sessions, hlookup]
  | created _ _ _ _ hdraw h => exact hadds rfl hdraw h
  | issued _ _ _ _ _ hdraw h => exact hadds rfl hdraw h
  | guessed _ code now _ t _ hhub =>
      rw [hhub, (Hub.resolveCode_unmoved x.hub code t.ip now).sessions, hlookup]
  | swept _ _ hhub =>
      rw [hhub]
      exact hlookup
  | removed _ id hremoves _ _ _ hhub =>
      have hne : s.ID ≠ id := by
        rintro rfl
        have hspared : ∃ ref', ref' ≠ ref ∧ x.hub.idAt ref' = some s.ID := by
          rcases mem_of_removes hremoves with ⟨c, t, ht, hmem⟩ | hmem
          · exact hthreads c t ht _ hmem
          · exact hreaper _ hmem
        obtain ⟨ref', hne, hat⟩ := hspared
        exact hne (hn.inj ref' ref s.ID hat (idAt_of_get hs))
      rw [hhub]
      exact (AList.lookup_erase_ne hne).trans hlookup

/-- One goroutine goes on. -/
theorem sparesSession_modify {c : ConnId} {f : Thread → Thread} (hids : KeepsIds x y)
    (hthreads : ∀ (d : ConnId) (t : Thread), x.threads[d]? = some t → x.SparesSession ref t.todo)
    (hy : ∀ d t', y.threads[d]? = some t' → ∃ t, x.threads[d]? = some t ∧
      (t'.todo = t.todo ∨ c = d ∧ t'.todo = (f t).todo))
    (hnew : ∀ t, x.threads[c]? = some t → y.SparesSession ref (f t).todo) (d : ConnId) (t' : Thread)
    (ht' : y.threads[d]? = some t') : y.SparesSession ref t'.todo := by
  obtain ⟨t, ht, heq | ⟨rfl, heq⟩⟩ := hy d t' ht'
  · rw [heq]
    exact (hthreads d t ht).mono hids
  · rw [heq]
    exact hnew t ht

theorem get_modify_todo {c : ConnId} {f : Thread → Thread} {z : Goroutines}
    (hz : z.threads = x.threads) (d : ConnId) (t' : Thread)
    (ht' : (z.modify c f).threads[d]? = some t') :
    ∃ t, x.threads[d]? = some t ∧ (t'.todo = t.todo ∨ c = d ∧ t'.todo = (f t).todo) := by
  obtain ⟨t, ht, rfl⟩ := Tally.getElem?_modify_eq_some ht'
  refine ⟨t, hz ▸ ht, ?_⟩
  split
  next heq => exact .inr ⟨heq, rfl⟩
  next => exact .inl rfl

/-- What is left to do of a list of actions, and what the first of them leads to. -/
theorem sparesSession_next {a : Action} {todo : List Action} (hids : KeepsIds x y)
    (h : x.SparesSession ref (a :: todo)) : y.SparesSession ref ((x.perform a).2 ++ todo) := by
  intro id hid
  have hlater := (List.mem_append.mp hid).resolve_left (remove_not_mem_more x a id)
  exact h.mono hids id (List.mem_cons_of_mem _ hlater)

/-- Nobody sets about removing the session. -/
theorem sparesSession_step (hcurrent : ∀ s, x.hub.heap[ref]? = some s → ∃ v ∈ visits, Fits s v)
    (hthreads : ∀ (c : ConnId) (t : Thread), x.threads[c]? = some t → x.SparesSession ref t.todo)
    (hreaper : x.SparesSession ref x.reaperTodo) (hu : x.InUse ref visits e)
    (hstep : step x e = some y) :
    (∀ (c : ConnId) (t : Thread), y.threads[c]? = some t → y.SparesSession ref t.todo) ∧
      y.SparesSession ref y.reaperTodo := by
  have hids := keepsIds_step hstep
  cases step_spec hstep with
  | accepted ip =>
      refine ⟨fun d t' ht' => ?_, hreaper.mono hids⟩
      rcases Tally.getElem?_concat_eq_some ht' with ht | ⟨-, rfl⟩
      · exact (hthreads d t' ht).mono hids
      · exact sparesSession_of_none fun id => by simp [Thread.accept]
  | begun c first now draws t hub pc todo ht hfresh he =>
      refine ⟨sparesSession_modify hids hthreads (get_modify_todo rfl) fun t' _ => ?_, hreaper.mono hids⟩
      cases he with
      | refused _ err => exact sparesSession_of_none fun id => remove_not_mem_refuse c first err id
      | _ => exact sparesSession_of_none fun id => by simp [Thread.goto]
  | attached c now t first hub pc todo ht hfirst ha =>
      refine ⟨sparesSession_modify hids hthreads (get_modify_todo rfl) fun t' _ => ?_, hreaper.mono hids⟩
      generalize t.pc = before at ha
      cases ha with
      | refused _ err => exact sparesSession_of_none fun id => remove_not_mem_refuse c first err id
      | _ => exact sparesSession_of_none fun id => by simp [Thread.goto]
  | acted c t a todo ht htodo =>
      refine ⟨fun d t' ht' => ?_, ?_⟩
      · obtain ⟨t₁, ht₁, rfl⟩ := Tally.getElem?_modify_eq_some ht'
        obtain ⟨t₀, ht₀, hcore⟩ := get_perform ht₁
        split
        next heq =>
          subst heq
          obtain rfl := Option.some.inj (ht.symm.trans ht₀)
          exact sparesSession_next hids (htodo ▸ hthreads c t ht)
        next =>
          rw [hcore.todo]
          exact (hthreads d t₀ ht₀).mono hids
      · refine SparesSession.mono ?_ hids
        have : ((x.perform a).1.modify c
            (Thread.setTodo ((x.perform a).2 ++ todo))).reaperTodo = x.reaperTodo :=
          reaperTodo_perform x a
        rw [this]
        exact hreaper
  | received c msg now t slot s ht hpc htodo hs =>
      refine ⟨sparesSession_modify hids hthreads (get_modify_todo rfl) fun t' _ => ?_, hreaper.mono hids⟩
      cases msg with
      | reconnectToken tokenHex => exact sparesSession_of_none fun id => by simp [receive, Thread.goto]
      | other binary data =>
          exact sparesSession_of_none fun id => by cases binary <;> simp [receive, Thread.goto]
      | endSession =>
          intro id hid
          obtain rfl : id = s.ID := by
            simpa [receive, Thread.goto, remove_not_mem_notifyAndClose] using hid
          -- who ends a session holds a slot of it, so it is another one
          refine ⟨slot.ref, hu slot ?_, hids slot.ref s.ID (idAt_of_get hs)⟩
          rw [held_of_get ht, hpc]
          rfl
  | dropped c =>
      exact ⟨sparesSession_modify hids hthreads (get_modify_todo rfl) fun t' ht' =>
        (hthreads c t' ht').mono hids, hreaper.mono hids⟩
  | left c now t slot s ht hpc htodo hs =>
      refine ⟨sparesSession_modify hids hthreads (get_modify_todo rfl) fun t' _ => ?_, hreaper.mono hids⟩
      exact sparesSession_of_none fun id => by simp [Thread.goto, leaveActions]
  | swept => exact ⟨fun d t ht => (hthreads d t ht).mono hids, hreaper.mono hids⟩
  | looked => exact ⟨fun d t ht => (hthreads d t ht).mono hids, hreaper.mono hids⟩
  | snapped now ids ref' s hpc hs =>
      refine ⟨fun d t ht => (hthreads d t ht).mono hids, fun id hid => ?_⟩
      rw [InUse, hpc] at hu
      change .remove id ∈ reapActions x.hub s now at hid
      unfold reapActions at hid
      dsimp only at hid
      by_cases heq : ref' = ref
      · subst heq
        -- the snapshot finds it within both timeouts
        obtain ⟨v, hv, hfit⟩ := hcurrent s hs
        obtain ⟨hidle, hforsaken⟩ := hfit.kept (hu rfl v hv)
        rw [Hub.reapReason_none hidle hforsaken] at hid
        cases hid
      · refine ⟨ref', heq, hids ref' id ?_⟩
        split at hid
        next => cases hid
        next reason _ =>
          obtain rfl : id = s.ID := by simpa [remove_not_mem_notifyAndClose] using hid
          exact idAt_of_get hs
  | reaperActed a todo htodo =>
      refine ⟨fun d t' ht' => ?_, sparesSession_next hids (htodo ▸ hreaper)⟩
      obtain ⟨t, ht, hcore⟩ := get_perform ht'
      rw [hcore.todo]
      exact (hthreads d t ht).mono hids

/-! ## Before the session is there -/

theorem length_of_idAt (hids : h'.idAt = h.idAt) : h'.heap.length = h.heap.length := by
  have hnone : ∀ (h : Hub) ref, h.idAt ref = none ↔ h.heap.length ≤ ref := fun h ref => by
    rw [Hub.idAt, Option.map_eq_none_iff, List.getElem?_eq_none_iff]
  refine Nat.le_antisymm ?_ ?_
  · rw [← hnone h', hids, hnone]
  · rw [← hnone h, ← hids, hnone]

/-- Only a first message adds a session. -/
theorem length_step (hstep : step x e = some y) (hbegin : ∀ c first now draws,
    e ≠ .begin c first now draws) : y.hub.heap.length = x.hub.heap.length := by
  cases tabled_step hstep with
  | same _ hsame => exact length_of_idAt hsame.ids
  | created c now draws => exact absurd rfl (hbegin c _ now draws)
  | issued c now draws => exact absurd rfl (hbegin c _ now draws)
  | guessed c code now draws => exact absurd rfl (hbegin c _ now draws)
  | swept _ _ hhub => exact length_of_idAt (idAt_of_heap (by rw [hhub]; rfl))
  | removed _ _ _ _ _ _ hhub => exact length_of_idAt (idAt_of_heap (by rw [hhub]; rfl))

theorem visit_none (hbegin : ∀ c first now draws, e ≠ .begin c first now draws) :
    visit ref x y none e = none := by
  unfold visit
  split
  next c first now draws => exact absurd rfl (hbegin c first now draws)
  next => split <;> simp
  next => split <;> simp
  next => split <;> simp
  next => rfl

/-- A session is visited first by the step that makes it. -/
theorem born_step (hlen : x.hub.heap.length ≤ ref) (hstep : step x e = some y) :
    (visit ref x y none e = none ∧ y.hub.heap.length ≤ ref) ∨
      ∃ s v, visit ref x y none e = some v ∧ y.hub.heap[ref]? = some s ∧
        y.hub.sessions.lookup s.ID = some ref ∧ Fits s v := by
  by_cases hbegin : ∃ c first now draws, e = .begin c first now draws
  · obtain ⟨c, first, now, draws, rfl⟩ := hbegin
    cases step_spec hstep with
    | begun _ _ _ _ t hub pc todo ht hfresh he henter =>
        change (visit ref x _ none (.begin c first now draws) = none ∧ hub.heap.length ≤ ref) ∨
          ∃ s v, visit ref x _ none (.begin c first now draws) = some v ∧ hub.heap[ref]? = some s ∧
            hub.sessions.lookup s.ID = some ref ∧ Fits s v
        rcases enter_heap henter with hheap | ⟨s, hheap, hfit⟩
        · left
          refine ⟨if_neg fun hnew => ?_, hheap ▸ hlen⟩
          have hgrown : hub.heap.length = ref + 1 := hnew.2
          rw [hheap] at hgrown
          omega
        · have hgrown : hub.heap.length = x.hub.heap.length + 1 := by
            rw [hheap, List.length_append]
            rfl
          by_cases heq : x.hub.heap.length = ref
          · right
            refine ⟨s, _, if_pos ⟨heq, heq ▸ hgrown⟩, ?_, ?_, hfit⟩
            · rw [hheap, ← heq]
              exact List.getElem?_concat_length
            · cases he with
              | created _ id s' m _ _ hid _ hheap' hsessions =>
                  obtain rfl : s = s' := by
                    have := List.append_cancel_left (hheap.symm.trans hheap')
                    exact (List.cons.inj this).1
                  rw [hsessions, hid, AList.lookup_insert, heq]
              | joining _ _ _ hb =>
                  rw [hb.heap] at hgrown
                  omega
              | resuming => omega
              | refused _ _ hb =>
                  rw [hb.heap] at hgrown
                  omega
          · exact .inl ⟨if_neg fun hnew => heq hnew.1, by omega⟩
  · have hnot : ∀ c first now draws, e ≠ .begin c first now draws :=
      fun c first now draws heq => hbegin ⟨c, first, now, draws, heq⟩
    exact .inl ⟨visit_none hnot, (length_step hstep hnot).trans_le hlen⟩

end Goroutines

namespace Watched

variable {w w' : Watched} {ref : Nat} {r : Round}

/-- The session has not been made, or it is in the map, it is as it was visited,
and nobody is about to remove it. -/
structure Surviving (ref : Nat) (w : Watched) : Prop where
  named : Goroutines.Named w.relay.hub
  threads : ∀ (c : ConnId) (t : Thread), w.relay.threads[c]? = some t → w.relay.SparesSession ref t.todo
  reaper : w.relay.SparesSession ref w.relay.reaperTodo
  unborn : w.visits = none → w.relay.hub.heap.length ≤ ref
  kept : ∀ v, w.visits = some v → ∃ s, w.relay.hub.heap[ref]? = some s ∧
    w.relay.hub.sessions.lookup s.ID = some ref ∧ Goroutines.Fits s v

theorem Surviving.current (h : w.Surviving ref) (s : Session)
    (hs : w.relay.hub.heap[ref]? = some s) : ∃ v ∈ w.visits, Goroutines.Fits s v := by
  cases hv : w.visits with
  | none =>
      have hlen := h.unborn hv
      have hlt := (List.getElem?_eq_some_iff.mp hs).1
      omega
  | some v =>
      obtain ⟨s', hs', -, hfit⟩ := h.kept v hv
      obtain rfl := Option.some.inj (hs.symm.trans hs')
      exact ⟨v, rfl, hfit⟩

theorem surviving_step {e : Step} {y : Goroutines} (h : w.Surviving ref)
    (hu : w.relay.InUse ref w.visits e) (hstep : w.relay.step e = some y) :
    Surviving ref ⟨y, Goroutines.visit ref w.relay y w.visits e⟩ := by
  obtain ⟨hthreads, hreaper⟩ :=
    Goroutines.sparesSession_step h.current h.threads h.reaper hu hstep
  have hnamed := Goroutines.named_step h.named hu hstep
  cases hv : w.visits with
  | none =>
      rcases Goroutines.born_step (h.unborn hv) hstep with ⟨hnone, hlen⟩ | ⟨s, v, hsome, hborn⟩
      · refine ⟨hnamed, hthreads, hreaper, fun _ => hlen, fun v hv' => ?_⟩
        rw [hnone] at hv'
        cases hv'
      · refine ⟨hnamed, hthreads, hreaper, fun hnone => ?_, fun v' hv' => ⟨s, ?_⟩⟩
        · rw [hsome] at hnone
          cases hnone
        · obtain rfl := Option.some.inj (hsome.symm.trans hv')
          exact hborn
  | some v =>
      obtain ⟨s, hs, hlookup, hfit⟩ := h.kept v hv
      obtain ⟨t, v', ht, hid, hvisit, hfit'⟩ := Goroutines.fits_step hs hfit hstep
      have hkept := Goroutines.lookup_step h.named hs hlookup h.threads h.reaper hu hstep
      refine ⟨hnamed, hthreads, hreaper, fun hnone => ?_, fun v'' hv'' => ⟨t, ht, ?_, ?_⟩⟩
      · rw [hvisit] at hnone
        cases hnone
      · rw [hid]
        exact hkept
      · obtain rfl := Option.some.inj (hvisit.symm.trans hv'')
        exact hfit'

theorem surviving_reapOnce {now : Time} {ids : List String} {y : Goroutines}
    (h : w.Surviving ref) (hcurrent : ∀ v ∈ w.visits, v.Current w.relay.hub.cfg now)
    (hround : w.relay.round (.reapOnce now ids) = some y) (horder : w.relay.Owned) :
    Surviving ref ⟨y, w.visits⟩ := by
  obtain ⟨hids, hhub, htodo, hthreads⟩ := Goroutines.round_reapOnce hround
  have hreaped := Hub.reapOnce_reaped h.named.lookup
    (fun slot slot' c => horder.left_unique) hids now
  rw [← hhub] at hreaped
  have hidAt : y.hub.idAt = w.relay.hub.idAt := Goroutines.idAt_of_heap hreaped.heap
  have hkeeps : Goroutines.KeepsIds w.relay y := Goroutines.keepsIds_of_eq hidAt
  refine ⟨⟨fun r r' id => ?_, fun id r hid => ?_⟩, fun c t ht => ?_, ?_, fun hnone => ?_,
    fun v hv => ?_⟩
  · rw [hidAt]
    exact h.named.inj r r' id
  · rw [hidAt]
    exact h.named.lookup id r (Hub.lookup_of_reaped hreaped h.named.lookup hid)
  · obtain ⟨t', ht', hcore⟩ := Goroutines.get_deliver (hthreads ▸ ht)
    rw [hcore.todo]
    exact (h.threads c t' ht').mono hkeeps
  · change Goroutines.SparesSession y ref y.reaperTodo
    rw [htodo]
    exact h.reaper.mono hkeeps
  · change y.hub.heap.length ≤ ref
    rw [hreaped.heap]
    exact h.unborn hnone
  · obtain ⟨s, hs, hlookup, hfit⟩ := h.kept v hv
    obtain ⟨hidle, hforsaken⟩ := hfit.kept (hcurrent v hv)
    exact ⟨s, hreaped.heap ▸ hs, (hreaped.kept s.ID ref s hlookup hs hidle hforsaken).1, hfit⟩

theorem surviving_next (h : w.relay.Owned ∧ w.relay.hub.Filed ∧ w.Surviving ref)
    (hu : w.InUse ref r) (hnext : w.next ref r = some w') :
    w'.relay.Owned ∧ w'.relay.hub.Filed ∧ w'.Surviving ref := by
  obtain ⟨y, hround, rfl⟩ := Option.map_eq_some_iff.mp hnext
  obtain ⟨howned, hfiled⟩ := Goroutines.inOrder_round ⟨h.1, h.2.1⟩ hround
  refine ⟨howned, hfiled, ?_⟩
  cases r with
  | step e => exact surviving_step h.2.2 hu hround
  | reapOnce now ids => exact surviving_reapOnce h.2.2 hu hround h.1

theorem surviving_init (cfg : Config) (ref : Nat) : (init cfg).Surviving ref where
  named := (Goroutines.orderly_init cfg).named
  threads c t ht := by simp [init, Goroutines.init] at ht
  reaper := Goroutines.sparesSession_of_none (by simp [init, Goroutines.init])
  unborn _ := Nat.zero_le ref
  kept v hv := by cases hv

end Watched

/-- **ReapOnce is exact.** In every reachable state a run of the reaper that nothing
interrupts removes the sessions that are idle or forsaken, tells and closes their
connected peers once, and leaves the others and their connections alone. A
session that nobody ends and that is within its timeouts whenever the reaper
looks at it stays in the map once it is there. -/
theorem reapOnce_exact (cfg : Config) :
    (∀ rs x, Transition.run Goroutines.round (Goroutines.init cfg) rs = some x →
      ∀ now ids, ids.Perm x.hub.sessions.keys →
        Reaped x.hub now (x.hub.ReapOnce now ids).1 (x.hub.ReapOnce now ids).2) ∧
    ∀ ref rs w, Transition.Guarded (Watched.next ref) (Watched.InUse ref) (Watched.init cfg) rs →
      Transition.run (Watched.next ref) (Watched.init cfg) rs = some w → w.visits ≠ none →
        w.relay.hub.Listed ref := by
  refine ⟨fun rs x hrun now ids hids => ?_, fun ref rs w hg hrun hborn => ?_⟩
  · obtain ⟨howned, hfiled⟩ := Goroutines.inOrder_run hrun
    exact Hub.reapOnce_reaped hfiled (fun slot slot' c => howned.left_unique) hids now
  · have hinit : (Watched.init cfg).relay.Owned ∧ (Watched.init cfg).relay.hub.Filed ∧
        (Watched.init cfg).Surviving ref :=
      ⟨Goroutines.owned_init cfg, (Goroutines.orderly_init cfg).named.lookup,
        Watched.surviving_init cfg ref⟩
    obtain ⟨-, -, hsurviving⟩ := hg.invariant
      (I := fun w : Watched => w.relay.Owned ∧ w.relay.hub.Filed ∧ w.Surviving ref)
      (fun w r w' hw hu hnext => Watched.surviving_next hw hu hnext) hinit hrun
    obtain ⟨v, hv⟩ := Option.ne_none_iff_exists'.mp hborn
    obtain ⟨s, hs, hlookup, -⟩ := hsurviving.kept v hv
    rw [Hub.Listed, Goroutines.idAt_of_get hs]
    exact hlookup

/-- Two hosts; the first does nothing for 300. -/
def twoHosts : List Round :=
  [.step (.accept "a"), .step (.begin 0 .createSession 0 (Relay.drawID "s")), .step (.act 0),
    .step (.accept "b"), .step (.begin 1 .createSession 100 (Relay.drawID "q")), .step (.act 1)]

theorem reapOnce_exact_twoHosts :
    (∃ x, Transition.run Goroutines.round (Goroutines.init Relay.smallConfig) twoHosts = some x ∧
      Reaped x.hub 300 (x.hub.ReapOnce 300 ["s", "q"]).1 (x.hub.ReapOnce 300 ["s", "q"]).2) ∧
    ∃ w, Transition.run (Watched.next 1) (Watched.init Relay.smallConfig)
      (twoHosts ++ [.reapOnce 300 ["s", "q"]]) = some w ∧ w.relay.hub.Listed 1 := by
  obtain ⟨hexact, hsurvives⟩ := reapOnce_exact Relay.smallConfig
  have hg : Transition.Guarded (Watched.next 1) (Watched.InUse 1) (Watched.init Relay.smallConfig)
      (twoHosts ++ [.reapOnce 300 ["s", "q"]]) := by decide +kernel
  have hrun : (Transition.run Goroutines.round (Goroutines.init Relay.smallConfig) twoHosts).any
      (fun x => decide (["s", "q"].Perm x.hub.sessions.keys)) = true := by decide +kernel
  have hrun' : (Transition.run (Watched.next 1) (Watched.init Relay.smallConfig)
      (twoHosts ++ [.reapOnce 300 ["s", "q"]])).any (fun w => w.visits.isSome) = true := by
    decide +kernel
  obtain ⟨x, hx, hids⟩ := (Option.any_eq_true _ _).mp hrun
  obtain ⟨w, hw, hborn⟩ := (Option.any_eq_true _ _).mp hrun'
  refine ⟨⟨x, hx, hexact _ x hx 300 _ (of_decide_eq_true hids)⟩, w, hw, ?_⟩
  exact hsurvives 1 _ w hg hw (Option.isSome_iff_ne_none.mp hborn)

end Quicksend.Server
