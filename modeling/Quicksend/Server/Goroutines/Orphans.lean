import Quicksend.Server.Goroutines.Owners

/-!
# No peer is left behind

`EndSession` and the reaper read the connections of a session first, then close
them, and take the session out of the map last. A connection that gets its slot
before they read is closed; one that gets it later is not.
-/

namespace Quicksend.Server

/-- The slot that the next critical section would take. -/
def Pc.target : Pc → Option Slot
  | .attaching ref _ => some ⟨ref, .guest⟩
  | .resuming slot _ => some slot
  | .fresh | .joining _ | .serving _ | .ended _ | .left _ | .refused => none

/-- The id of session `ref`, whether it is still listed or was removed long ago. -/
def Hub.idAt (h : Hub) (ref : Nat) : Option String := (h.heap[ref]?).map Session.ID

/-- The session is still in the map, under its own id, so that it can be found. -/
def Hub.Listed (h : Hub) (ref : Nat) : Prop := (h.idAt ref).bind (h.sessions.lookup ·) = some ref

instance (h : Hub) (ref : Nat) : Decidable (h.Listed ref) :=
  inferInstanceAs (Decidable (_ = _))

namespace Goroutines

variable {x y : Goroutines}

/-- No teardown of the session is under way. -/
def Untouched (x : Goroutines) (ref : Nat) : Prop := ∀ id ∈ x.hub.idAt ref,
  .remove id ∉ x.reaperTodo ∧ ∀ t ∈ x.threads, .remove id ∉ t.todo

instance (x : Goroutines) (ref : Nat) : Decidable (x.Untouched ref) :=
  inferInstanceAs (Decidable (∀ id ∈ x.hub.idAt ref, _))

/-- Who gets a slot, gets it in a session that is in the map and that nobody is
tearing down; and a new session has a new id. -/
def Unhurried (x : Goroutines) : Step → Prop
  | .begin _ _ _ draws =>
      match draws.id with
      | .ok id => ∀ s ∈ x.hub.heap, s.ID ≠ id
      | .error _ => True
  | .attach c now => ∀ t ∈ x.threads[c]?, ∀ slot ∈ t.pc.target,
      (t.first.bind (attachNext x.hub t.pc · t.ip c now)).any (decide <| ·.2.1 = .serving slot) =
        true → x.hub.Listed slot.ref ∧ x.Untouched slot.ref
  | _ => True

instance (x : Goroutines) : (e : Step) → Decidable (x.Unhurried e)
  | .begin .. => by
      dsimp only [Unhurried]
      split <;> infer_instance
  | .attach c _ => inferInstanceAs (Decidable (∀ t ∈ x.threads[c]?, ∀ slot ∈ t.pc.target, _ → _))
  | .accept .. | .act .. | .frame .. | .drop .. | .readError .. | .reap .. | .look | .snap
  | .reapAct => .isTrue trivial

/-- No operation of the hub is in progress. -/
def Quiet (x : Goroutines) : Prop :=
  (∀ t ∈ x.threads, t.todo = [] ∧ t.pc.entering = false) ∧ x.reaper = .idle ∧ x.reaperTodo = []

instance (x : Goroutines) : Decidable x.Quiet := inferInstanceAs (Decidable (_ ∧ _))

/-- The connection was sent a `session_ended`, with some reason why its session
ended. -/
def Told (x : Goroutines) (c : ConnId) : Prop :=
  ∃ t reason, x.threads[c]? = some t ∧ .control (.sessionEnded reason) ∈ t.sent

/-- Connection `c` is closed at the relay's end; its goroutine may still have
things to do. -/
def Shut (x : Goroutines) (c : ConnId) : Prop := ∃ t, x.threads[c]? = some t ∧ t.closed = true

/-- It asked for the end of its session. -/
def Asked (x : Goroutines) (c : ConnId) : Prop :=
  ∃ t slot, x.threads[c]? = some t ∧ t.pc = .ended slot

theorem Grows.told {c : ConnId} (hg : Grows x y) (h : x.Told c) : y.Told c := by
  obtain ⟨t, reason, ht, hsent⟩ := h
  obtain ⟨t', ht', hgrown⟩ := hg c t ht
  exact ⟨t', reason, ht', hgrown.sent.subset hsent⟩

theorem Grows.shut {c : ConnId} (hg : Grows x y) (h : x.Shut c) : y.Shut c := by
  obtain ⟨t, ht, hclosed⟩ := h
  obtain ⟨t', ht', hgrown⟩ := hg c t ht
  exact ⟨t', ht', hgrown.closed hclosed⟩

theorem Grows.asked {c : ConnId} (hg : Grows x y) (h : x.Asked c) : y.Asked c := by
  obtain ⟨t, slot, ht, hpc⟩ := h
  obtain ⟨t', ht', hgrown⟩ := hg c t ht
  exact ⟨t', slot, ht', hgrown.ended slot hpc⟩

/-! ## The ids of the sessions -/

section Ids

variable {h h' : Hub}

theorem idAt_of_heap (hheap : h'.heap = h.heap) : h'.idAt = h.idAt := by
  funext ref
  rw [Hub.idAt, Hub.idAt, hheap]

theorem idAt_of_get {ref : Nat} {s : Session} (hs : h.heap[ref]? = some s) :
    h.idAt ref = some s.ID := by
  rw [Hub.idAt, hs]
  rfl

theorem idAt_set {ref : Nat} {s t : Session} (hs : h.heap[ref]? = some s) (ht : t.ID = s.ID)
    (hheap : h'.heap = h.heap.set ref t) : h'.idAt = h.idAt := by
  funext ref'
  rw [Hub.idAt, hheap]
  by_cases href : ref' = ref
  · rw [href, List.getElem?_set_self (List.getElem?_eq_some_iff.mp hs).1, idAt_of_get hs, ← ht]
    rfl
  · rw [List.getElem?_set_ne (Ne.symm href)]
    rfl

theorem idAt_append {s : Session} (hheap : h'.heap = h.heap ++ [s]) :
    h'.idAt = Function.update h.idAt h.heap.length (some s.ID) := by
  funext ref
  rw [Hub.idAt, hheap]
  rcases Nat.lt_trichotomy ref h.heap.length with hlt | heq | hgt
  · rw [Function.update_of_ne (Nat.ne_of_lt hlt), List.getElem?_append_left hlt]
    rfl
  · rw [heq, Function.update_self, List.getElem?_concat_length]
    rfl
  · rw [Function.update_of_ne (Nat.ne_of_gt hgt), Hub.idAt,
      List.getElem?_eq_none (by simp; omega), List.getElem?_eq_none (by omega)]

theorem idAt_recorded (h : Hub) (slot : Slot) (data : Bytes) :
    (recorded h slot data).1.idAt = h.idAt := by
  unfold recorded
  split
  next => rfl
  next s hs => exact idAt_set hs (Session.recordChunkBytes_spec s data h.cfg.MaxFileSize).1 rfl

theorem idAt_perform (x : Goroutines) (a : Action) : (x.perform a).1.hub.idAt = x.hub.idAt := by
  cases a with
  | record slot data => exact idAt_recorded x.hub slot data
  | _ => rfl

theorem idAt_receive {slot : Slot} {s : Session} (hs : h.heap[slot.ref]? = some s) (c : ConnId)
    (msg : Incoming) (now : Time) : (receive h c slot s msg now).1.idAt = h.idAt := by
  cases msg with
  | endSession => rfl
  | reconnectToken tokenHex =>
      change (Relay.handleReconnectToken h slot tokenHex).idAt = h.idAt
      unfold Relay.handleReconnectToken
      split
      next => rfl
      next token _ =>
        rw [Hub.RegisterReconnectToken, hs]
        exact idAt_set hs (Session.setReconnectToken_spec s slot.role token).1 rfl
  | other binary data => exact idAt_set (t := s.touch now) hs rfl rfl

theorem sessions_receive (h : Hub) (c : ConnId) (slot : Slot) (s : Session) (msg : Incoming)
    (now : Time) : (receive h c slot s msg now).1.sessions = h.sessions := by
  cases msg with
  | endSession => rfl
  | reconnectToken tokenHex =>
      change (Relay.handleReconnectToken h slot tokenHex).sessions = h.sessions
      unfold Relay.handleReconnectToken Hub.RegisterReconnectToken
      split
      next => rfl
      next token _ => split <;> rfl
  | other binary data => rfl

/-- No two sessions have the same id, and the map has a session under its own. -/
structure Named (h : Hub) : Prop where
  inj : ∀ ref ref' id, h.idAt ref = some id → h.idAt ref' = some id → ref = ref'
  lookup : ∀ id ref, h.sessions.lookup id = some ref → h.idAt ref = some id

theorem Named.same (hn : Named h) (hids : h'.idAt = h.idAt) (hsessions : h'.sessions = h.sessions) :
    Named h' := by
  refine ⟨fun ref ref' id => ?_, fun id ref => ?_⟩
  · rw [hids]
    exact hn.inj ref ref' id
  · rw [hids, hsessions]
    exact hn.lookup id ref

theorem Named.erase (hn : Named h) (id : String) (hids : h'.idAt = h.idAt)
    (hsessions : h'.sessions = h.sessions.erase id) : Named h' := by
  refine ⟨fun ref ref' id' => ?_, fun id' ref hid => ?_⟩
  · rw [hids]
    exact hn.inj ref ref' id'
  · rw [hids]
    rw [hsessions] at hid
    by_cases heq : id' = id
    · rw [heq, AList.lookup_erase] at hid
      cases hid
    · rw [AList.lookup_erase_ne heq] at hid
      exact hn.lookup id' ref hid

theorem idAt_new (h : Hub) : h.idAt h.heap.length = none := by
  rw [Hub.idAt, List.getElem?_eq_none (Nat.le_refl _)]
  rfl

theorem Named.insert (hn : Named h) {s : Session} (hfresh : ∀ s' ∈ h.heap, s'.ID ≠ s.ID)
    (hheap : h'.heap = h.heap ++ [s])
    (hsessions : h'.sessions = h.sessions.insert s.ID h.heap.length) : Named h' := by
  have hnot : ∀ ref, h.idAt ref ≠ some s.ID := by
    intro ref hid
    obtain ⟨s', hs', heq⟩ := Option.map_eq_some_iff.mp hid
    exact hfresh s' (List.mem_of_getElem? hs') heq
  have hids := idAt_append hheap
  refine ⟨fun ref ref' id hid hid' => ?_, fun id ref hid => ?_⟩
  · rw [hids] at hid hid'
    by_cases href : ref = h.heap.length
    · by_cases href' : ref' = h.heap.length
      · rw [href, href']
      · rw [href, Function.update_self] at hid
        rw [Function.update_of_ne href', ← hid] at hid'
        exact absurd hid' (hnot ref')
    · rw [Function.update_of_ne href] at hid
      by_cases href' : ref' = h.heap.length
      · rw [href', Function.update_self] at hid'
        rw [← hid'] at hid
        exact absurd hid (hnot ref)
      · rw [Function.update_of_ne href'] at hid'
        exact hn.inj ref ref' id hid hid'
  · rw [hsessions] at hid
    rw [hids]
    by_cases heq : id = s.ID
    · rw [heq, AList.lookup_insert] at hid
      rw [← Option.some.inj hid, Function.update_self, heq]
    · rw [AList.lookup_insert_ne heq] at hid
      have hold := hn.lookup id ref hid
      rw [Function.update_of_ne ?_]
      · exact hold
      · rintro rfl
        rw [idAt_new] at hold
        cases hold

end Ids

/-! ## Teardowns -/

/-- Whoever is in the session asked for its end, or has been told and closed
once these actions are done. -/
def Clears (x : Goroutines) (ref : Nat) (pre : List Action) : Prop :=
  ∀ role c, x.hub.connAt ⟨ref, role⟩ = some c → x.Asked c ∨
    (x.Told c ∨ ∃ reason, .send c (.control (.sessionEnded reason)) ∈ pre) ∧
      (x.Shut c ∨ ∃ reason, .close c reason ∈ pre)

/-- Who takes a session out of the map has cleared it before. -/
def Removes (x : Goroutines) (todo : List Action) : Prop := ∀ id, .remove id ∈ todo →
  ∃ ref pre post, x.hub.idAt ref = some id ∧ todo = pre ++ .remove id :: post ∧
    (∀ id', .remove id' ∉ pre ++ post) ∧ x.Clears ref pre

/-- What an action was to do has been done. -/
def Done (x : Goroutines) : Action → Prop
  | .send c (.control (.sessionEnded _)) => ∀ t, x.threads[c]? = some t → x.Told c
  | .close c _ => ∀ t, x.threads[c]? = some t → x.Shut c
  | _ => True

/-- Every session that was there in `x` is there in `y` under the same id. -/
def KeepsIds (x y : Goroutines) : Prop :=
  ∀ ref id, x.hub.idAt ref = some id → y.hub.idAt ref = some id

/-- Nobody new is in the session: every connection in its slots was there before. -/
def Frees (x y : Goroutines) (ref : Nat) : Prop :=
  ∀ role c, y.hub.connAt ⟨ref, role⟩ = some c → x.hub.connAt ⟨ref, role⟩ = some c

theorem keepsIds_of_eq (h : y.hub.idAt = x.hub.idAt) : KeepsIds x y := by
  intro ref id href
  rwa [h]

theorem removes_of_none {todo : List Action} (h : ∀ id, .remove id ∉ todo) : x.Removes todo :=
  fun id hid => absurd hid (h id)

theorem Grows.done {a : Action} (hg : Grows x y) (hlen : x.threads.length = y.threads.length)
    (h : x.Done a) : y.Done a := by
  have hback : ∀ (c : ConnId) t, y.threads[c]? = some t → ∃ t', x.threads[c]? = some t' := by
    intro c t ht
    have hlt := (List.getElem?_eq_some_iff.mp ht).1
    exact ⟨_, List.getElem?_eq_getElem (hlen ▸ hlt)⟩
  cases a with
  | send c frame =>
      cases frame with
      | relayed binary data => trivial
      | control m =>
          cases m with
          | sessionEnded reason =>
              intro t ht
              obtain ⟨t', ht'⟩ := hback c t ht
              exact hg.told (h t' ht')
          | _ => trivial
  | close c reason =>
      intro t ht
      obtain ⟨t', ht'⟩ := hback c t ht
      exact hg.shut (h t' ht')
  | _ => trivial

/-- An action that is performed is done. -/
theorem done_perform (x : Goroutines) (a : Action) : (x.perform a).1.Done a := by
  cases a with
  | send c frame =>
      cases frame with
      | relayed binary data => trivial
      | control m =>
          cases m with
          | sessionEnded reason =>
              intro t ht
              obtain ⟨t₀, -, rfl⟩ := Tally.getElem?_modify_eq_some ht
              refine ⟨_, reason, ht, ?_⟩
              rw [if_pos rfl, Thread.write]
              simp
          | _ => trivial
  | close c reason =>
      intro t ht
      obtain ⟨t₀, -, rfl⟩ := Tally.getElem?_modify_eq_some ht
      refine ⟨_, ht, ?_⟩
      rw [if_pos rfl]
      rfl
  | _ => trivial

/-- What was cleared stays so; actions that are done can be forgotten. -/
theorem Clears.mono {ref : Nat} {pre pre' : List Action} (h : x.Clears ref pre) (hy : y.Owned)
    (hg : Grows x y) (hf : Frees x y ref) (hpre : ∀ a ∈ pre, a ∈ pre' ∨ y.Done a) :
    y.Clears ref pre' := by
  intro role c hc
  obtain ⟨t, ht, -⟩ := Option.bind_eq_some_iff.mp ((hy _ _).mp hc)
  rcases h role c (hf role c hc) with hasked | ⟨htold, hshut⟩
  · exact .inl (hg.asked hasked)
  · refine .inr ⟨?_, ?_⟩
    · rcases htold with htold | ⟨reason, hmem⟩
      · exact .inl (hg.told htold)
      · rcases hpre _ hmem with hlater | hdone
        · exact .inr ⟨reason, hlater⟩
        · exact .inl (hdone t ht)
    · rcases hshut with hshut | ⟨reason, hmem⟩
      · exact .inl (hg.shut hshut)
      · rcases hpre _ hmem with hlater | hdone
        · exact .inr ⟨reason, hlater⟩
        · exact .inl (hdone t ht)

theorem Removes.mono {todo : List Action} (h : x.Removes todo) (hy : y.Owned) (hg : Grows x y)
    (hids : KeepsIds x y)
    (hf : ∀ ref id, x.hub.idAt ref = some id → .remove id ∈ todo → Frees x y ref) :
    y.Removes todo := by
  intro id hid
  obtain ⟨ref, pre, post, href, heq, hnone, hclears⟩ := h id hid
  exact ⟨ref, pre, post, hids ref id href, heq, hnone,
    hclears.mono hy hg (hf ref id href hid) fun a ha => .inl ha⟩

/-- The first action is performed. -/
theorem Removes.next {a : Action} {todo more : List Action} (h : x.Removes (a :: todo))
    (hy : y.Owned) (hg : Grows x y) (hids : KeepsIds x y) (hf : ∀ ref, Frees x y ref)
    (hdone : y.Done a) (hmore : ∀ id, .remove id ∉ more) : y.Removes (more ++ todo) := by
  intro id hid
  have hlater : .remove id ∈ todo := (List.mem_append.mp hid).resolve_left (hmore id)
  obtain ⟨ref, pre, post, href, heq, hnone, hclears⟩ := h id (List.mem_cons_of_mem _ hlater)
  cases pre with
  | nil =>
      obtain ⟨rfl, rfl⟩ := List.cons.inj heq
      exact absurd hlater (hnone id)
  | cons b pre =>
      obtain ⟨rfl, rfl⟩ := List.cons.inj heq
      refine ⟨ref, more ++ pre, post, hids ref id href, by simp, fun id' hid' => ?_, ?_⟩
      · rw [List.append_assoc] at hid'
        rcases List.mem_append.mp hid' with hnew | hold
        · exact hmore id' hnew
        · exact hnone id' (List.mem_cons_of_mem _ hold)
      · refine hclears.mono hy hg (hf ref) fun b hb => ?_
        rcases List.mem_cons.mp hb with rfl | hb
        · exact .inr hdone
        · exact .inl (List.mem_append_right _ hb)

/-- When a session is taken out of the map, it is clear. -/
theorem Removes.head {id : String} {todo : List Action} {ref : Nat}
    (h : x.Removes (.remove id :: todo)) (hn : Named x.hub) (hid : x.hub.idAt ref = some id) :
    x.Clears ref [] := by
  obtain ⟨ref', pre, post, href, heq, hnone, hclears⟩ := h id (by simp)
  obtain rfl := hn.inj ref' ref id href hid
  cases pre with
  | nil => exact hclears
  | cons b pre =>
      obtain ⟨rfl, -⟩ := List.cons.inj heq
      exact absurd (by simp) (hnone id)

/-! ## What is never left behind -/

/-- What every step keeps of removals: who owes a peer of a removed session its
close still has that close to make. -/
structure Orderly (x : Goroutines) : Prop where
  owned : x.Owned
  named : Named x.hub
  threads : ∀ t ∈ x.threads, x.Removes t.todo
  reaper : x.Removes x.reaperTodo
  removed : ∀ ref, ¬ x.hub.Listed ref → x.Clears ref []
  /-- A handler that ended its session closes its connection. -/
  closing : ∀ (c : ConnId) t slot, x.threads[c]? = some t → t.pc = .ended slot →
    t.closed = true ∨ ∃ reason, .close c reason ∈ t.todo

/-- A step that takes nothing out of the map. -/
structure Retains (x y : Goroutines) : Prop where
  owned : y.Owned
  named : Named y.hub
  grows : Grows x y
  ids : KeepsIds x y
  listed : ∀ ref, x.hub.Listed ref → y.hub.Listed ref
  /-- Who gets a slot, gets it in an untouched session. -/
  frees : ∀ ref, Frees x y ref ∨ y.hub.Listed ref ∧ x.Untouched ref

theorem Retains.removed (h : x.Orderly) (hr : Retains x y) :
    ∀ ref, ¬ y.hub.Listed ref → y.Clears ref [] := by
  intro ref hnot
  have hfrees := (hr.frees ref).resolve_right fun hlisted => hnot hlisted.1
  exact (h.removed ref fun hl => hnot (hr.listed ref hl)).mono hr.owned hr.grows hfrees
    fun a ha => .inl ha

theorem Retains.thread (h : x.Orderly) (hr : Retains x y) {t : Thread} (ht : t ∈ x.threads) :
    y.Removes t.todo :=
  (h.threads t ht).mono hr.owned hr.grows hr.ids fun ref id href hmem =>
    (hr.frees ref).resolve_right fun huntouched => (huntouched.2 id href).2 t ht hmem

theorem Retains.reaper (h : x.Orderly) (hr : Retains x y) : y.Removes x.reaperTodo :=
  h.reaper.mono hr.owned hr.grows hr.ids fun ref id href hmem =>
    (hr.frees ref).resolve_right fun huntouched => (huntouched.2 id href).1 hmem

/-- One handler goes on. -/
theorem Orderly.change (h : x.Orderly) (hr : Retains x y) {c : ConnId} {f : Thread → Thread}
    (hthreads : y.threads = x.threads.modify c f) (hreaper : y.reaperTodo = x.reaperTodo)
    (hnew : ∀ t, x.threads[c]? = some t → y.Removes (f t).todo ∧ ∀ slot, (f t).pc = .ended slot →
      (f t).closed = true ∨ ∃ reason, .close c reason ∈ (f t).todo) : y.Orderly := by
  refine ⟨hr.owned, hr.named, fun t' ht' => ?_, hreaper ▸ hr.reaper h, hr.removed h,
    fun d t' slot ht' hpc => ?_⟩
  · obtain ⟨d, hd⟩ := List.mem_iff_getElem?.mp (hthreads ▸ ht')
    obtain ⟨t, ht, rfl⟩ := Tally.getElem?_modify_eq_some hd
    split
    next hcd => exact (hnew t (hcd ▸ ht)).1
    next => exact hr.thread h (List.mem_of_getElem? ht)
  · rw [hthreads] at ht'
    obtain ⟨t, ht, rfl⟩ := Tally.getElem?_modify_eq_some ht'
    split at hpc
    next hcd =>
      subst hcd
      rw [if_pos rfl]
      exact (hnew t ht).2 slot hpc
    next hcd =>
      rw [if_neg hcd]
      exact h.closing d t slot ht hpc

/-! ## The actions -/

theorem remove_not_mem_more (x : Goroutines) (a : Action) (id : String) :
    .remove id ∉ (x.perform a).2 := by
  cases a with
  | tell slot frame => simp [perform]
  | record slot data =>
      intro hmem
      rcases mem_recorded hmem with heq | ⟨role, id, heq⟩ <;> cases heq
  | _ => simp [perform]

theorem listed_erase {h h' : Hub} {id : String} {ref : Nat}
    (hids : h'.idAt = h.idAt) (hsessions : h'.sessions = h.sessions.erase id)
    (hnot : ¬ h'.Listed ref) : ¬ h.Listed ref ∨ h.idAt ref = some id := by
  by_cases hlisted : h.Listed ref
  · obtain ⟨id', hid', hlookup⟩ := Option.bind_eq_some_iff.mp hlisted
    by_cases heq : id' = id
    · exact .inr (heq ▸ hid')
    · refine absurd ?_ hnot
      rw [Hub.Listed, hids, hid', hsessions]
      exact (AList.lookup_erase_ne heq).trans hlookup
  · exact .inl hlisted

theorem sessions_perform (x : Goroutines) (a : Action) :
    (x.perform a).1.hub.sessions = x.hub.sessions ∨
      ∃ id, a = .remove id ∧ (x.perform a).1.hub.sessions = x.hub.sessions.erase id := by
  cases a with
  | remove id => exact .inr ⟨id, rfl, rfl⟩
  | record slot data =>
      left
      change (recorded x.hub slot data).1.sessions = x.hub.sessions
      unfold recorded
      split <;> rfl
  | _ => exact .inl rfl

/-- What an action does to the sessions, when the one it takes out is clear. -/
theorem Orderly.perform {a : Action} (h : x.Orderly) (hy : y.Owned) (hg : Grows x y)
    (hhub : y.hub = (x.perform a).1.hub)
    (hclear : ∀ id ref, a = .remove id → x.hub.idAt ref = some id → x.Clears ref []) :
    Named y.hub ∧ KeepsIds x y ∧ (∀ ref, Frees x y ref) ∧
      ∀ ref, ¬ y.hub.Listed ref → y.Clears ref [] := by
  have hids : y.hub.idAt = x.hub.idAt := by rw [hhub, idAt_perform]
  have hfrees : ∀ ref, Frees x y ref := by
    intro ref role c hc
    rwa [hhub, connAt_perform] at hc
  have hmono : ∀ ref, x.Clears ref [] → y.Clears ref [] := fun ref hclears =>
    hclears.mono hy hg (hfrees ref) fun a ha => .inl ha
  rcases sessions_perform x a with hsame | ⟨id, ha, herase⟩
  · rw [← hhub] at hsame
    refine ⟨h.named.same hids hsame, keepsIds_of_eq hids, hfrees,
      fun ref hnot => hmono ref (h.removed ref fun hl => hnot ?_)⟩
    rw [Hub.Listed, hids, hsame]
    exact hl
  · rw [← hhub] at herase
    refine ⟨h.named.erase id hids herase, keepsIds_of_eq hids, hfrees,
      fun ref hnot => hmono ref ?_⟩
    rcases listed_erase hids herase hnot with hold | hid
    · exact h.removed ref hold
    · exact hclear id ref ha hid

theorem orderly_act {c : ConnId} {t : Thread} {a : Action} {todo : List Action} (h : x.Orderly)
    (ht : x.threads[c]? = some t) (htodo : t.todo = a :: todo)
    (hy : ((x.perform a).1.modify c (Thread.setTodo ((x.perform a).2 ++ todo))).Owned)
    (hg : Grows x ((x.perform a).1.modify c (Thread.setTodo ((x.perform a).2 ++ todo)))) :
    ((x.perform a).1.modify c (Thread.setTodo ((x.perform a).2 ++ todo))).Orderly := by
  have hremoves : x.Removes (a :: todo) := htodo ▸ h.threads t (List.mem_of_getElem? ht)
  obtain ⟨hnamed, hids, hfrees, hremoved⟩ := h.perform (a := a) hy hg rfl fun id ref ha hid => by
    subst ha
    exact hremoves.head h.named hid
  have hdone : ((x.perform a).1.modify c (Thread.setTodo ((x.perform a).2 ++ todo))).Done a := by
    refine Grows.done ?_ ?_ (done_perform x a)
    · exact grows_modify (f := Thread.setTodo ((x.perform a).2 ++ todo))
        (fun t _ => ⟨rfl, fun _ _ => rfl, List.prefix_refl _, id, fun _ => id, fun _ => id⟩) rfl
    · simp [Goroutines.modify]
  have hnext := hremoves.next hy hg hids hfrees hdone (remove_not_mem_more x a)
  have hold : ∀ {d t'}, ((x.perform a).1.modify c
      (Thread.setTodo ((x.perform a).2 ++ todo))).threads[d]? = some t' → ∃ t₀,
        x.threads[d]? = some t₀ ∧ t'.pc = t₀.pc ∧
          t'.todo = if c = d then (x.perform a).2 ++ todo else t₀.todo := by
    intro d t' ht'
    obtain ⟨t₁, ht₁, rfl⟩ := Tally.getElem?_modify_eq_some ht'
    obtain ⟨t₀, ht₀, hcore⟩ := get_perform ht₁
    refine ⟨t₀, ht₀, ?_, ?_⟩
    · split <;> exact hcore.pc
    · split
      next => rfl
      next => exact hcore.todo
  refine ⟨hy, hnamed, fun t' ht' => ?_, ?_, hremoved, fun d t' slot ht' hpc => ?_⟩
  · obtain ⟨d, hd⟩ := List.mem_iff_getElem?.mp ht'
    obtain ⟨t₀, ht₀, -, heq⟩ := hold hd
    rw [heq]
    split
    next => exact hnext
    next =>
      exact (h.threads t₀ (List.mem_of_getElem? ht₀)).mono hy hg hids fun ref _ _ _ => hfrees ref
  · have hreaper := h.reaper.mono hy hg hids fun ref _ _ _ => hfrees ref
    rw [← reaperTodo_perform x a] at hreaper
    exact hreaper
  · obtain ⟨t₀, ht₀, hsame, heq⟩ := hold ht'
    obtain ⟨t₁, ht₁, hgrown⟩ := hg d t₀ ht₀
    obtain rfl := Option.some.inj (ht'.symm.trans ht₁)
    rcases h.closing d t₀ slot ht₀ (hsame ▸ hpc) with hclosed | ⟨reason, hmem⟩
    · exact .inl (hgrown.closed hclosed)
    · rw [heq]
      split
      next hcd =>
        subst hcd
        obtain rfl := Option.some.inj (ht.symm.trans ht₀)
        rw [htodo] at hmem
        -- the close of an ended handler has just been performed, or is still to come
        rcases List.mem_cons.mp hmem with rfl | hlater
        · obtain ⟨t₂, ht₂, hclosed⟩ := hdone t' ht'
          obtain rfl := Option.some.inj (ht'.symm.trans ht₂)
          exact .inl hclosed
        · exact .inr ⟨reason, List.mem_append_right _ hlater⟩
      next => exact .inr ⟨reason, hmem⟩

/-! ## The steps -/

theorem listed_of_eq {h h' : Hub} (hids : h'.idAt = h.idAt) (hsessions : h'.sessions = h.sessions)
    {ref : Nat} (hl : h.Listed ref) : h'.Listed ref := by
  rw [Hub.Listed, hids, hsessions]
  exact hl

theorem Retains.of_same (hy : y.Owned) (hg : Grows x y) (hn : Named x.hub)
    (hids : y.hub.idAt = x.hub.idAt) (hsessions : y.hub.sessions = x.hub.sessions)
    (hfrees : ∀ ref, Frees x y ref ∨ x.hub.Listed ref ∧ x.Untouched ref) : Retains x y :=
  ⟨hy, hn.same hids hsessions, hg, keepsIds_of_eq hids, fun _ => listed_of_eq hids hsessions,
    fun ref => (hfrees ref).imp id fun h => ⟨listed_of_eq hids hsessions h.1, h.2⟩⟩

theorem frees_of_eq (h : y.hub.connAt = x.hub.connAt) (ref : Nat) : Frees x y ref := by
  intro role c hc
  rwa [h] at hc

/-- A slot of one session changes hands. -/
theorem frees_of_update {slot : Slot} {c : Option ConnId}
    (h : y.hub.connAt = Function.update x.hub.connAt slot c) {ref : Nat}
    (hc : ref = slot.ref → c = none) : Frees x y ref := by
  intro role d hd
  rw [h] at hd
  by_cases heq : (⟨ref, role⟩ : Slot) = slot
  · rw [heq, Function.update_self, hc (by rw [← heq])] at hd
    cases hd
  · rwa [Function.update_of_ne heq] at hd

theorem remove_not_mem_refuse (c : ConnId) (first : First) (err : BeginError) (id : String) :
    .remove id ∉ (refuse c first err).2 := by
  simp [refuse]

theorem remove_not_mem_notifyAndClose (peer : Option (ConnId × String)) (reason id : String) :
    .remove id ∉ notifyAndClose peer reason := by
  cases peer <;> simp [notifyAndClose]

theorem retains_enter {c : ConnId} {t : Thread} {first : First} {draws : Draws} {h : Hub} {pc : Pc}
    {todo : List Action} (ho : x.Orderly) (he : Enter x.hub first t.ip c draws h pc todo)
    (hfresh : ∀ id, draws.id = .ok id → ∀ s ∈ x.hub.heap, s.ID ≠ id) (hhub : y.hub = h)
    (hy : y.Owned) (hg : Grows x y) : Retains x y := by
  cases he with
  | created _ id s m hfull hdraw hid hs hheap hsessions =>
      subst hid hhub
      have hids := idAt_append hheap
      have hne : ∀ {ref id}, x.hub.idAt ref = some id → ref ≠ x.hub.heap.length := by
        rintro ref id href rfl
        rw [idAt_new] at href
        cases href
      refine ⟨hy, ho.named.insert (hfresh _ hdraw) hheap hsessions, hg, fun ref id href => ?_,
        fun ref hlisted => ?_, fun ref => ?_⟩
      · rw [hids, Function.update_of_ne (hne href)]
        exact href
      · obtain ⟨id, href, hlookup⟩ := Option.bind_eq_some_iff.mp hlisted
        have hother : id ≠ s.ID := by
          rintro rfl
          obtain ⟨s', hs', heq⟩ := Option.map_eq_some_iff.mp href
          exact hfresh _ hdraw s' (List.mem_of_getElem? hs') heq
        rw [Hub.Listed, hids, Function.update_of_ne (hne href), href, hsessions]
        exact (AList.lookup_insert_ne hother).trans hlookup
      · by_cases href : ref = x.hub.heap.length
        · refine .inr ⟨?_, ?_⟩
          · rw [href, Hub.Listed, hids, Function.update_self, hsessions]
            exact AList.lookup_insert _
          · intro id hid
            rw [href, idAt_new] at hid
            cases hid
        · exact .inl (frees_of_update (connAt_append hs hheap) fun heq => absurd heq href)
  | joining _ ref id hb =>
      exact .of_same hy hg ho.named (hhub ▸ idAt_of_heap hb.heap) (hhub ▸ hb.sessions)
        fun ref => .inl (frees_of_eq (hhub ▸ connAt_of_heap hb.heap) ref)
  | resuming slot token id =>
      exact .of_same hy hg ho.named (by rw [hhub]) (by rw [hhub]) fun ref =>
        .inl (frees_of_eq (by rw [hhub]) ref)
  | refused _ err hb =>
      exact .of_same hy hg ho.named (hhub ▸ idAt_of_heap hb.heap) (hhub ▸ hb.sessions)
        fun ref => .inl (frees_of_eq (hhub ▸ connAt_of_heap hb.heap) ref)

theorem retains_attach {c : ConnId} {now : Time} {t : Thread} {first : First} {h : Hub} {pc : Pc}
    {todo : List Action} (ho : x.Orderly) (ha : Attach x.hub first t.ip c now t.pc h pc todo)
    (hsafe : ∀ slot ∈ t.pc.target, pc = .serving slot → x.hub.Listed slot.ref ∧ x.Untouched slot.ref)
    (hhub : y.hub = h) (hy : y.Owned) (hg : Grows x y) : Retains x y := by
  generalize t.pc = before at ha hsafe
  cases ha with
  | found =>
      exact .of_same hy hg ho.named (by rw [hhub]) (by rw [hhub]) fun ref =>
        .inl (frees_of_eq (by rw [hhub]) ref)
  | joined ref hostConn s s' hs hs' =>
      obtain ⟨-, hid, hslots⟩ := Session.attach_spec hs'
      refine .of_same hy hg ho.named (by rw [hhub]; exact idAt_set hs hid rfl) (by rw [hhub]; rfl)
        fun ref' => ?_
      by_cases heq : ref' = ref
      · exact .inr (heq ▸ hsafe ⟨ref, .guest⟩ rfl rfl)
      · exact .inl (frees_of_update (by rw [hhub]; exact connAt_set hs hslots rfl)
          fun h => absurd h heq)
  | resumed slot token s s' hs hs' =>
      obtain ⟨-, hid, hslots⟩ := Session.reattach_spec hs'
      refine .of_same hy hg ho.named (by rw [hhub]; exact idAt_set hs hid rfl) (by rw [hhub]; rfl)
        fun ref' => ?_
      by_cases heq : ref' = slot.ref
      · exact .inr (heq ▸ hsafe slot rfl rfl)
      · exact .inl (frees_of_update (by rw [hhub]; exact connAt_set hs hslots rfl)
          fun h => absurd h heq)
  | refused =>
      exact .of_same hy hg ho.named (by rw [hhub]) (by rw [hhub]) fun ref =>
        .inl (frees_of_eq (by rw [hhub]) ref)

theorem retains_receive {c : ConnId} {slot : Slot} {s : Session} {msg : Incoming}
    {now : Time} (ho : x.Orderly) (hs : x.hub.heap[slot.ref]? = some s)
    (hhub : y.hub = (receive x.hub c slot s msg now).1) (hy : y.Owned) (hg : Grows x y) :
    Retains x y :=
  .of_same hy hg ho.named (hhub ▸ idAt_receive hs c msg now)
    (hhub ▸ sessions_receive x.hub c slot s msg now) fun ref =>
      .inl (frees_of_eq (hhub ▸ connAt_of_peerAt (receive_spec hs c msg now).1) ref)

/-- Who ends its session clears it first. -/
theorem removes_end {c : ConnId} {slot : Slot} {s : Session}
    (hs : y.hub.heap[slot.ref]? = some s) (hasked : y.Asked c)
    (hconn : y.hub.connAt slot = some c) :
    y.Removes (notifyAndClose (s.connAndIP slot.role.other) ReasonEndedByPeer ++
      [.remove s.ID, .close c "connection closed"]) := by
  intro id hid
  obtain rfl : id = s.ID := by
    rcases List.mem_append.mp hid with hid | hid
    · exact absurd hid (remove_not_mem_notifyAndClose _ _ _)
    · simpa using hid
  refine ⟨slot.ref, _, [.close c "connection closed"], idAt_of_get hs, rfl, fun id' hid' => ?_,
    fun role d hd => ?_⟩
  · rcases List.mem_append.mp hid' with hid' | hid'
    · exact remove_not_mem_notifyAndClose _ _ _ hid'
    · simp at hid'
  · have hget : y.hub.connAt ⟨slot.ref, role⟩ = s.connOf role := connAt_of_get hs
    rw [hget, Session.connOf] at hd
    obtain ⟨⟨d', ip⟩, hlive, rfl⟩ := Option.map_eq_some_iff.mp hd
    by_cases hrole : role = slot.role
    · left
      rw [connAt_of_get hs, Session.connOf, ← hrole, hlive] at hconn
      obtain rfl := Option.some.inj hconn
      exact hasked
    · right
      have hother : slot.role.other = role := by
        cases hr : slot.role <;> cases role <;> first | rfl | exact absurd hr.symm hrole
      rw [hother, hlive]
      exact ⟨.inr ⟨ReasonEndedByPeer, by simp [notifyAndClose]⟩,
        .inr ⟨ReasonEndedByPeer, by simp [notifyAndClose]⟩⟩

/-- The reaper clears a session first. -/
theorem removes_reap {ref : Nat} {s : Session} {now : Time} (hs : x.hub.heap[ref]? = some s) :
    x.Removes (reapActions x.hub s now) := by
  unfold reapActions
  dsimp only
  rw [Session.live_snapshot, Session.live_snapshot]
  split
  next => exact removes_of_none (by simp)
  next reason _ =>
    intro id hid
    obtain rfl : id = s.ID := by
      simpa [remove_not_mem_notifyAndClose] using hid
    refine ⟨ref, _, [], idAt_of_get hs, rfl, fun id' hid' => ?_, fun role d hd => .inr ?_⟩
    · simp [remove_not_mem_notifyAndClose] at hid'
    · have hget : x.hub.connAt ⟨ref, role⟩ = s.connOf role := connAt_of_get hs
      rw [hget, Session.connOf] at hd
      obtain ⟨⟨d', ip⟩, hlive, rfl⟩ := Option.map_eq_some_iff.mp hd
      have hmem : ∀ a ∈ notifyAndClose (some (d', ip)) reason,
          a ∈ notifyAndClose (s.connAndIP .host) reason ++
            notifyAndClose (s.connAndIP .guest) reason := by
        intro a ha
        rw [← hlive] at ha
        cases role with
        | host => exact List.mem_append_left _ ha
        | guest => exact List.mem_append_right _ ha
      exact ⟨.inr ⟨reason, hmem _ (by simp [notifyAndClose])⟩,
        .inr ⟨reason, hmem _ (by simp [notifyAndClose])⟩⟩

theorem orderly_step {e : Step} (h : x.Orderly) (hu : x.Unhurried e) (hstep : step x e = some y) :
    y.Orderly := by
  have hy := owned_step h.owned hstep
  have hg := grows_step hstep
  cases step_spec hstep with
  | accepted ip =>
      have hr := Retains.of_same hy hg h.named rfl rfl fun ref => .inl (frees_of_eq rfl ref)
      refine ⟨hy, hr.named, fun t ht => ?_, Retains.reaper (x := x) h hr, Retains.removed h hr,
        fun d t slot ht hpc => ?_⟩
      · obtain ⟨d, hd⟩ := List.mem_iff_getElem?.mp ht
        rcases Tally.getElem?_concat_eq_some hd with hmem | ⟨-, rfl⟩
        · exact Retains.thread h hr (List.mem_of_getElem? hmem)
        · exact removes_of_none (by simp [Thread.accept])
      · rcases Tally.getElem?_concat_eq_some ht with hmem | ⟨-, rfl⟩
        · exact h.closing d t slot hmem hpc
        · cases hpc
  | begun c first now draws t hub pc todo ht hfresh he =>
      -- a new session must not take the id of one that is being torn down
      have hids : ∀ id, draws.id = .ok id → ∀ s ∈ x.hub.heap, s.ID ≠ id := by
        intro id hid
        rw [Unhurried, hid] at hu
        exact hu
      refine h.change (retains_enter h he hids rfl hy hg)
        (f := fun t => { t.goto pc todo with first := some first }) rfl rfl fun t' ht' => ?_
      cases he with
      | created | joining | resuming =>
          exact ⟨removes_of_none (by simp [Thread.goto]), fun slot hpc => by cases hpc⟩
      | refused _ err =>
          exact ⟨removes_of_none (remove_not_mem_refuse c first err), fun slot hpc => by cases hpc⟩
  | attached c now t first hub pc todo ht hfirst ha hnext =>
      -- the only step that fills a slot: its session is listed and nobody tears it down
      have hsafe : ∀ slot ∈ t.pc.target, pc = .serving slot →
          x.hub.Listed slot.ref ∧ x.Untouched slot.ref := by
        intro slot hslot hpc
        refine hu t ht slot hslot ?_
        rw [hfirst, Option.bind_some, hnext]
        simp [hpc]
      refine h.change (retains_attach h ha hsafe rfl hy hg) (f := Thread.goto pc todo) rfl rfl
        fun t' ht' => ?_
      generalize t.pc = before at ha
      cases ha with
      | found | joined | resumed =>
          exact ⟨removes_of_none (by simp [Thread.goto]), fun slot hpc => by cases hpc⟩
      | refused _ err =>
          exact ⟨removes_of_none (remove_not_mem_refuse c first err), fun slot hpc => by cases hpc⟩
  | acted c t a todo ht htodo => exact orderly_act h ht htodo hy hg
  | received c msg now t slot s ht hpc htodo hs =>
      refine h.change (retains_receive h hs rfl hy hg) (f := Thread.goto _ _) rfl rfl
        fun t' ht' => ?_
      cases msg with
      | endSession =>
          -- `EndSession` has read the peer: closing it comes before the removal
          refine ⟨removes_end hs ⟨_, slot, Tally.getElem?_modify_self ht _, rfl⟩
            (h.owned.serves ht hpc), fun slot' _ => .inr ⟨"connection closed", ?_⟩⟩
          simp [receive, Thread.goto]
      | reconnectToken tokenHex =>
          exact ⟨removes_of_none (by simp [receive, Thread.goto]), fun slot' hpc' => by cases hpc'⟩
      | other binary data =>
          refine ⟨removes_of_none fun id hid => ?_, fun slot' hpc' => by cases hpc'⟩
          cases binary <;> simp [receive, Thread.goto] at hid
  | dropped c =>
      have hr := Retains.of_same hy hg h.named rfl rfl fun ref => .inl (frees_of_eq rfl ref)
      exact h.change hr (f := Thread.shut) rfl rfl fun t ht =>
        ⟨Retains.thread (t := t) h hr (List.mem_of_getElem? ht), fun slot _ => .inl rfl⟩
  | left c now t slot s ht hpc htodo hs =>
      obtain ⟨ip, hlive⟩ := h.owned.live ht hpc hs
      obtain ⟨hid, hslots, -⟩ := Session.markDisconnected_spec hlive now
      have hr := Retains.of_same hy hg h.named (idAt_set hs hid rfl) rfl fun ref =>
        .inl (frees_of_update (connAt_set hs hslots rfl) fun _ => rfl)
      refine h.change hr (f := Thread.goto _ _) rfl rfl fun t' ht' =>
        ⟨removes_of_none fun id hid => ?_, fun slot' hpc' => by cases hpc'⟩
      simp [Thread.goto, leaveActions] at hid
  | swept now ids hidle htodo =>
      have hr := Retains.of_same hy hg h.named rfl rfl fun ref => .inl (frees_of_eq rfl ref)
      exact ⟨hy, hr.named, fun t ht => Retains.thread h hr ht, Retains.reaper (x := x) h hr,
        Retains.removed h hr, h.closing⟩
  | looked pc htodo hfound =>
      have hr := Retains.of_same hy hg h.named rfl rfl fun ref => .inl (frees_of_eq rfl ref)
      exact ⟨hy, hr.named, fun t ht => Retains.thread h hr ht, Retains.reaper (x := x) h hr,
        Retains.removed h hr, h.closing⟩
  | snapped now ids ref s hpc hs =>
      have hr := Retains.of_same hy hg h.named rfl rfl fun ref => .inl (frees_of_eq rfl ref)
      -- the snapshot names both peers, and what is left to do closes them before the removal
      exact ⟨hy, hr.named, fun t ht => Retains.thread h hr ht, removes_reap hs,
        Retains.removed h hr, h.closing⟩
  | reaperActed a todo htodo =>
      have hremoves : x.Removes (a :: todo) := htodo ▸ h.reaper
      -- only the removal itself takes a session out, and by then its peers are closed
      have hact := h.perform (a := a) hy hg rfl fun id ref ha hid => by
        subst ha
        exact hremoves.head h.named hid
      obtain ⟨hnamed, hids, hfrees, hremoved⟩ := hact
      refine ⟨hy, hnamed, fun t' ht' => ?_, ?_, hremoved, fun d t' slot ht' hpc => ?_⟩
      · obtain ⟨d, hd⟩ := List.mem_iff_getElem?.mp ht'
        obtain ⟨t, ht, hcore⟩ := get_perform hd
        rw [hcore.todo]
        exact (h.threads t (List.mem_of_getElem? ht)).mono hy hg hids fun ref _ _ _ => hfrees ref
      · exact hremoves.next hy hg hids hfrees
          (Grows.done (fun _ t ht => ⟨t, ht, .refl t⟩) rfl (done_perform x a))
          (remove_not_mem_more x a)
      · obtain ⟨t, ht, hcore⟩ := get_perform ht'
        obtain ⟨t₁, ht₁, hgrown⟩ := hg d t ht
        obtain rfl := Option.some.inj (ht'.symm.trans ht₁)
        rcases h.closing d t slot ht (hcore.pc ▸ hpc) with hclosed | hmem
        · exact .inl (hgrown.closed hclosed)
        · exact .inr (hcore.todo ▸ hmem)

theorem orderly_init (cfg : Config) : (init cfg).Orderly where
  owned := owned_init cfg
  named := by
    refine ⟨fun ref ref' id h => ?_, fun id ref h => ?_⟩
    · simp [init, Hub.new, Hub.idAt] at h
    · simp [init, Hub.new] at h
  threads := by simp [init]
  reaper := removes_of_none (by simp [init])
  removed := by
    intro ref _ role c h
    simp [init, Hub.new, Hub.connAt] at h
  closing := by
    intro c t slot h
    simp [init] at h

theorem grows_run {es : List Step} (h : Transition.run step x es = some y) : Grows x y :=
  Transition.invariant (I := Grows x) (fun _ _ _ hg hstep => hg.trans (grows_step hstep)) (.refl x) h

/-- **No orphans.** In a run in which every slot is taken in a session that is in
the map and that nobody is tearing down, an open connection in a slot belongs
to a session in the map whenever nothing is in progress; and who is in a session
that is no longer in the map asked for its end, or has been told and closed, and
stays so. -/
theorem no_orphans (cfg : Config) (es : List Step)
    (hg : Transition.Guarded step Unhurried (init cfg) es)
    (hrun : Transition.run step (init cfg) es = some x) :
    (x.Quiet → ∀ slot (c : ConnId) t, x.hub.connAt slot = some c → x.threads[c]? = some t →
      t.closed = false → x.hub.Listed slot.ref) ∧
    ∀ slot c, x.hub.connAt slot = some c → ¬ x.hub.Listed slot.ref → ∀ es' y,
      Transition.run step x es' = some y → y.Asked c ∨ y.Told c ∧ y.Shut c := by
  have h : x.Orderly := hg.invariant (I := Orderly)
    (fun x e y hx hu hstep => orderly_step hx hu hstep) (orderly_init cfg) hrun
  have hclear : ∀ slot c, x.hub.connAt slot = some c → ¬ x.hub.Listed slot.ref →
      x.Asked c ∨ x.Told c ∧ x.Shut c := by
    intro slot c hc hnot
    simpa using h.removed slot.ref hnot slot.role c hc
  refine ⟨fun hquiet slot c t hc ht hopen => ?_, fun slot c hc hnot es' y hrun' => ?_⟩
  · by_contra hnot
    rcases hclear slot c hc hnot with ⟨t', slot', ht', hpc⟩ | ⟨-, t', ht', hclosed⟩
    · obtain rfl := Option.some.inj (ht.symm.trans ht')
      rcases h.closing c t slot' ht hpc with hclosed | ⟨reason, hmem⟩
      · rw [hclosed] at hopen
        cases hopen
      · rw [(hquiet.1 t (List.mem_of_getElem? ht)).1] at hmem
        cases hmem
    · obtain rfl := Option.some.inj (ht.symm.trans ht')
      rw [hclosed] at hopen
      cases hopen
  · have hgrows := grows_run hrun'
    exact (hclear slot c hc hnot).imp hgrows.asked fun h => ⟨hgrows.told h.1, hgrows.shut h.2⟩

/-! ## A guest and a host that leaves -/

/-- The run in which two are paired, and the host then ends the session for both. -/
def endedByHost : List Step :=
  [.accept "a", .begin 0 .createSession 0 (Relay.drawID "s"), .act 0, .accept "b",
    .begin 1 (.join (some "s")) 1 (Relay.drawID "x"), .attach 1 1, .attach 1 1, .act 1, .act 1,
    .act 1, .frame 0 .endSession 2, .act 0, .act 0, .act 0, .act 0, .act 0]

theorem no_orphans_endedByHost : ∃ x,
    Transition.run step (init Relay.smallConfig) endedByHost = some x ∧ x.Quiet ∧
      ¬ x.hub.Listed 0 ∧ (x.Asked 1 ∨ x.Told 1 ∧ x.Shut 1) := by
  have hg : Transition.Guarded step Unhurried (init Relay.smallConfig) endedByHost := by
    decide +kernel
  have hrun : (Transition.run step (init Relay.smallConfig) endedByHost).any (fun x =>
      decide x.Quiet && decide (¬ x.hub.Listed 0) &&
      decide (x.hub.connAt ⟨0, .guest⟩ = some 1)) = true := by decide +kernel
  obtain ⟨x, hr, hx⟩ := (Option.any_eq_true _ _).mp hrun
  simp only [Bool.and_eq_true, decide_eq_true_eq] at hx
  obtain ⟨-, hpeers⟩ := no_orphans Relay.smallConfig endedByHost hg hr
  exact ⟨x, hr, hx.1.1, hx.1.2, hpeers ⟨0, .guest⟩ 1 hx.2 hx.1.2 [] x rfl⟩

/-- The guest has found the host when the host ends the session. -/
def joinedTooLate : List Step :=
  [.accept "a", .begin 0 .createSession 0 (Relay.drawID "s"), .act 0, .accept "b",
    .begin 1 (.join (some "s")) 1 (Relay.drawID "x"), .attach 1 1, .frame 0 .endSession 2, .act 0,
    .act 0, .attach 1 2, .act 1, .act 1, .act 1]

/-- Nothing is in progress, and the guest is in a session that is not in the map:
neither told nor closed. -/
theorem guest_orphaned : ∃ x, Transition.run step (init Relay.smallConfig) joinedTooLate = some x ∧
    x.Quiet ∧ x.hub.connAt ⟨0, .guest⟩ = some 1 ∧ (∃ t, x.threads[1]? = some t ∧
      t.closed = false ∧ ∀ reason, .control (.sessionEnded reason) ∉ t.sent) ∧
    ¬ x.hub.Listed 0 := by
  have hrun : (Transition.run step (init Relay.smallConfig) joinedTooLate).any (fun x =>
      decide x.Quiet && decide (x.hub.connAt ⟨0, .guest⟩ = some 1) &&
      decide ((x.threads[1]?).any (fun t => !t.closed &&
        decide (t.sent = [.control (.paired "s")])) = true) &&
      decide (¬ x.hub.Listed 0)) = true := by decide +kernel
  obtain ⟨x, hr, hx⟩ := (Option.any_eq_true _ _).mp hrun
  simp only [Bool.and_eq_true, decide_eq_true_eq] at hx
  obtain ⟨t, ht, hopen⟩ := (Option.any_eq_true _ _).mp hx.1.2
  rw [Bool.and_eq_true, Bool.not_eq_true', decide_eq_true_eq] at hopen
  refine ⟨x, hr, hx.1.1.1, hx.1.1.2, ⟨t, ht, hopen.1, fun reason => ?_⟩, hx.2⟩
  rw [hopen.2]
  simp

end Goroutines

end Quicksend.Server
