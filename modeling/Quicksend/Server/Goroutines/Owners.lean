import Quicksend.Lib.Inverse
import Quicksend.Lib.Transition
import Quicksend.Server.Goroutines.Steps

/-!
# One owner for each slot

Which connection is in a slot, and which slot a handler took and has not left,
say the same. A handler that ended its session keeps its slot: nothing takes it
out of a session that is given up.
-/

namespace Quicksend.Server

/-- The slot a handler took and has not left. -/
def Pc.held : Pc → Option Slot
  | .serving slot | .ended slot => some slot
  | .fresh | .joining _ | .attaching _ _ | .resuming _ _ | .left _ | .refused => none

/-- The slot that a handler has taken at any time, also when it has left it since. -/
def Pc.slot : Pc → Option Slot
  | .serving slot | .ended slot | .left slot => some slot
  | .fresh | .joining _ | .attaching _ _ | .resuming _ _ | .refused => none

@[simp] theorem Slot.other_other (slot : Slot) : slot.other.other = slot := by
  cases slot
  simp [Slot.other]

theorem other_ne (slot : Slot) : slot.other ≠ slot := by
  obtain ⟨ref, role⟩ := slot
  cases role <;> simp [Slot.other, Role.other]

/-- Whether an action is about a frame that a handler read. -/
def Action.relays : Action → Bool
  | .tell _ (.relayed _ _) | .send _ (.relayed _ _) | .record _ _ => true
  | _ => false

/-! ## Connections in slots -/

/-- The live connection of a slot, with its address. -/
def Hub.peerAt (h : Hub) (slot : Slot) : Option (ConnId × String) :=
  (h.heap[slot.ref]?).bind (·.connAndIP slot.role)

section ConnAt

variable {h h' : Hub}

theorem connAt_eq (h : Hub) : h.connAt = Option.map Prod.fst ∘ h.peerAt := by
  funext slot
  rw [Hub.connAt, Function.comp_apply, Hub.peerAt, Option.map_bind]
  rfl

theorem peerAt_of_heap (hheap : h'.heap = h.heap) : h'.peerAt = h.peerAt := by
  funext slot
  rw [Hub.peerAt, Hub.peerAt, hheap]

theorem peerAt_of_get {slot : Slot} {s : Session} (hs : h.heap[slot.ref]? = some s) :
    h.peerAt slot = s.connAndIP slot.role := by
  rw [Hub.peerAt, hs]
  rfl

/-- A session whose slot `role` has another connection now. -/
theorem peerAt_set {ref : Nat} {role : Role} {s t : Session} {c : Option (ConnId × String)}
    (hs : h.heap[ref]? = some s) (ht : t.connAndIP = Function.update s.connAndIP role c)
    (hheap : h'.heap = h.heap.set ref t) :
    h'.peerAt = Function.update h.peerAt ⟨ref, role⟩ c := by
  funext slot
  rw [Hub.peerAt, hheap]
  by_cases href : slot.ref = ref
  · rw [href, List.getElem?_set_self (List.getElem?_eq_some_iff.mp hs).1]
    change t.connAndIP slot.role = _
    rw [ht]
    by_cases hrole : slot.role = role
    · rw [hrole, Function.update_self, show slot = ⟨ref, role⟩ from by rw [← href, ← hrole],
        Function.update_self]
    · have hne : slot ≠ ⟨ref, role⟩ := fun heq => hrole (by rw [heq])
      rw [Function.update_of_ne hrole, Function.update_of_ne hne, peerAt_of_get (href ▸ hs)]
  · have hne : slot ≠ ⟨ref, role⟩ := fun heq => href (by rw [heq])
    rw [Function.update_of_ne hne, List.getElem?_set_ne (Ne.symm href)]
    rfl

/-- A session with the same connections. -/
theorem peerAt_set_same {ref : Nat} {s t : Session} (hs : h.heap[ref]? = some s)
    (ht : t.connAndIP = s.connAndIP) (hheap : h'.heap = h.heap.set ref t) :
    h'.peerAt = h.peerAt := by
  have hget : h.peerAt ⟨ref, .host⟩ = s.connAndIP .host := peerAt_of_get hs
  have hslot : h'.peerAt = Function.update h.peerAt ⟨ref, .host⟩ (s.connAndIP .host) :=
    peerAt_set hs (ht.trans (Function.update_eq_self _ _).symm) hheap
  rw [hslot, ← hget, Function.update_eq_self]

theorem peerAt_new {slot : Slot} (h : Hub) (hslot : slot.ref = h.heap.length) :
    h.peerAt slot = none := by
  rw [Hub.peerAt, hslot, List.getElem?_eq_none (Nat.le_refl _)]
  rfl

/-- A new session. -/
theorem peerAt_append {s : Session} {role : Role} {c : ConnId × String}
    (hs : s.connAndIP = Function.update (fun _ : Role => none) role (some c))
    (hheap : h'.heap = h.heap ++ [s]) :
    h'.peerAt = Function.update h.peerAt ⟨h.heap.length, role⟩ (some c) := by
  funext slot
  rw [Hub.peerAt, hheap]
  rcases Nat.lt_trichotomy slot.ref h.heap.length with hlt | heq | hgt
  · have hne : slot ≠ ⟨h.heap.length, role⟩ := by
      rintro rfl
      exact Nat.lt_irrefl _ hlt
    rw [Function.update_of_ne hne, List.getElem?_append_left hlt]
    rfl
  · rw [heq, List.getElem?_concat_length]
    change s.connAndIP slot.role = _
    rw [hs]
    by_cases hrole : slot.role = role
    · rw [hrole, Function.update_self, show slot = ⟨h.heap.length, role⟩ from by
        rw [← heq, ← hrole], Function.update_self]
    · have hne : slot ≠ ⟨h.heap.length, role⟩ := fun h => hrole (by rw [h])
      rw [Function.update_of_ne hrole, Function.update_of_ne hne, peerAt_new h heq]
  · have hne : slot ≠ ⟨h.heap.length, role⟩ := by
      rintro rfl
      exact Nat.lt_irrefl _ hgt
    rw [Function.update_of_ne hne, Hub.peerAt, List.getElem?_eq_none (by simp; omega),
      List.getElem?_eq_none (by omega)]

theorem connAt_of_peerAt (hpeer : h'.peerAt = h.peerAt) : h'.connAt = h.connAt := by
  rw [connAt_eq, connAt_eq, hpeer]

theorem connAt_of_heap (hheap : h'.heap = h.heap) : h'.connAt = h.connAt :=
  connAt_of_peerAt (peerAt_of_heap hheap)

theorem connAt_of_get {slot : Slot} {s : Session} (hs : h.heap[slot.ref]? = some s) :
    h.connAt slot = s.connOf slot.role := by
  rw [connAt_eq, Function.comp_apply, peerAt_of_get hs]
  rfl

theorem connAt_set {ref : Nat} {role : Role} {s t : Session} {c : Option (ConnId × String)}
    (hs : h.heap[ref]? = some s) (ht : t.connAndIP = Function.update s.connAndIP role c)
    (hheap : h'.heap = h.heap.set ref t) :
    h'.connAt = Function.update h.connAt ⟨ref, role⟩ (c.map Prod.fst) := by
  rw [connAt_eq, connAt_eq, peerAt_set hs ht hheap, Function.comp_update]

theorem connAt_append {s : Session} {role : Role} {c : ConnId × String}
    (hs : s.connAndIP = Function.update (fun _ : Role => none) role (some c))
    (hheap : h'.heap = h.heap ++ [s]) :
    h'.connAt = Function.update h.connAt ⟨h.heap.length, role⟩ (some c.1) := by
  rw [connAt_eq, connAt_eq, peerAt_append hs hheap, Function.comp_update]
  rfl

theorem connAt_new {slot : Slot} (h : Hub) (hslot : slot.ref = h.heap.length) :
    h.connAt slot = none := by
  rw [connAt_eq, Function.comp_apply, peerAt_new h hslot]
  rfl

end ConnAt

namespace Goroutines

variable {x y : Goroutines}

/-- The slot that the handler of this connection took and has not left. -/
def held (x : Goroutines) (c : ConnId) : Option Slot := (x.threads[c]?).bind (·.pc.held)

/-- Slots and goroutines name each other: a slot's connection is the one whose
goroutine holds that slot, and no other. -/
def Owned (x : Goroutines) : Prop := Inverse x.hub.connAt x.held

theorem held_of_get {c : ConnId} {t : Thread} (ht : x.threads[c]? = some t) :
    x.held c = t.pc.held := by
  rw [held, ht]
  rfl

theorem held_modify_of_pc (c : ConnId) {f : Thread → Thread} (hf : ∀ t, (f t).pc = t.pc) :
    (x.modify c f).held = x.held := by
  funext d
  rw [held, held, modify]
  dsimp only
  rw [List.getElem?_modify]
  cases x.threads[d]? with
  | none => rfl
  | some t =>
      change ((if c = d then f t else t).pc.held) = t.pc.held
      split
      · rw [hf]
      · rfl

theorem held_modify {c : ConnId} {t : Thread} (ht : x.threads[c]? = some t) (f : Thread → Thread) :
    (x.modify c f).held = Function.update x.held c (f t).pc.held := by
  funext d
  rw [held, modify]
  by_cases hd : d = c
  · subst hd
    rw [Function.update_self]
    dsimp only
    rw [Tally.getElem?_modify_self ht]
    rfl
  · rw [Function.update_of_ne hd]
    dsimp only
    rw [Tally.getElem?_modify_ne (Ne.symm hd)]
    rfl

theorem held_append (new : Thread) (hnew : new.pc.held = none) :
    ({ x with threads := x.threads ++ [new] } : Goroutines).held = x.held := by
  funext d
  rw [held, held]
  dsimp only
  rcases Nat.lt_trichotomy d x.threads.length with hlt | heq | hgt
  · rw [List.getElem?_append_left hlt]
  · rw [heq, List.getElem?_concat_length, List.getElem?_eq_none (Nat.le_refl _)]
    exact hnew
  · rw [List.getElem?_eq_none (by simp; omega), List.getElem?_eq_none (by omega)]

/-! ## What an action leaves alone -/

theorem peerAt_recorded (h : Hub) (slot : Slot) (data : Bytes) :
    (recorded h slot data).1.peerAt = h.peerAt := by
  unfold recorded
  split
  next => rfl
  next s hs =>
    obtain ⟨-, hsame⟩ := Session.recordChunkBytes_spec s data h.cfg.MaxFileSize
    exact peerAt_set_same hs hsame rfl

theorem peerAt_perform (x : Goroutines) (a : Action) :
    (x.perform a).1.hub.peerAt = x.hub.peerAt := by
  cases a with
  | record slot data => exact peerAt_recorded x.hub slot data
  | _ => rfl

theorem connAt_perform (x : Goroutines) (a : Action) :
    (x.perform a).1.hub.connAt = x.hub.connAt := connAt_of_peerAt (peerAt_perform x a)

/-- A thread that was written to or whose connection was closed. -/
structure SameCore (t t' : Thread) : Prop where
  ip : t'.ip = t.ip
  first : t'.first = t.first
  pc : t'.pc = t.pc
  todo : t'.todo = t.todo

theorem get_modify_core {c d : ConnId} {f : Thread → Thread} (hf : ∀ t, SameCore t (f t))
    {t' : Thread} (h : (x.modify c f).threads[d]? = some t') :
    ∃ t, x.threads[d]? = some t ∧ SameCore t t' := by
  obtain ⟨t, ht, rfl⟩ := Tally.getElem?_modify_eq_some h
  refine ⟨t, ht, ?_⟩
  split
  · exact hf t
  · exact ⟨rfl, rfl, rfl, rfl⟩

theorem get_perform {a : Action} {d : ConnId} {t' : Thread}
    (h : (x.perform a).1.threads[d]? = some t') : ∃ t, x.threads[d]? = some t ∧ SameCore t t' := by
  cases a with
  | send conn frame =>
      exact get_modify_core (f := Thread.write frame) (fun t => ⟨rfl, rfl, rfl, rfl⟩) h
  | close conn reason =>
      exact get_modify_core (f := Thread.shut) (fun t => ⟨rfl, rfl, rfl, rfl⟩) h
  | _ => exact ⟨t', h, rfl, rfl, rfl, rfl⟩

theorem perform_get {a : Action} {d : ConnId} {t : Thread} (h : x.threads[d]? = some t) :
    ∃ t', (x.perform a).1.threads[d]? = some t' ∧ SameCore t t' := by
  have hlen : (x.perform a).1.threads.length = x.threads.length := by
    cases a <;> simp [perform, modify, setHub]
  have hlt : d < (x.perform a).1.threads.length := by
    rw [hlen]
    exact (List.getElem?_eq_some_iff.mp h).1
  obtain ⟨t₂, ht₂, hcore⟩ := get_perform (List.getElem?_eq_getElem hlt)
  obtain rfl := Option.some.inj (h.symm.trans ht₂)
  exact ⟨_, List.getElem?_eq_getElem hlt, hcore⟩

theorem held_perform (x : Goroutines) (a : Action) : (x.perform a).1.held = x.held := by
  cases a with
  | send conn frame => exact held_modify_of_pc conn fun _ => rfl
  | close conn reason => exact held_modify_of_pc conn fun _ => rfl
  | _ => rfl

/-! ## What a handler never loses -/

/-- A handler keeps its address, what it was sent and the slot it took; it
stays closed, and it ends its session for good. -/
structure Grown (t t' : Thread) : Prop where
  ip : t'.ip = t.ip
  first : ∀ slot, t.pc.slot = some slot → t'.first = t.first
  sent : t.sent <+: t'.sent
  closed : t.closed = true → t'.closed = true
  slot : ∀ slot, t.pc.slot = some slot → t'.pc.slot = some slot
  ended : ∀ slot, t.pc = .ended slot → t'.pc = .ended slot

/-- Every goroutine of `x` is still there in `y`, with all that it has written and
done. -/
def Grows (x y : Goroutines) : Prop := ∀ (d : ConnId) (t : Thread), x.threads[d]? = some t →
  ∃ t', y.threads[d]? = some t' ∧ Grown t t'

theorem Grown.refl (t : Thread) : Grown t t :=
  ⟨rfl, fun _ _ => rfl, List.prefix_refl _, id, fun _ => id, fun _ => id⟩

theorem Grown.trans {t t' t'' : Thread} (h : Grown t t') (h' : Grown t' t'') : Grown t t'' where
  ip := h'.ip.trans h.ip
  first slot hslot := (h'.first slot (h.slot slot hslot)).trans (h.first slot hslot)
  sent := h.sent.trans h'.sent
  closed := h'.closed ∘ h.closed
  slot slot := h'.slot slot ∘ h.slot slot
  ended slot := h'.ended slot ∘ h.ended slot

theorem Grows.refl (x : Goroutines) : Grows x x := fun _ t ht => ⟨t, ht, .refl t⟩

theorem Grows.trans {z : Goroutines} (h : Grows x y) (h' : Grows y z) : Grows x z := by
  intro d t ht
  obtain ⟨t', ht', hgrown⟩ := h d t ht
  obtain ⟨t'', ht'', hgrown'⟩ := h' d t' ht'
  exact ⟨t'', ht'', hgrown.trans hgrown'⟩

theorem grows_modify {c : ConnId} {f : Thread → Thread}
    (hf : ∀ t, x.threads[c]? = some t → Grown t (f t)) (hy : y.threads = x.threads.modify c f) :
    Grows x y := by
  intro d t ht
  rw [hy]
  by_cases hd : c = d
  · subst hd
    exact ⟨f t, Tally.getElem?_modify_self ht f, hf t ht⟩
  · exact ⟨t, (Tally.getElem?_modify_ne hd f).trans ht, .refl t⟩

/-- A handler that has no slot yet, or keeps it, goes on. -/
theorem grown_goto {t : Thread} {pc : Pc} (todo : List Action)
    (hslot : ∀ slot, t.pc.slot = some slot → pc.slot = some slot)
    (hended : ∀ slot, t.pc = .ended slot → pc = .ended slot) : Grown t (t.goto pc todo) :=
  ⟨rfl, fun _ _ => rfl, List.prefix_refl _, id, hslot, hended⟩

theorem grows_perform (x : Goroutines) (a : Action) : Grows x (x.perform a).1 := by
  cases a with
  | send conn frame =>
      exact grows_modify (f := Thread.write frame)
        (fun t _ => ⟨rfl, fun _ _ => rfl, List.prefix_append _ _, id, fun _ => id, fun _ => id⟩) rfl
  | close conn reason =>
      exact grows_modify (f := Thread.shut)
        (fun t _ => ⟨rfl, fun _ _ => rfl, List.prefix_refl _, fun _ => rfl, fun _ => id, fun _ => id⟩) rfl
  | take | release | remove | tell | record => exact Grows.refl x

theorem slot_of_entering {pc : Pc} (h : pc.entering = true) : pc.slot = none := by
  cases pc <;> first | rfl | cases h

theorem attach_entering {h h' : Hub} {first : First} {ip : String} {conn : ConnId} {now : Time}
    {pc pc' : Pc} {todo : List Action} (ha : Attach h first ip conn now pc h' pc' todo) :
    pc.entering = true := by
  cases ha with
  | refused _ _ hpc => exact hpc
  | _ => rfl

theorem grows_step {e : Step} (hstep : step x e = some y) : Grows x y := by
  cases step_spec hstep with
  | accepted ip =>
      intro d t ht
      refine ⟨t, ?_, .refl t⟩
      dsimp only
      rw [List.getElem?_append_left (List.getElem?_eq_some_iff.mp ht).1]
      exact ht
  | begun c first now draws t hub pc todo ht hfresh he =>
      refine grows_modify (f := fun t => { t.goto pc todo with first := some first })
        (fun t' ht' => ?_) rfl
      obtain rfl := Option.some.inj (ht.symm.trans ht')
      refine ⟨rfl, fun slot hslot => ?_, List.prefix_refl _, id, fun slot hslot => ?_,
        fun slot hslot => ?_⟩
      · rw [hfresh] at hslot
        cases hslot
      · rw [hfresh] at hslot
        cases hslot
      · rw [hfresh] at hslot
        cases hslot
  | attached c now t first hub pc todo ht hfirst ha =>
      refine grows_modify (f := Thread.goto pc todo) (fun t' ht' => ?_) rfl
      obtain rfl := Option.some.inj (ht.symm.trans ht')
      have hnone := slot_of_entering (attach_entering ha)
      refine grown_goto todo (fun slot hslot => ?_) fun slot hslot => ?_
      · rw [hnone] at hslot
        cases hslot
      · rw [hslot] at hnone
        cases hnone
  | acted c t a todo ht htodo =>
      refine (grows_perform x a).trans ?_
      exact grows_modify (f := Thread.setTodo ((x.perform a).2 ++ todo))
        (fun t _ => ⟨rfl, fun _ _ => rfl, List.prefix_refl _, id, fun _ => id, fun _ => id⟩) rfl
  | received c msg now t slot s ht hpc htodo hs =>
      refine grows_modify (f := Thread.goto _ _) (fun t' ht' => ?_) rfl
      obtain rfl := Option.some.inj (ht.symm.trans ht')
      refine grown_goto _ (fun slot' hslot => ?_) fun slot' hslot => ?_
      · rw [hpc] at hslot
        cases msg <;> exact hslot
      · rw [hpc] at hslot
        cases hslot
  | dropped c =>
      exact grows_modify (f := Thread.shut)
        (fun t _ => ⟨rfl, fun _ _ => rfl, List.prefix_refl _, fun _ => rfl, fun _ => id, fun _ => id⟩) rfl
  | left c now t slot s ht hpc htodo hs =>
      refine grows_modify (f := Thread.goto _ _) (fun t' ht' => ?_) rfl
      obtain rfl := Option.some.inj (ht.symm.trans ht')
      refine grown_goto _ (fun slot' hslot => ?_) fun slot' hslot => ?_
      · rw [hpc] at hslot
        exact hslot
      · rw [hpc] at hslot
        cases hslot
  | swept | looked | snapped => exact Grows.refl x
  | reaperActed a todo htodo => exact grows_perform x a

/-! ## Slots and handlers agree -/

theorem Owned.congr (h : x.Owned) (hconn : y.hub.connAt = x.hub.connAt) (hheld : y.held = x.held) :
    y.Owned := by
  rw [Owned, hconn, hheld]
  exact h

/-- A handler took a free slot. -/
theorem Owned.take (h : x.Owned) {c : ConnId} {slot : Slot} (hfree : x.hub.connAt slot = none)
    (hnone : x.held c = none) (hconn : y.hub.connAt = Function.update x.hub.connAt slot (some c))
    (hheld : y.held = Function.update x.held c (some slot)) : y.Owned := by
  rw [Owned, hconn, hheld]
  exact Inverse.take h hfree hnone

theorem connAt_none_of_slot {h : Hub} {slot : Slot} {s : Session} (hs : h.heap[slot.ref]? = some s)
    (hfree : s.connAndIP slot.role = none) : h.connAt slot = none := by
  rw [connAt_of_get hs, Session.connOf, hfree]
  rfl

theorem held_set {c : ConnId} {t : Thread} {f : Thread → Thread} (ht : x.threads[c]? = some t)
    (hf : (f t).pc.held = t.pc.held) : (x.modify c f).held = x.held := by
  rw [held_modify ht, hf, ← held_of_get ht, Function.update_eq_self]

/-- A handler went on without taking or leaving a slot. -/
theorem Owned.keep (ho : x.Owned) {c : ConnId} {t : Thread} {h : Hub} {f : Thread → Thread}
    (ht : x.threads[c]? = some t) (hf : (f t).pc.held = t.pc.held)
    (hconn : h.connAt = x.hub.connAt) : ((x.setHub h).modify c f).Owned := by
  have hheld : ((x.setHub h).modify c f).held = x.held := held_set (x := x.setHub h) ht hf
  exact ho.congr hconn hheld

theorem owned_enter {c : ConnId} {t : Thread} {first : First} {draws : Draws} {h : Hub} {pc : Pc}
    {todo : List Action} (ho : x.Owned) (ht : x.threads[c]? = some t) (hfresh : t.pc = .fresh)
    (he : Enter x.hub first t.ip c draws h pc todo) :
    ((x.setHub h).modify c fun t => { t.goto pc todo with first := some first }).Owned := by
  have hnone : t.pc.held = none := by rw [hfresh]; rfl
  cases he with
  | created _ id s m hfull hdraw hid hs hheap =>
      refine ho.take (connAt_new x.hub rfl) ((held_of_get ht).trans hnone) ?_
        (held_modify (x := x.setHub h) ht _)
      exact connAt_append hs hheap
  | joining _ ref id hb => exact ho.keep ht hnone.symm (connAt_of_heap hb.heap)
  | resuming slot token id => exact ho.keep ht hnone.symm rfl
  | refused _ err hb => exact ho.keep ht hnone.symm (connAt_of_heap hb.heap)

/-- Who serves a slot is in it. -/
theorem Owned.serves (ho : x.Owned) {c : ConnId} {t : Thread} {slot : Slot}
    (ht : x.threads[c]? = some t) (hpc : t.pc = .serving slot) : x.hub.connAt slot = some c := by
  refine (ho slot c).mpr ?_
  rw [held_of_get ht, hpc]
  rfl

theorem Owned.live (ho : x.Owned) {c : ConnId} {t : Thread} {slot : Slot} {s : Session}
    (ht : x.threads[c]? = some t) (hpc : t.pc = .serving slot)
    (hs : x.hub.heap[slot.ref]? = some s) : ∃ ip, s.connAndIP slot.role = some (c, ip) := by
  have hconn := ho.serves ht hpc
  rw [connAt_of_get hs, Session.connOf] at hconn
  obtain ⟨⟨c', ip⟩, hc, rfl⟩ := Option.map_eq_some_iff.mp hconn
  exact ⟨ip, hc⟩

theorem held_of_entering {pc : Pc} (h : pc.entering = true) : pc.held = none := by
  cases pc <;> first | rfl | cases h

theorem owned_attach {c : ConnId} {now : Time} {t : Thread} {first : First} {h : Hub} {pc : Pc}
    {todo : List Action} (ho : x.Owned) (ht : x.threads[c]? = some t)
    (ha : Attach x.hub first t.ip c now t.pc h pc todo) :
    ((x.setHub h).modify c (Thread.goto pc todo)).Owned := by
  generalize hpc : t.pc = before at ha
  cases ha with
  | found ref hostConn hconn => exact ho.keep ht (by rw [hpc]; rfl) rfl
  | joined ref hostConn s s' hs hs' =>
      obtain ⟨hfree, -, hslots⟩ := Session.attach_spec hs'
      have hnone : x.hub.connAt ⟨ref, .guest⟩ = none := connAt_none_of_slot hs hfree
      refine ho.take hnone ((held_of_get ht).trans (by rw [hpc]; rfl)) ?_
        (held_modify (x := x.setHub (x.hub.setSession ref s')) ht _)
      exact connAt_set hs hslots rfl
  | resumed slot token s s' hs hs' =>
      obtain ⟨hfree, -, hslots⟩ := Session.reattach_spec hs'
      refine ho.take (connAt_none_of_slot hs hfree)
        ((held_of_get ht).trans (by rw [hpc]; rfl)) ?_
        (held_modify (x := x.setHub (x.hub.setSession slot.ref s')) ht _)
      exact connAt_set hs hslots rfl
  | refused _ err hentering =>
      refine ho.keep ht ?_ rfl
      rw [hpc, held_of_entering hentering]
      rfl

/-- Registering a token moves no connection. -/
theorem peerAt_handleReconnectToken (h : Hub) (slot : Slot) (tokenHex : Option String) :
    (Relay.handleReconnectToken h slot tokenHex).peerAt = h.peerAt := by
  unfold Relay.handleReconnectToken
  split
  next => rfl
  next token _ =>
    unfold Hub.RegisterReconnectToken
    split
    next => rfl
    next s hs => exact peerAt_set_same hs (Session.setReconnectToken_spec s slot.role token).2 rfl

theorem receive_spec {h : Hub} {slot : Slot} {s : Session} (hs : h.heap[slot.ref]? = some s)
    (c : ConnId) (msg : Incoming) (now : Time) :
    (receive h c slot s msg now).1.peerAt = h.peerAt ∧
      (receive h c slot s msg now).2.1.held = some slot := by
  cases msg with
  | endSession => exact ⟨rfl, rfl⟩
  | reconnectToken tokenHex => exact ⟨peerAt_handleReconnectToken h slot tokenHex, rfl⟩
  | other binary data => exact ⟨peerAt_set_same (t := s.touch now) hs rfl rfl, rfl⟩

theorem owned_step {e : Step} (h : x.Owned) (hstep : step x e = some y) : y.Owned := by
  cases step_spec hstep with
  | accepted ip => exact h.congr rfl (held_append _ rfl)
  | begun c first now draws t hub pc todo ht hfresh he => exact owned_enter h ht hfresh he
  | attached c now t first hub pc todo ht hfirst ha => exact owned_attach h ht ha
  | acted c t a todo ht htodo =>
      refine h.congr (connAt_perform x a) ?_
      exact (held_modify_of_pc (f := Thread.setTodo _) c fun _ => rfl).trans (held_perform x a)
  | received c msg now t slot s ht hpc htodo hs =>
      obtain ⟨hpeer, hheld⟩ := receive_spec hs c msg now
      refine h.keep ht ?_ (connAt_of_peerAt hpeer)
      rw [hpc]
      exact hheld
  | dropped c => exact h.congr rfl (held_modify_of_pc c fun _ => rfl)
  | left c now t slot s ht hpc htodo hs =>
      obtain ⟨ip, hlive⟩ := h.live ht hpc hs
      have hconn := h.serves ht hpc
      have hslots : (s.markDisconnected slot.role now).1.connAndIP =
          Function.update s.connAndIP slot.role none := (Session.markDisconnected_spec hlive _).2.1
      have hgive := Inverse.give h hconn
      rw [Owned]
      convert hgive using 1
      · exact connAt_set hs hslots rfl
      · exact held_modify (x := x.setHub _) ht _
  | swept now ids hidle htodo => exact h
  | looked pc htodo hfound => exact h
  | snapped now ids ref s hpc hs => exact h
  | reaperActed a todo htodo => exact h.congr (connAt_perform x a) (held_perform x a)

theorem owned_init (cfg : Config) : (init cfg).Owned := by
  intro slot c
  simp [init, Hub.connAt, Hub.new, held]

/-! ## Where relayed frames come from -/

/-- The slot that the handler of this connection ever took. -/
def slotOf (x : Goroutines) (c : ConnId) : Option Slot := (x.threads[c]?).bind (·.pc.slot)

/-- A relayed frame is from the handler of the other slot of the session. -/
def Routed (x : Goroutines) (pc : Pc) : Action → Prop
  | .tell slot (.relayed _ _) => pc = .serving slot.other
  | .record slot _ => pc = .serving slot
  | .send d (.relayed _ _) => ∃ slot, pc = .serving slot ∧ x.slotOf d = some slot.other
  | _ => True

/-- All that a goroutine or the reaper has still to do goes to somebody it may go
to. -/
structure AllRouted (x : Goroutines) : Prop where
  threads : ∀ (c : ConnId) (t : Thread), x.threads[c]? = some t → ∀ a ∈ t.todo, x.Routed t.pc a
  reaper : ∀ a ∈ x.reaperTodo, x.Routed .fresh a

/-- Who took a slot keeps it as the one it took. -/
def Keeps (x y : Goroutines) : Prop := ∀ d slot, x.slotOf d = some slot → y.slotOf d = some slot

theorem Routed.mono {pc : Pc} {a : Action} (h : x.Routed pc a) (hkeeps : Keeps x y) :
    y.Routed pc a := by
  cases a with
  | tell slot frame => cases frame <;> exact h
  | send d frame =>
      cases frame with
      | control m => trivial
      | relayed binary data =>
          obtain ⟨slot, hpc, hslot⟩ := h
          exact ⟨slot, hpc, hkeeps d _ hslot⟩
  | record slot data => exact h
  | _ => trivial

theorem slotOf_of_get {c : ConnId} {t : Thread} (ht : x.threads[c]? = some t) :
    x.slotOf c = t.pc.slot := by
  rw [slotOf, ht]
  rfl

theorem Grows.keeps (h : Grows x y) : Keeps x y := by
  intro d slot hslot
  obtain ⟨t, ht, hs⟩ := Option.bind_eq_some_iff.mp hslot
  obtain ⟨t', ht', hgrows⟩ := h d t ht
  rw [slotOf, ht']
  exact hgrows.slot slot hs

theorem slotOf_of_held {c : ConnId} {slot : Slot} (h : x.held c = some slot) :
    x.slotOf c = some slot := by
  obtain ⟨t, ht, hs⟩ := Option.bind_eq_some_iff.mp h
  rw [slotOf, ht]
  change t.pc.slot = some slot
  cases hpc : t.pc <;> rw [hpc] at hs <;> first | exact hs | cases hs

/-- What follows the recording of a frame: it is relayed, and the file may be
aborted. -/
theorem mem_recorded {h : Hub} {slot : Slot} {data : Bytes} {b : Action}
    (hb : b ∈ (recorded h slot data).2) : b = .tell slot.other (.relayed true data) ∨
      ∃ role id, b = .tell ⟨slot.ref, role⟩ (.control (.fileAbort id FileAbortReasonSizeLimit)) := by
  unfold recorded at hb
  split at hb
  next => cases hb
  next s hs =>
    dsimp only at hb
    split at hb
    next => cases hb
    next =>
      rcases List.mem_cons.mp hb with hfirst | hrest
      · exact .inl hfirst
      · right
        split at hrest
        next fileID _ =>
          split at hrest
          next =>
            obtain ⟨role, -, rfl⟩ := List.mem_map.mp hrest
            exact ⟨role, fileID.hex, rfl⟩
          next => cases hrest
        next => cases hrest

/-- What an action leads to is routed as the action was. -/
theorem routed_more (ho : x.Owned) {pc : Pc} {a : Action} (h : x.Routed pc a) :
    ∀ b ∈ (x.perform a).2, x.Routed pc b := by
  intro b hb
  cases a with
  | tell slot frame =>
      obtain ⟨d, hd, rfl⟩ : ∃ d, x.hub.connAt slot = some d ∧ Action.send d frame = b := by
        simpa [perform] using hb
      cases frame with
      | control m => trivial
      | relayed binary data =>
          refine ⟨slot.other, h, ?_⟩
          rw [Slot.other_other]
          exact slotOf_of_held ((ho slot d).mp hd)
  | record slot data =>
      rcases mem_recorded hb with rfl | ⟨role, id, rfl⟩
      · rw [Routed, Slot.other_other]
        exact h
      · trivial
  | _ => cases hb

theorem routed_of_silent {pc : Pc} {a : Action} (h : a.relays = false) : x.Routed pc a := by
  cases a with
  | tell slot frame =>
      cases frame with
      | control m => trivial
      | relayed binary data => cases h
  | send d frame =>
      cases frame with
      | control m => trivial
      | relayed binary data => cases h
  | record slot data => cases h
  | _ => trivial

theorem silent_refuse (c : ConnId) (first : First) (err : BeginError) :
    ∀ a ∈ (refuse c first err).2, a.relays = false := by
  simp [refuse, Action.relays]

theorem silent_enter {h h' : Hub} {first : First} {ip : String} {c : ConnId} {draws : Draws}
    {pc : Pc} {todo : List Action} (he : Enter h first ip c draws h' pc todo) :
    ∀ a ∈ todo, a.relays = false := by
  cases he with
  | created => simp [Action.relays]
  | joining | resuming => simp
  | refused => exact silent_refuse c first _

theorem silent_attach {h h' : Hub} {first : First} {ip : String} {c : ConnId} {now : Time}
    {pc pc' : Pc} {todo : List Action} (ha : Attach h first ip c now pc h' pc' todo) :
    ∀ a ∈ todo, a.relays = false := by
  cases ha with
  | found => simp
  | joined | resumed => simp [Action.relays]
  | refused => exact silent_refuse c first _

theorem silent_notifyAndClose (peer : Option (ConnId × String)) (reason : String) :
    ∀ a ∈ notifyAndClose peer reason, a.relays = false := by
  cases peer <;> simp [notifyAndClose, Action.relays]

theorem silent_leave (c : ConnId) (other : Option ConnId) (ip : String) :
    ∀ a ∈ leaveActions c other ip, a.relays = false := by
  cases other <;> simp [leaveActions, Action.relays]

theorem silent_reap (h : Hub) (s : Session) (now : Time) :
    ∀ a ∈ reapActions h s now, a.relays = false := by
  unfold reapActions
  dsimp only
  split
  next => simp
  next reason _ =>
    intro a ha
    rcases List.mem_append.mp ha with ha | ha
    · rcases List.mem_append.mp ha with ha | ha
      · exact silent_notifyAndClose _ _ a ha
      · exact silent_notifyAndClose _ _ a ha
    · rw [List.mem_singleton.mp ha]
      rfl

theorem AllRouted.modify (h : x.AllRouted) (hkeeps : Keeps x y) {c : ConnId} {f : Thread → Thread}
    (hthreads : y.threads = x.threads.modify c f) (hreaper : y.reaperTodo = x.reaperTodo)
    (hf : ∀ t, x.threads[c]? = some t → ∀ a ∈ (f t).todo, y.Routed (f t).pc a) : y.AllRouted := by
  refine ⟨fun d t' ht' a ha => ?_, fun a ha => ?_⟩
  · rw [hthreads] at ht'
    obtain ⟨t, ht, rfl⟩ := Tally.getElem?_modify_eq_some ht'
    split at ha
    next hd =>
      rw [if_pos hd]
      exact hf t (hd ▸ ht) a ha
    next hd =>
      rw [if_neg hd]
      exact (h.threads d t ht a ha).mono hkeeps
  · rw [hreaper] at ha
    exact (h.reaper a ha).mono hkeeps

theorem reaperTodo_perform (x : Goroutines) (a : Action) :
    (x.perform a).1.reaperTodo = x.reaperTodo := by
  cases a <;> rfl

theorem routed_receive {h : Hub} {c : ConnId} {slot : Slot} {s : Session} {msg : Incoming}
    {now : Time} : ∀ a ∈ (receive h c slot s msg now).2.2,
      x.Routed (receive h c slot s msg now).2.1 a := by
  cases msg with
  | endSession =>
      intro a ha
      refine routed_of_silent ?_
      rcases List.mem_append.mp ha with ha | ha
      · exact silent_notifyAndClose _ _ a ha
      · simp only [List.mem_cons, List.not_mem_nil, or_false] at ha
        rcases ha with rfl | rfl <;> rfl
  | reconnectToken tokenHex => simp [receive]
  | other binary data =>
      cases binary with
      | true => simp [receive, Routed]
      | false => simp [receive, Routed]

theorem routed_step {e : Step} (ho : x.Owned) (h : x.AllRouted) (hstep : step x e = some y) :
    y.AllRouted := by
  have hkeeps := (grows_step hstep).keeps
  cases step_spec hstep with
  | accepted ip =>
      refine ⟨fun d t ht a ha => ?_, fun a ha => (h.reaper a ha).mono hkeeps⟩
      rcases List.mem_append.mp (List.mem_of_getElem? ht) with hold | hnew
      · obtain ⟨d', hd'⟩ := List.mem_iff_getElem?.mp hold
        exact (h.threads d' t hd' a ha).mono hkeeps
      · rw [List.mem_singleton.mp hnew] at ha
        cases ha
  | begun c first now draws t hub pc todo ht hfresh he =>
      refine h.modify hkeeps (f := fun t => { t.goto pc todo with first := some first }) rfl rfl
        fun t' _ a ha => routed_of_silent (silent_enter he a ha)
  | attached c now t first hub pc todo ht hfirst ha =>
      exact h.modify hkeeps (f := Thread.goto pc todo) rfl rfl
        fun t' _ a hmem => routed_of_silent (silent_attach ha a hmem)
  | acted c t a todo ht htodo =>
      have hfirst := h.threads c t ht a (by rw [htodo]; simp)
      refine ⟨fun d t' ht' b hb => ?_, fun b hb => ?_⟩
      · obtain ⟨t₁, ht₁, rfl⟩ := Tally.getElem?_modify_eq_some ht'
        obtain ⟨t₀, ht₀, hcore⟩ := get_perform ht₁
        split at hb
        next hd =>
          subst hd
          obtain rfl := Option.some.inj (ht.symm.trans ht₀)
          have hpc : (Thread.setTodo ((x.perform a).2 ++ todo) t₁).pc = t.pc := hcore.pc
          rw [if_pos rfl, hpc]
          -- what the action leads to is addressed by the slot it was performed for
          rcases List.mem_append.mp hb with hmore | hrest
          · exact (routed_more ho hfirst b hmore).mono hkeeps
          · exact (h.threads c t ht b (by rw [htodo]; exact List.mem_cons_of_mem _ hrest)).mono hkeeps
        next hd =>
          rw [if_neg hd, hcore.pc]
          exact (h.threads d t₀ ht₀ b (hcore.todo ▸ hb)).mono hkeeps
      · exact (h.reaper b (reaperTodo_perform x a ▸ hb)).mono hkeeps
  | received c msg now t slot s ht hpc htodo hs =>
      exact h.modify hkeeps (f := Thread.goto _ _) rfl rfl fun t' _ => routed_receive
  | dropped c =>
      exact h.modify hkeeps (f := Thread.shut) rfl rfl
        fun t ht a ha => (h.threads c t ht a ha).mono hkeeps
  | left c now t slot s ht hpc htodo hs =>
      exact h.modify hkeeps (f := Thread.goto _ _) rfl rfl
        fun t' _ a ha => routed_of_silent (silent_leave _ _ _ a ha)
  | swept now ids hidle htodo => exact ⟨h.threads, h.reaper⟩
  | looked pc htodo hfound => exact ⟨h.threads, h.reaper⟩
  | snapped now ids ref s hpc hs =>
      exact ⟨h.threads, fun a ha => routed_of_silent (silent_reap _ _ _ a ha)⟩
  | reaperActed a todo htodo =>
      refine ⟨fun d t' ht' b hb => ?_, fun b hb => ?_⟩
      · obtain ⟨t, ht, hcore⟩ := get_perform ht'
        rw [hcore.pc]
        exact (h.threads d t ht b (hcore.todo ▸ hb)).mono hkeeps
      · rcases List.mem_append.mp hb with hmore | hrest
        · have hfirst := h.reaper a (by rw [htodo]; simp)
          exact (routed_more ho hfirst b hmore).mono hkeeps
        · exact (h.reaper b (by rw [htodo]; exact List.mem_cons_of_mem _ hrest)).mono hkeeps

/-- A handler runs that took this slot and has not left it. -/
def Holds (x : Goroutines) (c : ConnId) (slot : Slot) : Prop :=
  ∃ t, x.threads[c]? = some t ∧ (t.pc = .serving slot ∨ t.pc = .ended slot)

theorem holds_iff {c : ConnId} {slot : Slot} : x.Holds c slot ↔ x.held c = some slot := by
  constructor
  · rintro ⟨t, ht, hpc⟩
    rw [held_of_get ht]
    rcases hpc with hpc | hpc <;> rw [hpc] <;> rfl
  · intro h
    obtain ⟨t, ht, hs⟩ := Option.bind_eq_some_iff.mp h
    refine ⟨t, ht, ?_⟩
    cases hpc : t.pc <;> rw [hpc] at hs <;> first
      | (obtain rfl := Option.some.inj hs; simp)
      | cases hs

/-- **Single owner.** In every reachable state a slot is marked connected exactly
when one handler took it and has not left it, with that handler's connection in
it, and a connection is in one slot at most. So a handler that leaves frees its
own slot and no other; and what is relayed was read by the handler of the other
slot of the same session, which still has it. -/
theorem slots_owned (cfg : Config) (es : List Step)
    (hrun : Transition.run step (init cfg) es = some x) :
    (∀ slot c, x.hub.connAt slot = some c ↔ x.Holds c slot) ∧
    (∀ slot slot' c, x.hub.connAt slot = some c → x.hub.connAt slot' = some c → slot = slot') ∧
    (∀ c now y, step x (.readError c now) = some y → ∃ slot, x.hub.connAt slot = some c ∧
      y.hub.connAt = Function.update x.hub.connAt slot none) ∧
    (∀ (c : ConnId) (t : Thread) slot binary data todo, x.threads[c]? = some t →
      t.todo = .tell slot (.relayed binary data) :: todo → x.hub.connAt slot.other = some c) ∧
    ∀ (c : ConnId) (t : Thread) d binary data todo, x.threads[c]? = some t →
      t.todo = .send d (.relayed binary data) :: todo →
        ∃ slot, x.hub.connAt slot = some c ∧ x.slotOf d = some slot.other := by
  have hinv : x.Owned ∧ x.AllRouted := by
    refine Transition.invariant (I := fun x : Goroutines => x.Owned ∧ x.AllRouted)
      (fun s e t hs ht => ⟨owned_step hs.1 ht, routed_step hs.1 hs.2 ht⟩)
      ⟨owned_init cfg, ⟨fun d t ht => ?_, fun a ha => ?_⟩⟩ hrun
    · simp [init] at ht
    · cases ha
  obtain ⟨howned, hrouted⟩ := hinv
  refine ⟨fun slot c => (howned slot c).trans holds_iff.symm, fun slot slot' c => howned.left_unique,
    fun c now y hstep => ?_, fun c t slot binary data todo ht htodo => ?_,
    fun c t d binary data todo ht htodo => ?_⟩
  · cases step_spec hstep with
    | left _ _ t slot s ht hpc htodo hs =>
        obtain ⟨ip, hlive⟩ := howned.live ht hpc hs
        refine ⟨slot, howned.serves ht hpc, ?_⟩
        have hslots : (s.markDisconnected slot.role now).1.connAndIP =
            Function.update s.connAndIP slot.role none := (Session.markDisconnected_spec hlive _).2.1
        exact connAt_set hs hslots rfl
  · have hmem : Action.tell slot (.relayed binary data) ∈ t.todo := by rw [htodo]; simp
    have hpc : t.pc = .serving slot.other := hrouted.threads c t ht _ hmem
    exact howned.serves ht hpc
  · have hmem : Action.send d (.relayed binary data) ∈ t.todo := by rw [htodo]; simp
    obtain ⟨slot, hpc, hslot⟩ : ∃ slot, t.pc = .serving slot ∧ x.slotOf d = some slot.other :=
      hrouted.threads c t ht _ hmem
    exact ⟨slot, howned.serves ht hpc, hslot⟩

/-! ## A small relay -/

/-- A guest joins, and the host's handler reads a frame for it. -/
def relayedOnce : List Step :=
  [.accept "a", .begin 0 .createSession 0 (Relay.drawID "s"), .act 0, .accept "b",
    .begin 1 (.join (some "s")) 1 (Relay.drawID "x"), .attach 1 1, .attach 1 1, .act 1, .act 1,
    .act 1, .frame 0 (.other false [1]) 2]

/-- It looks the guest up, and has the frame to send when the guest drops. -/
theorem slots_owned_relayedOnce : ∃ x y z,
    Transition.run step (init Relay.smallConfig) relayedOnce = some x ∧ step x (.act 0) = some y ∧
      step y (.readError 1 3) = some z ∧
      (y.Holds 0 ⟨0, .host⟩ ∧ y.Holds 1 ⟨0, .guest⟩) ∧
      (∀ slot, y.hub.connAt slot = some 1 → slot = ⟨0, .guest⟩) ∧
      z.hub.connAt = Function.update y.hub.connAt ⟨0, .guest⟩ none ∧
      x.hub.connAt (Slot.other ⟨0, .guest⟩) = some 0 ∧
      ∃ slot, y.hub.connAt slot = some 0 ∧ y.slotOf 1 = some slot.other := by
  have hrun : (Transition.run step (init Relay.smallConfig) relayedOnce).any (fun x =>
      (step x (.act 0)).any fun y => (step y (.readError 1 3)).isSome &&
        decide ((x.threads[0]?).map Thread.todo = some [.tell ⟨0, .guest⟩ (.relayed false [1])]) &&
        decide ((y.threads[0]?).map Thread.todo = some [.send 1 (.relayed false [1])]) &&
        decide (y.hub.connAt ⟨0, .host⟩ = some 0) &&
        decide (y.hub.connAt ⟨0, .guest⟩ = some 1)) = true := by decide +kernel
  obtain ⟨x, hx, hany⟩ := (Option.any_eq_true _ _).mp hrun
  obtain ⟨y, hy, hfacts⟩ := (Option.any_eq_true _ _).mp hany
  simp only [Bool.and_eq_true, decide_eq_true_eq] at hfacts
  obtain ⟨⟨⟨⟨hleaves, htell⟩, hsend⟩, hhost⟩, hguest⟩ := hfacts
  obtain ⟨z, hz⟩ := Option.isSome_iff_exists.mp hleaves
  obtain ⟨t, ht, htodo⟩ := Option.map_eq_some_iff.mp htell
  obtain ⟨u, hu, hutodo⟩ := Option.map_eq_some_iff.mp hsend
  have hrun' : Transition.run step (init Relay.smallConfig) (relayedOnce ++ [.act 0]) = some y :=
    Transition.run_concat hx hy
  obtain ⟨hholds, hone, hfrees, -, hrelays⟩ := slots_owned Relay.smallConfig _ hrun'
  obtain ⟨-, -, -, hlooks, -⟩ := slots_owned Relay.smallConfig relayedOnce hx
  obtain ⟨slot, hslot, hupdate⟩ := hfrees 1 3 z hz
  obtain rfl := hone slot ⟨0, .guest⟩ 1 hslot hguest
  exact ⟨x, y, z, hx, hy, hz, ⟨(hholds _ 0).mp hhost, (hholds _ 1).mp hguest⟩,
    fun slot h => hone slot _ 1 h hguest, hupdate, hlooks 0 t _ false [1] [] ht htodo,
    hrelays 0 u 1 false [1] [] hu hutodo⟩

/-- A client creates a session and ends it. -/
def endedAlone : List Step :=
  [.accept "a", .begin 0 .createSession 0 (Relay.drawID "s"), .act 0, .frame 0 .endSession 1, .act 0,
    .act 0]

/-- Its slot stays marked, with no handler that still serves it. -/
theorem slot_marked_after_end : ∃ x,
    Transition.run step (init Relay.smallConfig) endedAlone = some x ∧
      x.hub.connAt ⟨0, .host⟩ = some 0 ∧ ¬ ∃ (c : ConnId) (t : Thread), x.threads[c]? = some t ∧
        t.pc = .serving ⟨0, .host⟩ := by
  have hrun : (Transition.run step (init Relay.smallConfig) endedAlone).any (fun x =>
      decide (x.hub.connAt ⟨0, .host⟩ = some 0) &&
      decide (∀ t ∈ x.threads, t.pc ≠ .serving ⟨0, .host⟩)) = true := by decide +kernel
  obtain ⟨x, hr, hx⟩ := (Option.any_eq_true _ _).mp hrun
  rw [Bool.and_eq_true, decide_eq_true_eq, decide_eq_true_eq] at hx
  refine ⟨x, hr, hx.1, ?_⟩
  rintro ⟨c, t, ht, hpc⟩
  exact hx.2 t (List.mem_of_getElem? ht) hpc

end Goroutines

end Quicksend.Server
