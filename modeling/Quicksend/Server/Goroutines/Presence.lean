import Quicksend.Server.Goroutines.Addressees

/-!
# What each peer is told of the other

A change of a slot and the notice of it are two steps, with other changes and
other notices in between. The last notice is right as long as every notice is
when it is written, and a joining guest writes to the host that is there.
-/

namespace Quicksend

/-- Whether a notice says that the other peer is there. -/
def Frame.presence : Frame → Option Bool
  | .control (.paired _) | .control .reconnected | .control .peerReconnected => some true
  | .control .peerDisconnected => some false
  | _ => none

namespace Server

/-- The other peer by the last notice of it. -/
def Thread.view (t : Thread) : Bool := ((t.sent.filterMap Frame.presence).getLast?).getD false

namespace Goroutines

variable {x y : Goroutines}

/-- A notice is right when it is written, and a guest that gets its slot found
the host that is there. -/
def Timely (x : Goroutines) : Step → Prop
  | .act c => ∀ t ∈ x.threads[c]?, match t.todo with
      | .send d frame :: _ => ∀ slot ∈ x.held d, ∀ there ∈ frame.presence,
          (x.hub.connAt slot.other).isSome = there
      | _ => True
  | .attach c _ => ∀ t ∈ x.threads[c]?, match t.pc with
      | .attaching ref hostConn => ∀ d ∈ x.hub.connAt ⟨ref, .host⟩, d = hostConn
      | _ => True
  | _ => True

instance (x : Goroutines) : (e : Step) → Decidable (x.Timely e)
  | .act _ => @Option.decidableForallMem _ _ (fun t => by split <;> infer_instance) _
  | .attach _ _ => @Option.decidableForallMem _ _ (fun t => by split <;> infer_instance) _
  | .accept .. | .begin .. | .frame .. | .drop .. | .readError .. | .reap .. | .look | .snap
  | .reapAct => .isTrue trivial

/-- No handler that took a slot of the session has anything left to do. -/
def QuietAt (x : Goroutines) (ref : Nat) : Prop :=
  ∀ t ∈ x.threads, ∀ slot ∈ t.pc.slot, slot.ref = ref → t.todo = []

instance (x : Goroutines) (ref : Nat) : Decidable (x.QuietAt ref) :=
  inferInstanceAs (Decidable (∀ t ∈ x.threads, ∀ slot ∈ t.pc.slot, _))

/-! ## Notices on the way -/

/-- The action leads to a notice for this connection, which is in this slot. -/
def Informs (slot : Slot) (d : ConnId) : Action → Prop
  | .send d' frame => d' = d ∧ frame.presence.isSome = true
  | .tell slot' frame => slot' = slot ∧ frame.presence.isSome = true
  | _ => False

/-- A handler of the session has a notice for it. -/
def Pending (x : Goroutines) (slot : Slot) (d : ConnId) : Prop :=
  ∃ (e : ConnId) (t : Thread) (own : Slot), x.threads[e]? = some t ∧ t.pc.slot = some own ∧
    own.ref = slot.ref ∧ ∃ a ∈ t.todo, Informs slot d a

/-- Its last notice is right, or one is on the way. -/
def Informed (x : Goroutines) (slot : Slot) (d : ConnId) : Prop :=
  (∃ t, x.threads[d]? = some t ∧ t.view = (x.hub.connAt slot.other).isSome) ∨ x.Pending slot d

/-- What every step keeps of presence: each connected peer has heard the truth
about the other side, or somebody is about to tell it. -/
structure Agreed (x : Goroutines) : Prop where
  owned : x.Owned
  addressed : Addressed (fun t => ∃ slot, t.pc.slot = some slot) x
  fresh : ∀ (c : ConnId) (t : Thread), x.threads[c]? = some t → t.pc = .fresh →
    t.sent = [] ∧ t.todo = []
  informed : ∀ slot d, x.hub.connAt slot = some d → x.Informed slot d

theorem view_write (t : Thread) (frame : Frame) :
    (t.write frame).view = (frame.presence).getD t.view := by
  rw [Thread.view, Thread.write, List.filterMap_append, List.getLast?_append]
  cases hp : frame.presence <;> simp [hp, Thread.view]

theorem view_of_sent {t t' : Thread} (h : t'.sent = t.sent) : t'.view = t.view := by
  rw [Thread.view, Thread.view, h]

/-- Whoever is looked up has a slot. -/
theorem finds_slot (ho : x.Owned) (e : Step) :
    Finds (fun t => ∃ slot, t.pc.slot = some slot) x e := by
  intro slot _ c hc
  obtain ⟨t, ht, -⟩ := Option.bind_eq_some_iff.mp ((ho slot c).mp hc)
  refine ⟨t, ht, slot, ?_⟩
  rw [← slotOf_of_get ht]
  exact slotOf_of_held ((ho slot c).mp hc)

/-! ## What the steps do to it -/

theorem pending_of_todo {slot own : Slot} {d e : ConnId} {t : Thread} {a : Action}
    (ht : x.threads[e]? = some t) (hpc : t.pc.slot = some own) (hown : own.ref = slot.ref)
    (ha : a ∈ t.todo) (hinforms : Informs slot d a) : x.Pending slot d :=
  ⟨e, t, own, ht, hpc, hown, a, ha, hinforms⟩

/-- A handler goes on, and loses no notice. -/
theorem Pending.change {slot : Slot} {d : ConnId} (h : x.Pending slot d) {c : ConnId}
    {f : Thread → Thread} (hthreads : y.threads = x.threads.modify c f)
    (hf : ∀ t, x.threads[c]? = some t → t.todo = [] ∨ t.pc.slot = none ∨
      (f t).pc = t.pc ∧ (f t).todo = t.todo) : y.Pending slot d := by
  obtain ⟨e, t, own, ht, hpc, hown, a, ha, hinforms⟩ := h
  by_cases hce : c = e
  · subst hce
    rcases hf t ht with hnil | hnone | ⟨hsame, htodo⟩
    · rw [hnil] at ha
      cases ha
    · rw [hnone] at hpc
      cases hpc
    · refine pending_of_todo (e := c) (t := f t) ?_ (hsame ▸ hpc) hown (htodo ▸ ha) hinforms
      rw [hthreads]
      exact Tally.getElem?_modify_self ht f
  · refine pending_of_todo (e := e) (t := t) ?_ hpc hown ha hinforms
    rw [hthreads]
    exact (Tally.getElem?_modify_ne hce f).trans ht

/-- A handler goes on; it writes nothing and loses no notice, and the other peer
is as it was. -/
theorem Informed.change {slot : Slot} {d : ConnId} (h : x.Informed slot d)
    (hother : y.hub.connAt slot.other = x.hub.connAt slot.other) {c : ConnId} {f : Thread → Thread}
    (hthreads : y.threads = x.threads.modify c f)
    (hf : ∀ t, x.threads[c]? = some t → (f t).sent = t.sent ∧ (t.todo = [] ∨ t.pc.slot = none ∨
      (f t).pc = t.pc ∧ (f t).todo = t.todo)) : y.Informed slot d := by
  rcases h with ⟨t, ht, hview⟩ | hpending
  · left
    rw [hthreads, hother]
    by_cases hcd : c = d
    · subst hcd
      exact ⟨f t, Tally.getElem?_modify_self ht f, (view_of_sent (hf t ht).1).trans hview⟩
    · exact ⟨t, (Tally.getElem?_modify_ne hcd f).trans ht, hview⟩
  · exact .inr (hpending.change hthreads fun t ht => (hf t ht).2)

theorem fresh_change {c : ConnId} {f : Thread → Thread}
    (h : ∀ (d : ConnId) (t : Thread), x.threads[d]? = some t → t.pc = .fresh →
      t.sent = [] ∧ t.todo = [])
    (hthreads : y.threads = x.threads.modify c f)
    (hf : ∀ t, x.threads[c]? = some t → (f t).pc = .fresh → (f t).sent = [] ∧ (f t).todo = [])
    (d : ConnId) (t : Thread) (ht : y.threads[d]? = some t) (hpc : t.pc = .fresh) :
    t.sent = [] ∧ t.todo = [] := by
  rw [hthreads] at ht
  obtain ⟨t₀, ht₀, rfl⟩ := Tally.getElem?_modify_eq_some ht
  split at hpc
  next hcd =>
    subst hcd
    rw [if_pos rfl]
    exact hf t₀ ht₀ hpc
  next hcd =>
    rw [if_neg hcd]
    exact h d t₀ ht₀ hpc

theorem informed_enter {c : ConnId} {t : Thread} {first : First} {draws : Draws} {hub : Hub} {pc : Pc}
    {todo : List Action} (h : x.Agreed) (ht : x.threads[c]? = some t) (hfresh : t.pc = .fresh)
    (he : Enter x.hub first t.ip c draws hub pc todo) (slot : Slot) (d : ConnId)
    (hd : hub.connAt slot = some d) :
    ((x.setHub hub).modify c fun t => { t.goto pc todo with first := some first }).Informed slot d := by
  have hkeeps : ∀ t', x.threads[c]? = some t' →
      ({ t'.goto pc todo with first := some first } : Thread).sent = t'.sent ∧ (t'.todo = [] ∨
        t'.pc.slot = none ∨ ({ t'.goto pc todo with first := some first } : Thread).pc = t'.pc ∧
          ({ t'.goto pc todo with first := some first } : Thread).todo = t'.todo) := by
    intro t' ht'
    obtain rfl := Option.some.inj (ht.symm.trans ht')
    exact ⟨rfl, .inr (.inl (by rw [hfresh]; rfl))⟩
  have hsame : hub.connAt = x.hub.connAt →
      ((x.setHub hub).modify c fun t => { t.goto pc todo with first := some first }).Informed slot d := by
    intro hconn
    refine (h.informed slot d (hconn ▸ hd)).change (congrFun hconn _) (f := fun t =>
      { t.goto pc todo with first := some first }) rfl hkeeps
  cases he with
  | created _ id s m hfull hdraw hid hs hheap =>
      have hconn := connAt_append hs hheap
      rw [hconn] at hd
      by_cases hslot : slot = ⟨x.hub.heap.length, .host⟩
      · subst hslot
        rw [Function.update_self] at hd
        obtain rfl := Option.some.inj hd
        have hview : t.view = false := by
          rw [Thread.view, (h.fresh c t ht hfresh).1]
          rfl
        refine .inl ⟨_, Tally.getElem?_modify_self ht _, (view_of_sent (t := t) rfl).trans ?_⟩
        change t.view = (hub.connAt _).isSome
        rw [hconn, Function.update_of_ne (other_ne _), connAt_new x.hub rfl, hview]
        rfl
      · rw [Function.update_of_ne hslot] at hd
        refine (h.informed slot d hd).change ?_ (f := fun t =>
          { t.goto _ _ with first := some first }) rfl hkeeps
        change hub.connAt slot.other = x.hub.connAt slot.other
        rw [hconn]
        refine Function.update_of_ne (fun heq => ?_) _ _
        have href : slot.ref = x.hub.heap.length := congrArg Slot.ref heq
        rw [connAt_new x.hub href] at hd
        cases hd
  | joining _ ref id hb => exact hsame (connAt_of_heap hb.heap)
  | resuming => exact hsame rfl
  | refused _ err hb => exact hsame (connAt_of_heap hb.heap)

/-- A slot is taken by a handler that has a notice for both peers, when the
other one is there. -/
theorem Agreed.taken (h : x.Agreed) {c : ConnId} {t : Thread} {hub : Hub} {slot : Slot}
    {todo : List Action} (ht : x.threads[c]? = some t) (hnone : t.pc.slot = none)
    (hconn : hub.connAt = Function.update x.hub.connAt slot (some c))
    (hself : ∃ a ∈ todo, Informs slot c a)
    (hother : ∀ d, x.hub.connAt slot.other = some d → ∃ a ∈ todo, Informs slot.other d a)
    (slot' : Slot) (d : ConnId) (hd : hub.connAt slot' = some d) :
    ((x.setHub hub).modify c (Thread.goto (.serving slot) todo)).Informed slot' d := by
  have hget : ((x.setHub hub).modify c (Thread.goto (.serving slot) todo)).threads[c]? =
      some (t.goto (.serving slot) todo) := Tally.getElem?_modify_self ht _
  rw [hconn] at hd
  by_cases hslot : slot' = slot
  · subst hslot
    rw [Function.update_self] at hd
    obtain rfl := Option.some.inj hd
    obtain ⟨a, ha, hinforms⟩ := hself
    exact .inr (pending_of_todo hget rfl rfl ha hinforms)
  · rw [Function.update_of_ne hslot] at hd
    by_cases hslot' : slot' = slot.other
    · subst hslot'
      obtain ⟨a, ha, hinforms⟩ := hother d hd
      exact .inr (pending_of_todo hget rfl rfl ha hinforms)
    · refine (h.informed slot' d hd).change ?_ (f := Thread.goto (.serving slot) todo) rfl
        fun t' ht' => ⟨rfl, .inr (.inl ?_)⟩
      · change hub.connAt slot'.other = x.hub.connAt slot'.other
        rw [hconn]
        refine Function.update_of_ne (fun heq => hslot' ?_) _ _
        rw [← heq, Slot.other_other]
      · obtain rfl := Option.some.inj (ht.symm.trans ht')
        exact hnone

theorem informed_attach {c : ConnId} {now : Time} {t : Thread} {first : First} {hub : Hub} {pc : Pc}
    {todo : List Action} (h : x.Agreed) (htimely : x.Timely (.attach c now))
    (ht : x.threads[c]? = some t) (ha : Attach x.hub first t.ip c now t.pc hub pc todo)
    (slot : Slot) (d : ConnId) (hd : hub.connAt slot = some d) :
    ((x.setHub hub).modify c (Thread.goto pc todo)).Informed slot d := by
  have hnone : t.pc.slot = none := slot_of_entering (attach_entering ha)
  have hsame : hub.connAt = x.hub.connAt →
      ((x.setHub hub).modify c (Thread.goto pc todo)).Informed slot d := by
    intro hconn
    refine (h.informed slot d (hconn ▸ hd)).change (congrFun hconn _) (f := Thread.goto pc todo) rfl
      fun t' ht' => ⟨rfl, .inr (.inl ?_)⟩
    obtain rfl := Option.some.inj (ht.symm.trans ht')
    exact hnone
  have hhost := htimely t ht
  generalize t.pc = before at ha hhost
  cases ha with
  | found => exact hsame rfl
  | joined ref hostConn s s' hs hs' =>
      obtain ⟨-, -, hslots⟩ := Session.attach_spec hs'
      refine h.taken ht hnone (connAt_set hs hslots rfl) ?_ (fun d' hd' => ?_) slot d hd
      · exact ⟨.send c (.control (.paired s'.ID)), by simp, rfl, rfl⟩
      · obtain rfl : d' = hostConn := hhost d' hd'
        exact ⟨.send d' (.control (.paired s'.ID)), by simp, rfl, rfl⟩
  | resumed slot' token s s' hs hs' =>
      obtain ⟨-, -, hslots⟩ := Session.reattach_spec hs'
      refine h.taken ht hnone (connAt_set hs hslots rfl) ?_ (fun d' hd' => ?_) slot d hd
      · exact ⟨.send c (.control .reconnected), by simp, rfl, rfl⟩
      · exact ⟨.tell slot'.other (.control .peerReconnected), by simp, rfl, rfl⟩
  | refused => exact hsame rfl

/-- A view changes by a notice that is written, and becomes what it says. -/
theorem view_written {d : ConnId} {t t' : Thread} {frame : Frame} {there : Bool}
    (hpresence : frame.presence = some there)
    (hsent : t'.sent = t.sent ++ written d (.send d frame)) : t'.view = there := by
  rw [written, if_pos rfl] at hsent
  have hview := (view_of_sent (t := t.write frame) hsent).trans (view_write t frame)
  rw [hpresence] at hview
  exact hview

theorem view_unwritten {d : ConnId} {t t' : Thread} {a : Action}
    (ha : ∀ frame, a = .send d frame → frame.presence = none)
    (hsent : t'.sent = t.sent ++ written d a) : t'.view = t.view := by
  cases a with
  | send d' frame =>
      by_cases hd : d' = d
      · subst hd
        rw [written, if_pos rfl] at hsent
        have hview := (view_of_sent (t := t.write frame) hsent).trans (view_write t frame)
        rw [ha frame rfl] at hview
        exact hview
      · rw [written, if_neg hd, List.append_nil] at hsent
        exact view_of_sent hsent
  | _ => exact view_of_sent (hsent.trans (List.append_nil _))

theorem pending_act {c : ConnId} {t : Thread} {a : Action} {todo : List Action}
    (ht : x.threads[c]? = some t) (htodo : t.todo = a :: todo) {slot : Slot} {d : ConnId}
    (hd : x.hub.connAt slot = some d) (hpending : x.Pending slot d) :
    ((x.perform a).1.modify c (Thread.setTodo ((x.perform a).2 ++ todo))).Pending slot d ∨
      ∃ frame, a = .send d frame ∧ frame.presence.isSome = true := by
  obtain ⟨e, te, own, hte, hpc, hown, b, hb, hinforms⟩ := hpending
  obtain ⟨t', ht', hcore⟩ := perform_get (a := a) hte
  by_cases hce : c = e
  · subst hce
    obtain rfl := Option.some.inj (ht.symm.trans hte)
    have hself : ∀ b' ∈ (x.perform a).2 ++ todo, Informs slot d b' →
        ((x.perform a).1.modify c (Thread.setTodo ((x.perform a).2 ++ todo))).Pending slot d := by
      intro b' hb' hinforms'
      refine pending_of_todo (t := t'.setTodo ((x.perform a).2 ++ todo))
        (Tally.getElem?_modify_self ht' _) ?_ hown hb' hinforms'
      exact (congrArg Pc.slot hcore.pc).trans hpc
    rw [htodo] at hb
    rcases List.mem_cons.mp hb with rfl | hlater
    · cases b with
      | send d' frame =>
          obtain ⟨rfl, hpresence⟩ := hinforms
          exact .inr ⟨frame, rfl, hpresence⟩
      | tell slot' frame =>
          obtain ⟨rfl, hpresence⟩ := hinforms
          refine .inl (hself (.send d frame) ?_ ⟨rfl, hpresence⟩)
          simp [perform, hd]
      | _ => exact hinforms.elim
    · exact .inl (hself b (List.mem_append_right _ hlater) hinforms)
  · refine .inl (pending_of_todo (e := e) (t := t') ?_ ?_ hown (hcore.todo ▸ hb) hinforms)
    · exact (Tally.getElem?_modify_ne hce _).trans ht'
    · rw [hcore.pc]
      exact hpc

theorem informed_act {c : ConnId} {t : Thread} {a : Action} {todo : List Action} (h : x.Agreed)
    (htimely : x.Timely (.act c)) (ht : x.threads[c]? = some t) (htodo : t.todo = a :: todo)
    (slot : Slot) (d : ConnId) (hd : x.hub.connAt slot = some d) :
    ((x.perform a).1.modify c (Thread.setTodo ((x.perform a).2 ++ todo))).Informed slot d := by
  obtain ⟨td, htd, -⟩ := Option.bind_eq_some_iff.mp ((h.owned slot d).mp hd)
  obtain ⟨t₁, ht₁, -⟩ := perform_get (a := a) htd
  obtain ⟨t₀, ht₀, -, hsent⟩ := perform_sent ht₁
  obtain rfl := Option.some.inj (htd.symm.trans ht₀)
  obtain ⟨t', ht', hview⟩ : ∃ t', ((x.perform a).1.modify c
      (Thread.setTodo ((x.perform a).2 ++ todo))).threads[d]? = some t' ∧ t'.view = t₁.view := by
    by_cases hcd : c = d
    · subst hcd
      exact ⟨_, Tally.getElem?_modify_self ht₁ _, view_of_sent rfl⟩
    · exact ⟨t₁, (Tally.getElem?_modify_ne hcd _).trans ht₁, rfl⟩
  have hconn : ((x.perform a).1.modify c
      (Thread.setTodo ((x.perform a).2 ++ todo))).hub.connAt = x.hub.connAt := connAt_perform x a
  by_cases hwrites : ∃ frame, a = .send d frame ∧ frame.presence.isSome = true
  · obtain ⟨frame, rfl, hpresence⟩ := hwrites
    obtain ⟨there, hpresence⟩ := Option.isSome_iff_exists.mp hpresence
    have hguard := htimely t ht
    rw [htodo] at hguard
    refine .inl ⟨t', ht', ?_⟩
    rw [hconn, hview, view_written hpresence hsent]
    exact (hguard slot ((h.owned slot d).mp hd) there hpresence).symm
  · have hsame : t₁.view = td.view := by
      refine view_unwritten (fun frame heq => ?_) hsent
      by_contra hne
      exact hwrites ⟨frame, heq, Option.isSome_iff_ne_none.mpr hne⟩
    rcases h.informed slot d hd with ⟨t₂, ht₂, hold⟩ | hpending
    · obtain rfl := Option.some.inj (htd.symm.trans ht₂)
      exact .inl ⟨t', ht', by rw [hconn, hview, hsame, hold]⟩
    · exact .inr ((pending_act ht htodo hd hpending).resolve_right hwrites)

theorem fresh_performed {a : Action} (h : x.Agreed) {d : ConnId} {t' : Thread}
    (ht' : (x.perform a).1.threads[d]? = some t') (hpc : t'.pc = .fresh)
    (hother : ∀ frame, a = .send d frame → ∃ t slot, x.threads[d]? = some t ∧
      t.pc.slot = some slot) : t'.sent = [] ∧ t'.todo = [] := by
  obtain ⟨t, ht, hcore, hsent⟩ := perform_sent ht'
  have hfresh : t.pc = .fresh := hcore.pc.symm.trans hpc
  obtain ⟨hs, hnil⟩ := h.fresh d t ht hfresh
  refine ⟨?_, hcore.todo.trans hnil⟩
  rw [hsent, hs]
  cases a with
  | send d' frame =>
      by_cases hd : d' = d
      · obtain ⟨t₁, slot, ht₁, hslot⟩ := hother frame (by rw [hd])
        obtain rfl := Option.some.inj (ht.symm.trans ht₁)
        rw [hfresh] at hslot
        cases hslot
      · exact if_neg hd
  | _ => rfl

/-- The other peer is told of one that leaves, if it is there then. -/
theorem informed_leave {c : ConnId} {now : Time} {t : Thread} {own : Slot} {s : Session}
    (h : x.Agreed) (ht : x.threads[c]? = some t) (hpc : t.pc = .serving own) (htodo : t.todo = [])
    (hs : x.hub.heap[own.ref]? = some s) (slot : Slot) (d : ConnId)
    (hd : (x.hub.setSession own.ref (s.markDisconnected own.role now).1).connAt slot = some d) :
    ((x.setHub (x.hub.setSession own.ref (s.markDisconnected own.role now).1)).modify c
      (Thread.goto (.left own) (leaveActions c (s.markDisconnected own.role now).2.1
        (s.markDisconnected own.role now).2.2))).Informed slot d := by
  obtain ⟨ip, hlive⟩ := h.owned.live ht hpc hs
  have hslots := (Session.markDisconnected_spec hlive now).2.1
  have hconn : (x.hub.setSession own.ref (s.markDisconnected own.role now).1).connAt =
      Function.update x.hub.connAt own none := connAt_set hs hslots rfl
  rw [hconn] at hd
  by_cases hslot : slot = own
  · rw [hslot, Function.update_self] at hd
    cases hd
  · rw [Function.update_of_ne hslot] at hd
    by_cases hother : slot = own.other
    · subst hother
      refine .inr (pending_of_todo (Tally.getElem?_modify_self ht _) rfl rfl
        (a := .send d (.control .peerDisconnected)) ?_ ⟨rfl, rfl⟩)
      have hfound : (s.markDisconnected own.role now).2.1 = some d := by
        rw [Session.markDisconnected_other]
        have hget : x.hub.connAt own.other = s.connOf own.role.other := connAt_of_get hs
        exact hget.symm.trans hd
      rw [hfound]
      simp [Thread.goto, leaveActions]
    · refine (h.informed slot d hd).change ?_ (f := Thread.goto _ _) rfl
        fun t' ht' => ⟨rfl, .inl ?_⟩
      · refine (congrFun hconn _).trans (Function.update_of_ne (fun heq => hother ?_) _ _)
        rw [← heq, Slot.other_other]
      · obtain rfl := Option.some.inj (ht.symm.trans ht')
        exact htodo

theorem agreed_step {e : Step} (h : x.Agreed) (hkeeps : e.keepsSessions) (htimely : x.Timely e)
    (hstep : step x e = some y) : y.Agreed := by
  refine ⟨owned_step h.owned hstep, addressed_step ?_ h.addressed (finds_slot h.owned e) hstep,
    ?_, ?_⟩
  · rintro t t' hg ⟨slot, hslot⟩
    exact ⟨slot, hg.slot slot hslot⟩
  · intro d t' ht' hpc'
    cases step_spec hstep with
    | accepted ip =>
        rcases Tally.getElem?_concat_eq_some ht' with ht | ⟨-, rfl⟩
        · exact h.fresh d t' ht hpc'
        · exact ⟨rfl, rfl⟩
    | begun c first now draws t hub pc todo ht hfresh he =>
        refine fresh_change (f := fun t => { t.goto pc todo with first := some first }) h.fresh rfl
          (fun t₀ ht₀ hpc₀ => ?_) d t' ht' hpc'
        cases he <;> cases hpc₀
    | attached c now t first hub pc todo ht hfirst ha =>
        refine fresh_change (f := Thread.goto pc todo) h.fresh rfl (fun t₀ ht₀ hpc₀ => ?_) d t' ht'
          hpc'
        generalize t.pc = before at ha
        cases ha <;> cases hpc₀
    | acted c t a todo ht htodo =>
        obtain ⟨t₁, ht₁, rfl⟩ := Tally.getElem?_modify_eq_some ht'
        by_cases hcd : c = d
        · subst hcd
          rw [if_pos rfl] at hpc'
          obtain ⟨t₀, ht₀, hcore, -⟩ := perform_sent ht₁
          obtain rfl := Option.some.inj (ht.symm.trans ht₀)
          -- a handler with no slot yet has nothing to do
          rw [(h.fresh c t ht (hcore.pc.symm.trans hpc')).2] at htodo
          cases htodo
        · rw [if_neg hcd] at hpc' ⊢
          refine fresh_performed h ht₁ hpc' fun frame heq => ?_
          -- nobody writes to a connection that holds no slot
          have hmem : .send d frame ∈ t.todo := by rw [htodo, heq]; simp
          obtain ⟨t₂, ht₂, slot, hslot⟩ :=
            (h.addressed.sends c t d frame ht hmem).resolve_left (Ne.symm hcd)
          exact ⟨t₂, slot, ht₂, hslot⟩
    | received c msg now t slot s ht hpc htodo hs =>
        refine fresh_change (f := Thread.goto _ _) h.fresh rfl (fun t₀ ht₀ hpc₀ => ?_) d t' ht' hpc'
        cases msg <;> cases hpc₀
    | dropped c =>
        exact fresh_change (f := Thread.shut) h.fresh rfl
          (fun t₀ ht₀ hpc₀ => h.fresh c t₀ ht₀ hpc₀) d t' ht' hpc'
    | left c now t slot s ht hpc htodo hs =>
        refine fresh_change (f := Thread.goto _ _) h.fresh rfl (fun t₀ ht₀ hpc₀ => ?_) d t' ht' hpc'
        cases hpc₀
    | swept | looked | snapped | reaperActed => exact hkeeps.elim
  · intro slot d hd
    cases step_spec hstep with
    | accepted ip =>
        rcases h.informed slot d hd with ⟨t, ht, hview⟩ | ⟨e, t, own, ht, hrest⟩
        · exact .inl ⟨t, Tally.getElem?_concat_of_some ht _, hview⟩
        · exact .inr ⟨e, t, own, Tally.getElem?_concat_of_some ht _, hrest⟩
    | begun c first now draws t hub pc todo ht hfresh he => exact informed_enter h ht hfresh he slot d hd
    | attached c now t first hub pc todo ht hfirst ha =>
        exact informed_attach h htimely ht ha slot d hd
    | acted c t a todo ht htodo =>
        exact informed_act h htimely ht htodo slot d ((congrFun (connAt_perform x a) slot).symm.trans hd)
    | received c msg now t slot' s ht hpc htodo hs =>
        have hconn := connAt_of_peerAt (receive_spec hs c msg now).1
        refine (h.informed slot d ?_).change (congrFun hconn _) (f := Thread.goto _ _) rfl
          fun t' ht' => ⟨rfl, .inl ?_⟩
        · rw [← hconn]
          exact hd
        · obtain rfl := Option.some.inj (ht.symm.trans ht')
          exact htodo
    | dropped c =>
        exact (h.informed slot d hd).change rfl (f := Thread.shut) rfl
          fun t ht => ⟨rfl, .inr (.inr ⟨rfl, rfl⟩)⟩
    | left c now t slot' s ht hpc htodo hs => exact informed_leave h ht hpc htodo hs slot d hd
    | swept | looked | snapped | reaperActed => exact hkeeps.elim

theorem agreed_init (cfg : Config) : (init cfg).Agreed where
  owned := owned_init cfg
  addressed := addressed_init cfg
  fresh c t h := by simp [init] at h
  informed slot d h := by simp [init, Hub.new, Hub.connAt] at h

/-- **Presence.** In a run of joins, drops and reconnects in which every notice is
right when it is written and a joining guest finds the host that is there, each
connected peer of a session with nothing left to do has the other one as it is. -/
theorem presence_agrees (cfg : Config) (es : List Step) (hkeeps : ∀ e ∈ es, e.keepsSessions)
    (hg : Transition.Guarded step Timely (init cfg) es)
    (hrun : Transition.run step (init cfg) es = some x) (slot : Slot) (c : ConnId) (t : Thread)
    (hquiet : x.QuietAt slot.ref) (hc : x.hub.connAt slot = some c) (ht : x.threads[c]? = some t) :
    t.view = (x.hub.connAt slot.other).isSome := by
  have hall := (Transition.Guarded.of_labels hkeeps (init cfg)).and hg
  have h : x.Agreed := hall.invariant (I := Agreed)
    (fun x e y hx he hstep => agreed_step hx he.1 he.2 hstep) (agreed_init cfg) hrun
  rcases h.informed slot c hc with ⟨t', ht', hview⟩ | ⟨e, t', own, ht', hpc, hown, a, ha, -⟩
  · obtain rfl := Option.some.inj (ht.symm.trans ht')
    exact hview
  · rw [hquiet t' (List.mem_of_getElem? ht') own hpc hown] at ha
    cases ha

/-! ## A guest that comes back -/

/-- The guest joins, registers a token and drops. -/
def guestGone : List Step :=
  [.accept "a", .begin 0 .createSession 0 (Relay.drawID "s"), .act 0, .accept "b",
    .begin 1 (.join (some "s")) 1 (Relay.drawID ""), .attach 1 1, .attach 1 1, .act 1, .act 1,
    .act 1, .frame 1 (.reconnectToken (some "ab")) 2, .drop 1, .readError 1 3, .accept "b",
    .begin 2 (.reconnect (some ⟨"s", "guest", "ab"⟩)) 4 (Relay.drawID "")]

/-- The host is told that the guest is gone, then that it is back. -/
def backInTurn : List Step :=
  guestGone ++ [.act 1, .act 1, .act 1, .attach 2 4, .act 2, .act 2, .act 2, .act 2]

theorem presence_agrees_backInTurn : ∃ x t,
    Transition.run step (init Relay.smallConfig) backInTurn = some x ∧ x.threads[0]? = some t ∧
      t.sent.length = 4 ∧ t.view = (x.hub.connAt ⟨0, .guest⟩).isSome := by
  have hg : Transition.Guarded step Timely (init Relay.smallConfig) backInTurn := by decide +kernel
  have hrun : (Transition.run step (init Relay.smallConfig) backInTurn).any (fun x =>
      decide (x.QuietAt 0) && decide (x.hub.connAt ⟨0, .host⟩ = some 0) &&
        (x.threads[0]?).any fun t => decide (t.sent.length = 4)) = true := by decide +kernel
  obtain ⟨x, hr, hx⟩ := (Option.any_eq_true _ _).mp hrun
  rw [Bool.and_eq_true, Bool.and_eq_true, decide_eq_true_eq, decide_eq_true_eq] at hx
  obtain ⟨⟨hquiet, hc⟩, hany⟩ := hx
  obtain ⟨t, ht, hlen⟩ := (Option.any_eq_true _ _).mp hany
  refine ⟨x, t, hr, ht, of_decide_eq_true hlen, ?_⟩
  exact presence_agrees Relay.smallConfig backInTurn (by decide) hg hr ⟨0, .host⟩ 0 t hquiet hc ht

/-- The host is told that the guest is gone when it has been told that it is back. -/
def backTooSoon : List Step :=
  guestGone ++ [.attach 2 4, .act 2, .act 2, .act 2, .act 2, .act 1, .act 1, .act 1]

theorem host_misinformed : ∃ x t,
    Transition.run step (init Relay.smallConfig) backTooSoon = some x ∧
      (∀ e ∈ backTooSoon, e.keepsSessions) ∧
      (∀ t ∈ x.threads, t.todo = [] ∧ t.pc.entering = false) ∧
      x.hub.connAt ⟨0, .host⟩ = some 0 ∧ x.threads[0]? = some t ∧ t.view = false ∧
        x.hub.connAt ⟨0, .guest⟩ = some 2 := by
  have hrun : (Transition.run step (init Relay.smallConfig) backTooSoon).any (fun x =>
      decide (∀ t ∈ x.threads, t.todo = [] ∧ t.pc.entering = false) &&
        decide (x.hub.connAt ⟨0, .host⟩ = some 0) && decide (x.hub.connAt ⟨0, .guest⟩ = some 2) &&
        (x.threads[0]?).any fun t => !t.view) = true := by decide +kernel
  obtain ⟨x, hr, hx⟩ := (Option.any_eq_true _ _).mp hrun
  simp only [Bool.and_eq_true, decide_eq_true_eq] at hx
  obtain ⟨⟨⟨hquiet, hhost⟩, hguest⟩, hany⟩ := hx
  obtain ⟨t, ht, hview⟩ := (Option.any_eq_true _ _).mp hany
  exact ⟨x, t, hr, by decide, hquiet, hhost, ht, by simpa using hview, hguest⟩

end Goroutines

end Server

end Quicksend
