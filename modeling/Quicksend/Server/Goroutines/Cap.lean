import Quicksend.Lib.Tally
import Quicksend.Server.Goroutines.Owners

/-!
# The cap on an address, handler by handler

A join or a reconnect checks the count of its address in one critical section
and adds to it in a later one. The cap holds as long as who passes the check
would pass it with those in between counted as well.
-/

namespace Quicksend.Server

/-- Whether carrying this action out changes the count of an address. -/
def Action.counts : Action → Bool
  | .take _ | .release _ => true
  | .remove _ | .send _ _ | .close _ _ | .tell _ _ | .record _ _ => false

namespace Thread

/-- It passed the check, and the count does not have it yet. -/
def between (ip : String) (t : Thread) : Bool :=
  decide (t.ip = ip) && (t.pc.entering || decide (Action.take ip ∈ t.todo))

/-- This goroutine is in the count of the address: it serves a slot and has taken
it, or has left and not given it back. -/
def counted (ip : String) (t : Thread) : Bool :=
  decide (t.ip = ip) && match t.pc with
    | .serving _ => decide (Action.take ip ∉ t.todo)
    | .left _ => decide (Action.release ip ∈ t.todo)
    | _ => false

/-- It has a slot or may come to have one, or the count still has it. -/
def claims (ip : String) (t : Thread) : Bool :=
  decide (t.ip = ip) &&
    (t.pc.entering || t.pc.held.isSome || decide (Action.release ip ∈ t.todo))

/-- What a handler has yet to do to the counts, in the order in which it will. -/
def counting (t : Thread) : List Action := t.todo.filter Action.counts

/-- A handler counts itself once when it begins, and once when it leaves. -/
def Tidy (t : Thread) : Prop :=
  match t.pc with
  | .serving _ => t.counting = [] ∨ t.counting = [.take t.ip]
  | .left _ => t.counting = [] ∨ t.counting = [.release t.ip]
  | .ended _ => False
  | .fresh | .joining _ | .attaching _ _ | .resuming _ _ | .refused => t.counting = []

end Thread

/-- Both slots of every session that was ever created, in the order of the
sessions. -/
def Hub.slots (h : Hub) : List Slot :=
  (List.range h.heap.length).flatMap fun ref => [⟨ref, .host⟩, ⟨ref, .guest⟩]

namespace Goroutines

/-- Connection `c` was accepted from this address, which its goroutine keeps for
good. -/
def cameFrom (x : Goroutines) (ip : String) (c : ConnId) : Bool :=
  (x.threads[c]?).any fun t => decide (t.ip = ip)

/-- How many connected slots connections from `ip` hold. -/
def slotsFrom (x : Goroutines) (ip : String) : Nat :=
  x.hub.slots.countP fun slot => (x.hub.connAt slot).any (x.cameFrom ip)

/-- Who passes the check would pass it with those in between counted as well. -/
def Covered (x : Goroutines) : Step → Prop
  | .begin c first now draws =>
      ∀ t ∈ x.threads[c]?, (enter x.hub first t.ip c now draws).2.1 ≠ .refused →
        ((x.hub.ipCounts t.ip + x.threads.countP (Thread.between t.ip) : Nat) : Int) <
          x.hub.cfg.MaxSessionsPerIP
  | _ => True

instance (x : Goroutines) (e : Step) : Decidable (x.Covered e) := by
  unfold Covered
  split <;> infer_instance

end Goroutines

/-! ## What the counts have of one handler -/

namespace Thread

variable {t t' : Thread} {ip : String}

theorem mem_counting {a : Action} (ha : a.counts = true) : a ∈ t.todo ↔ a ∈ t.counting := by
  rw [counting, List.mem_filter]
  exact ⟨fun h => ⟨h, ha⟩, And.left⟩

theorem between_eq : t.between ip =
    (decide (t.ip = ip) && (t.pc.entering || decide (Action.take ip ∈ t.counting))) := by
  rw [between]
  simp only [mem_counting (t := t) (a := .take ip) rfl]

theorem counted_eq : t.counted ip = (decide (t.ip = ip) && match t.pc with
    | .serving _ => decide (Action.take ip ∉ t.counting)
    | .left _ => decide (Action.release ip ∈ t.counting)
    | _ => false) := by
  rw [counted]
  simp only [mem_counting (t := t) (a := .take ip) rfl, mem_counting (t := t) (a := .release ip) rfl]

theorem claims_eq : t.claims ip = (decide (t.ip = ip) &&
    (t.pc.entering || t.pc.held.isSome || decide (Action.release ip ∈ t.counting))) := by
  rw [claims]
  simp only [mem_counting (t := t) (a := .release ip) rfl]

/-- What the books read of a handler is the same: its address, its place, and what
it has yet to count. -/
structure SameBook (t t' : Thread) : Prop where
  ip : t'.ip = t.ip
  pc : t'.pc = t.pc
  counting : t'.counting = t.counting

theorem SameBook.counted (h : SameBook t t') : t'.counted ip = t.counted ip := by
  rw [counted_eq, counted_eq, h.ip, h.pc, h.counting]

theorem SameBook.between (h : SameBook t t') : t'.between ip = t.between ip := by
  rw [between_eq, between_eq, h.ip, h.pc, h.counting]

theorem SameBook.claims (h : SameBook t t') : t'.claims ip = t.claims ip := by
  rw [claims_eq, claims_eq, h.ip, h.pc, h.counting]

theorem SameBook.tidy (h : SameBook t t') (ht : t.Tidy) : t'.Tidy := by
  unfold Tidy
  rw [h.pc, h.counting, h.ip]
  exact ht

theorem tidy_serving {slot : Slot} (hpc : t.pc = .serving slot)
    (h : t.counting = [] ∨ t.counting = [.take t.ip]) : t.Tidy := by
  rw [Tidy, hpc]
  exact h

theorem tidy_left {slot : Slot} (hpc : t.pc = .left slot)
    (h : t.counting = [] ∨ t.counting = [.release t.ip]) : t.Tidy := by
  rw [Tidy, hpc]
  exact h

/-- Who claims a place is counted or in between, and not both. -/
theorem Tidy.claims (h : t.Tidy) : (if t.claims ip then 1 else 0) =
    (if t.counted ip then 1 else 0) + if t.between ip then 1 else 0 := by
  rw [claims_eq, counted_eq, between_eq]
  unfold Tidy at h
  by_cases hip : t.ip = ip
  · subst hip
    cases hpc : t.pc with
    | serving slot =>
        rw [hpc] at h
        rcases h with h | h <;> simp [h, Pc.entering, Pc.held]
    | left slot =>
        rw [hpc] at h
        rcases h with h | h <;> simp [h, Pc.entering, Pc.held]
    | ended slot =>
        rw [hpc] at h
        exact h.elim
    | fresh | joining | attaching | resuming | refused =>
        rw [hpc] at h
        simp [h, Pc.entering, Pc.held]
  · simp [hip]

end Thread

namespace Goroutines

variable {x y : Goroutines} {cfg : Config}

/-! ## Addresses of connections -/

/-- The address of a slot is its connection's. -/
def Seated (x : Goroutines) : Prop := ∀ slot c ip, x.hub.peerAt slot = some (c, ip) →
  ∃ t, x.threads[c]? = some t ∧ t.ip = ip

theorem Seated.congr (h : x.Seated) (hgrows : Grows x y) (hpeer : y.hub.peerAt = x.hub.peerAt) :
    y.Seated := by
  intro slot c ip hslot
  rw [hpeer] at hslot
  obtain ⟨t, ht, rfl⟩ := h slot c ip hslot
  obtain ⟨t', ht', hgrown⟩ := hgrows c t ht
  exact ⟨t', ht', hgrown.ip⟩

/-- A slot is taken by a connection with its address, or left. -/
theorem Seated.update (h : x.Seated) (hgrows : Grows x y) {slot : Slot}
    {p : Option (ConnId × String)} (hpeer : y.hub.peerAt = Function.update x.hub.peerAt slot p)
    (hp : ∀ c ip, p = some (c, ip) → ∃ t, x.threads[c]? = some t ∧ t.ip = ip) : y.Seated := by
  intro slot' c ip hslot
  rw [hpeer] at hslot
  have hold : ∃ t, x.threads[c]? = some t ∧ t.ip = ip := by
    by_cases heq : slot' = slot
    · rw [heq, Function.update_self] at hslot
      exact hp c ip hslot
    · rw [Function.update_of_ne heq] at hslot
      exact h slot' c ip hslot
  obtain ⟨t, ht, rfl⟩ := hold
  obtain ⟨t', ht', hgrown⟩ := hgrows c t ht
  exact ⟨t', ht', hgrown.ip⟩

theorem seated_step {e : Step} (ho : x.Owned) (h : x.Seated) (hstep : step x e = some y) :
    y.Seated := by
  have hgrows := grows_step hstep
  cases step_spec hstep with
  | accepted ip => exact h.congr hgrows rfl
  | begun c first now draws t hub pc todo ht hfresh he =>
      cases he with
      | created _ id s m hfull hdraw hid hs hheap =>
          refine h.update hgrows (peerAt_append hs hheap) fun c' ip hp => ?_
          obtain ⟨rfl, rfl⟩ := Prod.mk.inj (Option.some.inj hp)
          exact ⟨t, ht, rfl⟩
      | joining _ ref id hb => exact h.congr hgrows (peerAt_of_heap hb.heap)
      | resuming slot token id => exact h.congr hgrows rfl
      | refused _ err hb => exact h.congr hgrows (peerAt_of_heap hb.heap)
  | attached c now t first hub pc todo ht hfirst ha =>
      generalize t.pc = before at ha
      cases ha with
      | found => exact h.congr hgrows rfl
      | joined ref hostConn s s' hs hs' =>
          obtain ⟨-, -, hslots⟩ := Session.attach_spec hs'
          refine h.update hgrows (peerAt_set hs hslots rfl) fun c' ip hp => ?_
          obtain ⟨rfl, rfl⟩ := Prod.mk.inj (Option.some.inj hp)
          exact ⟨t, ht, rfl⟩
      | resumed slot token s s' hs hs' =>
          obtain ⟨-, -, hslots⟩ := Session.reattach_spec hs'
          refine h.update hgrows (peerAt_set hs hslots rfl) fun c' ip hp => ?_
          obtain ⟨rfl, rfl⟩ := Prod.mk.inj (Option.some.inj hp)
          exact ⟨t, ht, rfl⟩
      | refused => exact h.congr hgrows rfl
  | acted c t a todo ht htodo => exact h.congr hgrows (peerAt_perform x a)
  | received c msg now t slot s ht hpc htodo hs =>
      exact h.congr hgrows (receive_spec hs c msg now).1
  | dropped c => exact h.congr hgrows rfl
  | left c now t slot s ht hpc htodo hs =>
      obtain ⟨ip, hlive⟩ := ho.live ht hpc hs
      have hslots := (Session.markDisconnected_spec hlive now).2.1
      exact h.update hgrows (peerAt_set hs hslots rfl) fun c' ip hp => nomatch hp
  | swept | looked | snapped => exact h
  | reaperActed a todo htodo => exact h.congr hgrows (peerAt_perform x a)

/-! ## The books of the handlers -/

/-- What the books say of a hub and its handlers. -/
structure Kept (cfg : Config) (h : Hub) (threads : List Thread) : Prop where
  limits : h.cfg = cfg
  tidy : ∀ t ∈ threads, t.Tidy
  counts : ∀ ip, h.ipCounts ip = threads.countP (Thread.counted ip)
  cap : ∀ ip, (threads.countP (Thread.claims ip) : Int) ≤ cfg.MaxSessionsPerIP

section Kept

variable {h h' : Hub} {threads threads' : List Thread} {c : ConnId} {t : Thread}
  {f : Thread → Thread}

/-- The claims are what is counted and what is in between. -/
theorem Kept.claims (hk : Kept cfg h threads) (ip : String) : threads.countP (Thread.claims ip) =
    h.ipCounts ip + threads.countP (Thread.between ip) := by
  rw [hk.counts]
  exact Tally.countP_or fun t ht => (hk.tidy t ht).claims

/-- A handler goes on. -/
theorem Kept.change (hk : Kept cfg h threads) (ht : threads[c]? = some t) (hcfg : h'.cfg = h.cfg)
    (htidy : (f t).Tidy)
    (hcounts : ∀ ip, h'.ipCounts ip + (if t.counted ip then 1 else 0) =
      h.ipCounts ip + if (f t).counted ip then 1 else 0)
    (hclaims : ∀ ip, (f t).claims ip = true → t.claims ip = true ∨
      (threads.countP (Thread.claims ip) : Int) < cfg.MaxSessionsPerIP) :
    Kept cfg h' (threads.modify c f) := by
  refine ⟨hcfg.trans hk.limits, fun t' ht' => ?_, fun ip => ?_, fun ip => ?_⟩
  · obtain ⟨d, hd⟩ := List.mem_iff_getElem?.mp ht'
    obtain ⟨t₀, ht₀, rfl⟩ := Tally.getElem?_modify_eq_some hd
    split
    next hcd =>
      obtain rfl := Option.some.inj (ht.symm.trans (hcd ▸ ht₀))
      exact htidy
    next => exact hk.tidy t₀ (List.mem_of_getElem? ht₀)
  · have hcount := Tally.countP_modify (Thread.counted ip) f ht
    have := hcounts ip
    have := hk.counts ip
    omega
  · have hcount := Tally.countP_modify (Thread.claims ip) f ht
    have hcap := hk.cap ip
    by_cases hnew : (f t).claims ip = true
    · rcases hclaims ip hnew with hold | hroom
      · rw [hnew, hold] at hcount
        omega
      · rw [if_pos hnew] at hcount
        split at hcount <;> omega
    · rw [if_neg hnew] at hcount
      split at hcount <;> omega

/-- A handler goes on in a way that the books do not see. -/
theorem Kept.same (hk : Kept cfg h threads) (ht : threads[c]? = some t) (hcfg : h'.cfg = h.cfg)
    (hcounts : h'.ipCounts = h.ipCounts) (hf : t.SameBook (f t)) :
    Kept cfg h' (threads.modify c f) := by
  refine hk.change ht hcfg (hf.tidy (hk.tidy t (List.mem_of_getElem? ht))) (fun ip => ?_)
    fun ip hclaims => .inl (hf.claims ▸ hclaims)
  rw [hcounts, hf.counted]

theorem Kept.unseen (hk : Kept cfg h threads) (c : ConnId) (hf : ∀ t : Thread, t.SameBook (f t)) :
    Kept cfg h (threads.modify c f) := by
  cases ht : threads[c]? with
  | none =>
      rw [List.modify_eq_self (List.getElem?_eq_none_iff.mp ht)]
      exact hk
  | some t => exact hk.same ht rfl rfl (hf t)

theorem Kept.accept (hk : Kept cfg h threads) (ip : String) :
    Kept cfg h (threads ++ [Thread.accept ip]) := by
  have hcounted : ∀ ip', (Thread.accept ip).counted ip' = false := by
    simp [Thread.counted, Thread.accept]
  have hclaims : ∀ ip', (Thread.accept ip).claims ip' = false := by
    simp [Thread.claims, Thread.accept, Pc.entering, Pc.held]
  refine ⟨hk.limits, fun t ht => ?_, fun ip' => ?_, fun ip' => ?_⟩
  · rcases List.mem_append.mp ht with hold | hnew
    · exact hk.tidy t hold
    · rw [List.mem_singleton.mp hnew]
      exact rfl
  · rw [List.countP_append, List.countP_singleton, hcounted]
    exact hk.counts ip'
  · rw [List.countP_append, List.countP_singleton, hclaims]
    exact hk.cap ip'

end Kept

/-! ## What each step does to the books -/

/-- What carries the cap through a run: slots and goroutines belong together, and
no address has more slots than were counted for it. -/
structure Capped (cfg : Config) (x : Goroutines) : Prop where
  owned : x.Owned
  seated : x.Seated
  kept : Kept cfg x.hub x.threads

theorem counting_refuse (c : ConnId) (first : First) (err : BeginError) :
    (refuse c first err).2.filter Action.counts = [] := rfl

/-- A handler that has only begun. -/
theorem fresh_claims {t : Thread} {ip : String} (hfresh : t.pc = .fresh) (htidy : t.Tidy) :
    t.counting = [] ∧ t.counted ip = false := by
  have hcounting : t.counting = [] := by
    rw [Thread.Tidy, hfresh] at htidy
    exact htidy
  refine ⟨hcounting, ?_⟩
  rw [Thread.counted_eq, hfresh]
  simp

theorem kept_enter {h h' : Hub} {threads : List Thread} {c : ConnId} {t : Thread} {first : First}
    {draws : Draws} {pc : Pc} {todo : List Action} (hk : Kept cfg h threads)
    (ht : threads[c]? = some t) (hfresh : t.pc = .fresh) (he : Enter h first t.ip c draws h' pc todo)
    (hroom : pc ≠ .refused →
      (threads.countP (Thread.claims t.ip) : Int) < cfg.MaxSessionsPerIP) :
    Kept cfg h' (threads.modify c fun t => { t.goto pc todo with first := some first }) := by
  have hfirst : ∀ ip, t.counted ip = false := fun ip =>
    (fresh_claims hfresh (hk.tidy t (List.mem_of_getElem? ht))).2
  have hown : ∀ (f : Thread → Thread) ip, (f t).ip = t.ip → pc ≠ .refused →
      (f t).claims ip = true → t.claims ip = true ∨
        (threads.countP (Thread.claims ip) : Int) < cfg.MaxSessionsPerIP := by
    intro f ip hip hpc hclaims
    obtain rfl : t.ip = ip := by
      rw [Thread.claims_eq, Bool.and_eq_true, decide_eq_true_eq] at hclaims
      exact hip.symm.trans hclaims.1
    exact .inr (hroom hpc)
  cases he with
  | created _ id s m hfull hdraw hid hs hheap hsessions hcounts hcfg =>
      refine hk.change ht hcfg (.inl rfl) (fun ip => ?_) fun ip => hown _ ip rfl (by simp)
      rw [hfirst, hcounts, take_ipCounts]
      by_cases hip : t.ip = ip
      · simp [Thread.counted, Thread.goto, hip]
      · simp [Thread.counted, Thread.goto, hip, Ne.symm hip]
  | joining _ ref id hb hcfg =>
      refine hk.change ht hcfg rfl (fun ip => ?_) fun ip => hown _ ip rfl (by simp)
      rw [hfirst, hb.ipCounts]
      simp [Thread.counted, Thread.goto]
  | resuming slot token id =>
      refine hk.change ht rfl rfl (fun ip => ?_) fun ip => hown _ ip rfl (by simp)
      rw [hfirst]
      simp [Thread.counted, Thread.goto]
  | refused _ err hb hcfg =>
      refine hk.change ht hcfg (counting_refuse c first err) (fun ip => ?_) fun ip hclaims => ?_
      · rw [hfirst, hb.ipCounts]
        simp [Thread.counted, Thread.goto]
      · rw [Thread.claims_eq] at hclaims
        simp [Thread.goto, Thread.counting, refuse, Action.counts, Pc.entering, Pc.held] at hclaims

/-- A handler inside an entry operation claims a place that is not counted. -/
theorem entering_claims {t : Thread} {ip : String} (hentering : t.pc.entering = true)
    (htidy : t.Tidy) : t.counting = [] ∧ t.counted ip = false ∧ t.claims ip = decide (t.ip = ip) := by
  have hcounting : t.counting = [] := by
    unfold Thread.Tidy at htidy
    cases hpc : t.pc <;> rw [hpc] at hentering htidy <;> first | exact htidy | cases hentering
  refine ⟨hcounting, ?_, ?_⟩
  · rw [Thread.counted_eq]
    cases hpc : t.pc with
    | joining | attaching | resuming => simp
    | _ =>
        rw [hpc] at hentering
        cases hentering
  · rw [Thread.claims_eq, hentering]
    simp

theorem kept_attach {h h' : Hub} {threads : List Thread} {c : ConnId} {now : Time} {t : Thread}
    {first : First} {pc : Pc} {todo : List Action} (hk : Kept cfg h threads)
    (ht : threads[c]? = some t) (ha : Attach h first t.ip c now t.pc h' pc todo) :
    Kept cfg h' (threads.modify c (Thread.goto pc todo)) := by
  have htidy := hk.tidy t (List.mem_of_getElem? ht)
  have hentering := attach_entering ha
  have hold : ∀ ip, t.counted ip = false := fun ip => (entering_claims hentering htidy).2.1
  have hown : ∀ ip, (t.goto pc todo).claims ip = true → t.claims ip = true := by
    intro ip hclaims
    rw [(entering_claims hentering htidy).2.2]
    rw [Thread.claims_eq, Bool.and_eq_true] at hclaims
    exact hclaims.1
  generalize t.pc = before at ha
  cases ha with
  | found ref hostConn hconn =>
      refine hk.change ht rfl rfl (fun ip => ?_) fun ip h => .inl (hown ip h)
      rw [hold]
      simp [Thread.counted, Thread.goto]
  -- the slot is taken here and counted by the action that follows: a claim before and after
  | joined ref hostConn s s' hs hs' =>
      refine hk.change ht rfl (.inr rfl) (fun ip => ?_) fun ip h => .inl (hown ip h)
      rw [hold]
      by_cases hip : t.ip = ip
      · simp [Thread.counted, Thread.goto, hip, Hub.setSession]
      · simp [Thread.counted, Thread.goto, hip, Hub.setSession]
  | resumed slot token s s' hs hs' =>
      refine hk.change ht rfl (.inr rfl) (fun ip => ?_) fun ip h => .inl (hown ip h)
      rw [hold]
      by_cases hip : t.ip = ip
      · simp [Thread.counted, Thread.goto, hip, Hub.setSession]
      · simp [Thread.counted, Thread.goto, hip, Hub.setSession]
  | refused _ err hpc =>
      refine hk.change ht rfl (counting_refuse c first err) (fun ip => ?_) fun ip h =>
        .inl (hown ip h)
      rw [hold]
      simp [Thread.counted, Thread.goto]

theorem counting_recorded (h : Hub) (slot : Slot) (data : Bytes) :
    (recorded h slot data).2.filter Action.counts = [] := by
  rw [List.filter_eq_nil_iff]
  intro b hb
  rcases mem_recorded hb with rfl | ⟨role, id, rfl⟩ <;> simp [Action.counts]

/-- An action that is no count changes no book. -/
theorem kept_perform {a : Action} (hk : Kept cfg x.hub x.threads) (ha : a.counts = false) :
    Kept cfg (x.perform a).1.hub (x.perform a).1.threads ∧
      (x.perform a).2.filter Action.counts = [] := by
  cases a with
  | take ip => cases ha
  | release ip => cases ha
  | remove id => exact ⟨⟨hk.limits, hk.tidy, hk.counts, hk.cap⟩, rfl⟩
  | send conn frame => exact ⟨hk.unseen conn fun _ => ⟨rfl, rfl, rfl⟩, rfl⟩
  | close conn reason => exact ⟨hk.unseen conn fun _ => ⟨rfl, rfl, rfl⟩, rfl⟩
  | tell slot frame =>
      refine ⟨hk, ?_⟩
      change List.filter Action.counts ((x.hub.connAt slot).map (Action.send · frame)).toList = []
      cases x.hub.connAt slot <;> rfl
  | record slot data =>
      refine ⟨?_, counting_recorded x.hub slot data⟩
      have hbooks : (recorded x.hub slot data).1.cfg = x.hub.cfg ∧
          (recorded x.hub slot data).1.ipCounts = x.hub.ipCounts := by
        unfold recorded
        split <;> exact ⟨rfl, rfl⟩
      change Kept cfg (recorded x.hub slot data).1 x.threads
      refine ⟨hbooks.1.trans hk.limits, hk.tidy, fun ip => ?_, hk.cap⟩
      rw [hbooks.2]
      exact hk.counts ip

theorem kept_act {c : ConnId} {t : Thread} {a : Action} {todo : List Action}
    (hk : Kept cfg x.hub x.threads) (ht : x.threads[c]? = some t) (htodo : t.todo = a :: todo) :
    Kept cfg (x.perform a).1.hub
      ((x.perform a).1.threads.modify c (Thread.setTodo ((x.perform a).2 ++ todo))) := by
  have htidy := hk.tidy t (List.mem_of_getElem? ht)
  cases hcounts : a.counts with
  | false =>
      -- what it leads to counts nothing either
      obtain ⟨hk', hmore⟩ := kept_perform hk hcounts
      obtain ⟨t', ht', hcore⟩ := perform_get (a := a) ht
      refine hk'.same ht' rfl rfl ⟨rfl, rfl, ?_⟩
      change ((x.perform a).2 ++ todo).filter Action.counts = t'.todo.filter Action.counts
      rw [hcore.todo, htodo, List.filter_append, hmore, List.filter_cons_of_neg (by simp [hcounts])]
      rfl
  | true =>
      have hcounting : t.counting = a :: todo.filter Action.counts := by
        rw [Thread.counting, htodo, List.filter_cons_of_pos hcounts]
      unfold Thread.Tidy at htidy
      cases hpc : t.pc with
      | serving slot =>
          rw [hpc, hcounting] at htidy
          -- the claim of the slot becomes a count
          obtain ⟨rfl, hrest⟩ : a = .take t.ip ∧ todo.filter Action.counts = [] := by
            simpa using htidy
          refine hk.change ht rfl (Thread.tidy_serving hpc (.inl hrest)) (fun ip => ?_)
            fun ip hclaims => .inl ?_
          · rw [Thread.counted_eq, Thread.counted_eq, hcounting]
            change (x.hub.take t.ip).ipCounts ip + _ = _
            rw [take_ipCounts]
            by_cases hip : t.ip = ip
            · subst hip
              simp [Thread.setTodo, Thread.counting, hpc, hrest, perform]
            · simp [Thread.setTodo, hip, Ne.symm hip]
          · rw [Thread.claims_eq, Bool.and_eq_true] at hclaims
            have hip : t.ip = ip := of_decide_eq_true hclaims.1
            simp [Thread.claims_eq, hpc, Pc.held, hip]
      | left slot =>
          rw [hpc, hcounting] at htidy
          -- one count fewer for the address, and its own was among them
          obtain ⟨rfl, hrest⟩ : a = .release t.ip ∧ todo.filter Action.counts = [] := by
            simpa using htidy
          have hcounted : t.counted t.ip = true := by simp [Thread.counted_eq, hpc, hcounting]
          have hpos : 0 < x.hub.ipCounts t.ip := by
            rw [hk.counts]
            exact List.countP_pos_iff.mpr ⟨t, List.mem_of_getElem? ht, hcounted⟩
          refine hk.change ht rfl (Thread.tidy_left hpc (.inl hrest)) (fun ip => ?_)
            fun ip hclaims => ?_
          · rw [Thread.counted_eq, Thread.counted_eq, hcounting]
            change (x.hub.release t.ip).ipCounts ip + _ = _
            rw [release_ipCounts]
            by_cases hip : t.ip = ip
            · subst hip
              simp [Thread.setTodo, Thread.counting, hpc, hrest, perform]
              omega
            · simp [Thread.setTodo, hip, Ne.symm hip]
          · simp [Thread.claims_eq, Thread.setTodo, Thread.counting, hpc, Pc.held, Pc.entering,
              hrest, perform] at hclaims
      | ended slot =>
          rw [hpc] at htidy
          -- ending a session is left out of these runs
          exact htidy.elim
      | fresh | joining | attaching | resuming | refused =>
          rw [hpc, hcounting] at htidy
          cases htidy

theorem cfg_handleReconnectToken (h : Hub) (slot : Slot) (tokenHex : Option String) :
    (Relay.handleReconnectToken h slot tokenHex).cfg = h.cfg ∧
      (Relay.handleReconnectToken h slot tokenHex).ipCounts = h.ipCounts := by
  unfold Relay.handleReconnectToken
  split
  next => exact ⟨rfl, rfl⟩
  next token _ =>
    unfold Hub.RegisterReconnectToken
    split <;> exact ⟨rfl, rfl⟩

theorem kept_receive {h : Hub} {threads : List Thread} {c : ConnId} {t : Thread} {slot : Slot}
    {s : Session} {msg : Incoming} {now : Time} (hk : Kept cfg h threads) (ht : threads[c]? = some t)
    (hpc : t.pc = .serving slot) (htodo : t.todo = []) (hmsg : msg ≠ .endSession) :
    Kept cfg (receive h c slot s msg now).1 (threads.modify c
      (Thread.goto (receive h c slot s msg now).2.1 (receive h c slot s msg now).2.2)) := by
  have hcounting : t.counting = [] := by rw [Thread.counting, htodo]; rfl
  cases msg with
  | endSession => exact absurd rfl hmsg
  | reconnectToken tokenHex =>
      obtain ⟨hcfg, hcounts⟩ := cfg_handleReconnectToken h slot tokenHex
      exact hk.same ht hcfg hcounts ⟨rfl, hpc.symm, hcounting.symm⟩
  | other binary data =>
      refine hk.same ht rfl rfl ⟨rfl, hpc.symm, ?_⟩
      rw [hcounting]
      cases binary <;> rfl

theorem counting_leave (c : ConnId) (other : Option ConnId) (ip : String) :
    (leaveActions c other ip).filter Action.counts = [.release ip] := by
  cases other <;> rfl

theorem kept_leave {h : Hub} {threads : List Thread} {c : ConnId} {t : Thread} {slot : Slot}
    (s : Session) (other : Option ConnId) (hk : Kept cfg h threads) (ht : threads[c]? = some t)
    (hpc : t.pc = .serving slot) (htodo : t.todo = []) :
    Kept cfg (h.setSession slot.ref s)
      (threads.modify c (Thread.goto (.left slot) (leaveActions c other t.ip))) := by
  have hcounting := counting_leave c other t.ip
  refine hk.change ht rfl (Thread.tidy_left rfl (.inr hcounting)) (fun ip => ?_)
    fun ip hclaims => .inl ?_
  · rw [Thread.counted_eq, Thread.counted_eq, hpc]
    by_cases hip : t.ip = ip
    · subst hip
      simp [Thread.goto, Thread.counting, htodo, hcounting, Hub.setSession]
    · simp [Thread.goto, hip, Hub.setSession]
  · rw [Thread.claims_eq, Bool.and_eq_true] at hclaims
    have hip : t.ip = ip := of_decide_eq_true hclaims.1
    simp [Thread.claims_eq, hpc, Pc.held, hip]

theorem capped_step {e : Step} (h : Capped cfg x) (hkeeps : e.keepsSessions) (hcovered : x.Covered e)
    (hstep : step x e = some y) : Capped cfg y := by
  refine ⟨owned_step h.owned hstep, seated_step h.owned h.seated hstep, ?_⟩
  have hk := h.kept
  cases step_spec hstep with
  | accepted ip => exact hk.accept ip
  | begun c first now draws t hub pc todo ht hfresh he henter =>
      refine kept_enter hk ht hfresh he fun hpc => ?_
      have hroom := hcovered t ht (by rw [henter]; exact hpc)
      rw [← hk.claims, hk.limits] at hroom
      exact hroom
  | attached c now t first hub pc todo ht hfirst ha => exact kept_attach hk ht ha
  | acted c t a todo ht htodo => exact kept_act hk ht htodo
  | received c msg now t slot s ht hpc htodo hs =>
      refine kept_receive hk ht hpc htodo ?_
      rintro rfl
      exact hkeeps
  | dropped c => exact hk.unseen c fun _ => ⟨rfl, rfl, rfl⟩
  | left c now t slot s ht hpc htodo hs =>
      obtain ⟨ip, hlive⟩ := h.owned.live ht hpc hs
      obtain ⟨t', ht', rfl⟩ := h.seated slot c ip ((peerAt_of_get hs).trans hlive)
      obtain rfl := Option.some.inj (ht.symm.trans ht')
      rw [(Session.markDisconnected_spec hlive now).2.2]
      exact kept_leave _ _ hk ht hpc htodo
  | swept | looked | snapped | reaperActed => exact hkeeps.elim

theorem capped_init {cfg : Config} (hcfg : 0 ≤ cfg.MaxSessionsPerIP) : Capped cfg (init cfg) where
  owned := owned_init cfg
  seated := by
    intro slot c ip h
    simp [init, Hub.new, Hub.peerAt] at h
  kept := by
    refine ⟨rfl, ?_, fun ip => rfl, fun ip => hcfg⟩
    simp [init]

/-! ## Slots and claims -/

theorem nodup_slots (h : Hub) : h.slots.Nodup := by
  refine List.nodup_flatMap.mpr ⟨fun ref _ => by simp, ?_⟩
  refine List.Nodup.pairwise_of_forall_ne List.nodup_range fun ref _ ref' _ hne => ?_
  simp [List.Disjoint, hne, Ne.symm hne]

/-- Every slot of an address is claimed by a handler of its own. -/
theorem slotsFrom_le (ho : x.Owned) (ip : String) :
    x.slotsFrom ip ≤ x.threads.countP (Thread.claims ip) := by
  have hle := Inverse.countP_le ho (nodup_slots x.hub) (m := List.range x.threads.length)
    (fun c hc => ?_) (x.cameFrom ip)
  · refine Nat.le_trans hle ?_
    rw [← Tally.countP_range (Thread.claims ip)]
    refine List.countP_mono_left fun c _ hc => ?_
    obtain ⟨hheld, hip⟩ := Bool.and_eq_true_iff.mp hc
    obtain ⟨t, ht, hip⟩ := (Option.any_eq_true _ _).mp hip
    rw [held_of_get ht] at hheld
    rw [ht]
    simpa [Thread.claims, hheld] using hip
  · obtain ⟨slot, hslot⟩ := Option.isSome_iff_exists.mp hc
    obtain ⟨t, ht, -⟩ := Option.bind_eq_some_iff.mp hslot
    exact List.mem_range.mpr (List.getElem?_eq_some_iff.mp ht).1

/-- **The cap.** In a run in which no session is ended or reaped, and in which
everyone who passes the check would pass it with those in between counted as
well, no address ever holds more slots than the limit. -/
theorem cap_of_covered (cfg : Config) (hcfg : 0 < cfg.MaxSessionsPerIP) (es : List Step)
    (hkeeps : ∀ e ∈ es, e.keepsSessions)
    (hg : Transition.Guarded step Covered (init cfg) es)
    (hrun : Transition.run step (init cfg) es = some x) (ip : String) :
    (x.slotsFrom ip : Int) ≤ cfg.MaxSessionsPerIP := by
  have hall := (Transition.Guarded.of_labels hkeeps (init cfg)).and hg
  have hcapped : Capped cfg x :=
    hall.invariant (I := Capped cfg) (fun x e y hx he => capped_step hx he.1 he.2)
      (capped_init (Int.le_of_lt hcfg)) hrun
  have hle := slotsFrom_le hcapped.owned ip
  have hcap := hcapped.kept.cap ip
  omega

/-! ## A limit of one -/

/-- A configuration under which an address may have a single connected peer. -/
def oneSlot : Config := { Relay.smallConfig with MaxSessionsPerIP := 1 }

/-- A guest joins one of two sessions and is refused at the other. -/
def joinedInTurn : List Step :=
  [.accept "a", .begin 0 .createSession 0 (Relay.drawID "s"), .accept "b",
    .begin 1 .createSession 0 (Relay.drawID "u"), .accept "j",
    .begin 2 (.join (some "s")) 1 (Relay.drawID ""), .attach 2 1, .attach 2 1, .act 2, .accept "j",
    .begin 3 (.join (some "u")) 2 (Relay.drawID "")]

theorem cap_of_covered_joinedInTurn : ∃ x,
    Transition.run step (init oneSlot) joinedInTurn = some x ∧ x.slotsFrom "j" = 1 ∧
      (x.slotsFrom "j" : Int) ≤ oneSlot.MaxSessionsPerIP := by
  have hg : Transition.Guarded step Covered (init oneSlot) joinedInTurn := by decide +kernel
  have hrun : (Transition.run step (init oneSlot) joinedInTurn).any (fun x =>
      decide (x.slotsFrom "j" = 1)) = true := by decide +kernel
  obtain ⟨x, hr, hx⟩ := (Option.any_eq_true _ _).mp hrun
  exact ⟨x, hr, of_decide_eq_true hx,
    cap_of_covered oneSlot (by decide) joinedInTurn (by decide) hg hr "j"⟩

/-- The same two joins, each checked before the other is counted. -/
def joinedAtOnce : List Step :=
  [.accept "a", .begin 0 .createSession 0 (Relay.drawID "s"), .accept "b",
    .begin 1 .createSession 0 (Relay.drawID "u"), .accept "j", .accept "j",
    .begin 2 (.join (some "s")) 1 (Relay.drawID ""), .begin 3 (.join (some "u")) 1 (Relay.drawID ""),
    .attach 2 1, .attach 3 1, .attach 2 1, .attach 3 1, .act 2, .act 3]

theorem cap_exceeded : ∃ x, Transition.run step (init oneSlot) joinedAtOnce = some x ∧
    (∀ e ∈ joinedAtOnce, e.keepsSessions) ∧ oneSlot.MaxSessionsPerIP = 1 ∧
      x.slotsFrom "j" = 2 := by
  have hrun : (Transition.run step (init oneSlot) joinedAtOnce).any (fun x =>
      decide (x.slotsFrom "j" = 2)) = true := by decide +kernel
  obtain ⟨x, hr, hx⟩ := (Option.any_eq_true _ _).mp hrun
  exact ⟨x, hr, by decide, rfl, of_decide_eq_true hx⟩

end Goroutines

end Quicksend.Server
