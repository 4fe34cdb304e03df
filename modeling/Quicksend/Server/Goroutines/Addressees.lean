import Quicksend.Server.Goroutines.Owners

/-!
# Whom the handlers write to

A handler writes to its own connection, and to connections that it looked up in
a slot. What is true of a connection whenever it is looked up, and stays true,
is true of everyone a frame is on the way to.
-/

namespace Quicksend.Server

namespace Goroutines

variable {x y : Goroutines}

/-- The slots whose connections a step looks up, to write to them. -/
def lookups (x : Goroutines) : Step → List Slot
  | .attach c _ =>
      match (x.threads[c]?).map Thread.pc with
      | some (.joining ref) => [⟨ref, .host⟩]
      | _ => []
  | .act c =>
      match (x.threads[c]?).map Thread.todo with
      | some (.tell slot _ :: _) => [slot]
      | _ => []
  | .frame c .endSession _ | .readError c _ => ((x.slotOf c).map Slot.other).toList
  | .snap =>
      match x.reaper with
      | .found now _ ref =>
          match x.hub.heap[ref]? with
          | some s => if reapActions x.hub s now = [] then [] else [⟨ref, .host⟩, ⟨ref, .guest⟩]
          | none => []
      | _ => []
  | .reapAct =>
      match x.reaperTodo with
      | .tell slot _ :: _ => [slot]
      | _ => []
  | _ => []

/-! ## What the actions write -/

/-- What an action writes on this connection; a frame to another connection does
not count. -/
def written (c : ConnId) : Action → List Frame
  | .send d frame => if d = c then [frame] else []
  | _ => []

theorem perform_sent {a : Action} {d : ConnId} {t' : Thread}
    (h : (x.perform a).1.threads[d]? = some t') : ∃ t, x.threads[d]? = some t ∧ SameCore t t' ∧
      t'.sent = t.sent ++ written d a := by
  cases a with
  | send conn frame =>
      obtain ⟨t, ht, rfl⟩ := Tally.getElem?_modify_eq_some h
      refine ⟨t, ht, ?_⟩
      rw [written]
      split
      next => exact ⟨⟨rfl, rfl, rfl, rfl⟩, rfl⟩
      next => exact ⟨⟨rfl, rfl, rfl, rfl⟩, (List.append_nil _).symm⟩
  | close conn reason =>
      obtain ⟨t, ht, rfl⟩ := Tally.getElem?_modify_eq_some h
      refine ⟨t, ht, ?_⟩
      split <;> exact ⟨⟨rfl, rfl, rfl, rfl⟩, (List.append_nil _).symm⟩
  | take | release | remove | tell | record =>
      exact ⟨t', h, ⟨rfl, rfl, rfl, rfl⟩, (List.append_nil _).symm⟩

/-- What a handler sends next is looked up now. -/
theorem send_of_more {a : Action} {d : ConnId} {frame : Frame}
    (hmem : .send d frame ∈ (x.perform a).2) : ∃ slot, a = .tell slot frame ∧
      x.hub.connAt slot = some d := by
  cases a with
  | tell slot frame' =>
      obtain ⟨d', hd, heq⟩ : ∃ d', x.hub.connAt slot = some d' ∧
          Action.send d' frame' = .send d frame := by simpa [perform] using hmem
      cases heq
      exact ⟨slot, rfl, hd⟩
  | record slot data =>
      rcases mem_recorded hmem with heq | ⟨role, id, heq⟩ <;> cases heq
  | _ => cases hmem

theorem send_mem_refuse {c d : ConnId} {first : First} {err : BeginError} {frame : Frame}
    (h : .send d frame ∈ (refuse c first err).2) : d = c := by
  simp [refuse] at h
  exact h.1

theorem send_mem_notifyAndClose {peer : Option (ConnId × String)} {reason : String} {d : ConnId}
    {frame : Frame} (h : .send d frame ∈ notifyAndClose peer reason) : ∃ ip, peer = some (d, ip) := by
  cases peer with
  | none => cases h
  | some p =>
      obtain ⟨conn, ip⟩ := p
      simp only [notifyAndClose, List.mem_cons, List.not_mem_nil, or_false] at h
      rcases h with heq | heq | heq
      · cases heq
        exact ⟨ip, rfl⟩
      · cases heq
      · cases heq

theorem send_mem_reap {h : Hub} {s : Session} {now : Time} {d : ConnId} {frame : Frame}
    (hmem : .send d frame ∈ reapActions h s now) : ∃ role ip, s.connAndIP role = some (d, ip) := by
  unfold reapActions at hmem
  dsimp only at hmem
  rw [Session.live_snapshot, Session.live_snapshot] at hmem
  split at hmem
  next => cases hmem
  next reason _ =>
    simp only [List.mem_append, List.mem_singleton, reduceCtorEq, or_false] at hmem
    rcases hmem with hmem | hmem
    · exact ⟨.host, send_mem_notifyAndClose hmem⟩
    · exact ⟨.guest, send_mem_notifyAndClose hmem⟩

/-! ## Frames on the way -/

/-- Connection `c` has been accepted, and its goroutine has this property. -/
def Meets (P : Thread → Prop) (x : Goroutines) (c : ConnId) : Prop :=
  ∃ t, x.threads[c]? = some t ∧ P t

/-- Frames are on the way only to connections that meet `P`, and to the
connections of their own handlers. -/
structure Addressed (P : Thread → Prop) (x : Goroutines) : Prop where
  sends : ∀ (d : ConnId) (t : Thread) c frame, x.threads[d]? = some t → .send c frame ∈ t.todo →
    c = d ∨ Meets P x c
  reaper : ∀ c frame, .send c frame ∈ x.reaperTodo → Meets P x c
  hosts : ∀ (d : ConnId) (t : Thread) ref hostConn, x.threads[d]? = some t →
    t.pc = .attaching ref hostConn → Meets P x hostConn

section Addressed

variable {P : Thread → Prop}

/-- Whoever this step looks up in a slot, to write to or to close, meets `P`. -/
def Finds (P : Thread → Prop) (x : Goroutines) (e : Step) : Prop :=
  ∀ slot ∈ x.lookups e, ∀ c, x.hub.connAt slot = some c → Meets P x c

theorem Meets.grows {c : ConnId} (hP : ∀ t t', Grown t t' → P t → P t') (hg : Grows x y)
    (h : Meets P x c) : Meets P y c := by
  obtain ⟨t, ht, hp⟩ := h
  obtain ⟨t', ht', hgrown⟩ := hg c t ht
  exact ⟨t', ht', hP t t' hgrown hp⟩

/-- One handler goes on. -/
theorem Addressed.change (h : Addressed P x) (hmeets : ∀ c, Meets P x c → Meets P y c) {c : ConnId}
    {f : Thread → Thread} (hthreads : y.threads = x.threads.modify c f)
    (hreaper : y.reaperTodo = x.reaperTodo)
    (hsends : ∀ t d frame, x.threads[c]? = some t → .send d frame ∈ (f t).todo →
      d = c ∨ Meets P x d)
    (hhosts : ∀ t ref hostConn, x.threads[c]? = some t → (f t).pc = .attaching ref hostConn →
      Meets P x hostConn) : Addressed P y := by
  refine ⟨fun d t' e frame ht' hmem => ?_, fun e frame hmem => ?_,
    fun d t' ref hostConn ht' hpc => ?_⟩
  · rw [hthreads] at ht'
    obtain ⟨t, ht, rfl⟩ := Tally.getElem?_modify_eq_some ht'
    split at hmem
    next hcd =>
      subst hcd
      exact (hsends t e frame ht hmem).imp id (hmeets e)
    next => exact (h.sends d t e frame ht hmem).imp id (hmeets e)
  · rw [hreaper] at hmem
    exact hmeets e (h.reaper e frame hmem)
  · rw [hthreads] at ht'
    obtain ⟨t, ht, rfl⟩ := Tally.getElem?_modify_eq_some ht'
    split at hpc
    next hcd =>
      subst hcd
      exact hmeets hostConn (hhosts t ref hostConn ht hpc)
    next => exact hmeets hostConn (h.hosts d t ref hostConn ht hpc)

theorem addressed_act {c : ConnId} {t : Thread} {a : Action} {todo : List Action}
    (h : Addressed P x) (hf : Finds P x (.act c)) (ht : x.threads[c]? = some t)
    (htodo : t.todo = a :: todo)
    (hmeets : ∀ d, Meets P x d →
      Meets P ((x.perform a).1.modify c (Thread.setTodo ((x.perform a).2 ++ todo))) d) :
    Addressed P ((x.perform a).1.modify c (Thread.setTodo ((x.perform a).2 ++ todo))) := by
  have hback : ∀ {d : ConnId} {t' : Thread}, ((x.perform a).1.modify c
      (Thread.setTodo ((x.perform a).2 ++ todo))).threads[d]? = some t' → ∃ t₀,
        x.threads[d]? = some t₀ ∧ t'.pc = t₀.pc ∧
          t'.todo = if c = d then (x.perform a).2 ++ todo else t₀.todo := by
    intro d t' ht'
    obtain ⟨t₁, ht₁, rfl⟩ := Tally.getElem?_modify_eq_some ht'
    obtain ⟨t₀, ht₀, hcore⟩ := get_perform ht₁
    refine ⟨t₀, ht₀, ?_, ?_⟩
    · split <;> exact hcore.pc
    · split
      next => rfl
      next => exact hcore.todo
  refine ⟨fun d t' e frame ht' hmem => ?_, fun e frame hmem => ?_,
    fun d t' ref hostConn ht' hpc => ?_⟩
  · obtain ⟨t₀, ht₀, -, heq⟩ := hback ht'
    rw [heq] at hmem
    split at hmem
    next hcd =>
      subst hcd
      obtain rfl := Option.some.inj (ht.symm.trans ht₀)
      rcases List.mem_append.mp hmem with hnew | hold
      · obtain ⟨slot, rfl, he⟩ := send_of_more hnew
        refine .inr (hmeets e (hf slot ?_ e he))
        rw [lookups, ht]
        simp [htodo]
      · refine (h.sends c t e frame ht ?_).imp id (hmeets e)
        rw [htodo]
        exact List.mem_cons_of_mem _ hold
    next => exact (h.sends d t₀ e frame ht₀ hmem).imp id (hmeets e)
  · exact hmeets e (h.reaper e frame (reaperTodo_perform x a ▸ hmem))
  · obtain ⟨t₀, ht₀, hsame, -⟩ := hback ht'
    exact hmeets hostConn (h.hosts d t₀ ref hostConn ht₀ (hsame ▸ hpc))

/-- The other peer of a served slot, when it is looked up. -/
theorem Finds.other {e : Step} (hf : Finds P x e) {c : ConnId} {t : Thread} {slot : Slot}
    {s : Session} {d : ConnId} (ht : x.threads[c]? = some t) (hpc : t.pc = .serving slot)
    (hs : x.hub.heap[slot.ref]? = some s)
    (he : x.lookups e = ((x.slotOf c).map Slot.other).toList)
    (hd : s.connOf slot.role.other = some d) : Meets P x d := by
  have hget : x.hub.connAt slot.other = s.connOf slot.role.other := connAt_of_get hs
  refine hf slot.other ?_ d (hget.trans hd)
  rw [he, slotOf_of_get ht, hpc]
  simp [Pc.slot]

/-- What holds of whoever is looked up, and stays, holds of whoever is written to. -/
theorem addressed_step {e : Step} (hP : ∀ t t', Grown t t' → P t → P t') (h : Addressed P x)
    (hf : Finds P x e) (hstep : step x e = some y) : Addressed P y := by
  have hmeets : ∀ c, Meets P x c → Meets P y c := fun c => Meets.grows hP (grows_step hstep)
  cases step_spec hstep with
  | accepted ip =>
      refine ⟨fun d t e frame ht hmem => ?_, fun e frame hmem => hmeets e (h.reaper e frame hmem),
        fun d t ref hostConn ht hpc => ?_⟩
      · rcases Tally.getElem?_concat_eq_some ht with ht | ⟨-, rfl⟩
        · exact (h.sends d t e frame ht hmem).imp id (hmeets e)
        · cases hmem
      · rcases Tally.getElem?_concat_eq_some ht with ht | ⟨-, rfl⟩
        · exact hmeets hostConn (h.hosts d t ref hostConn ht hpc)
        · cases hpc
  | begun c first now draws t hub pc todo ht hfresh he =>
      refine h.change hmeets (f := fun t => { t.goto pc todo with first := some first }) rfl rfl
        (fun t' d frame _ hmem => .inl ?_) fun t' ref hostConn _ hpc => ?_
      · cases he with
        -- every entry writes to its own connection only
        | created =>
            cases List.mem_singleton.mp hmem
            rfl
        | joining | resuming => cases hmem
        | refused => exact send_mem_refuse hmem
      · cases he <;> cases hpc
  | attached c now t first hub pc todo ht hfirst ha =>
      have hhost := h.hosts c t
      have hlook : ∀ ref, t.pc = .joining ref →
          (⟨ref, .host⟩ : Slot) ∈ x.lookups (.attach c now) := by
        intro ref hpc
        simp [lookups, ht, hpc]
      refine h.change hmeets (f := Thread.goto pc todo) rfl rfl (fun t' d frame ht' hmem => ?_)
        fun t' ref hostConn ht' hpc => ?_
      · generalize t.pc = before at ha hhost
        cases ha with
        | found => cases hmem
        | joined ref hostConn s s' =>
            simp only [Thread.goto, List.mem_cons, List.not_mem_nil, or_false] at hmem
            rcases hmem with heq | heq | heq
            · cases heq
            · cases heq
              -- the host was looked up in the critical section before
              exact .inr (hhost ref d ht rfl)
            · cases heq
              exact .inl rfl
        | resumed slot token s s' =>
            simp only [Thread.goto, List.mem_cons, List.not_mem_nil, or_false] at hmem
            rcases hmem with heq | heq | heq
            · cases heq
            · cases heq
            · cases heq
              exact .inl rfl
        | refused => exact .inl (send_mem_refuse hmem)
      · generalize t.pc = before at ha hlook
        cases ha with
        | found ref' hostConn' hconn =>
            cases hpc
            -- this is that critical section: the host is remembered from here on
            exact hf _ (hlook ref rfl) hostConn hconn
        | joined | resumed | refused => cases hpc
  | acted c t a todo ht htodo => exact addressed_act h hf ht htodo hmeets
  | received c msg now t slot s ht hpc htodo hs =>
      refine h.change hmeets (f := Thread.goto _ _) rfl rfl (fun t' d frame ht' hmem => .inr ?_)
        fun t' ref hostConn ht' hpc' => ?_
      · cases msg with
        | endSession =>
            rcases List.mem_append.mp hmem with hmem | hmem
            · -- the peer that is told of the end is in its slot as the session is read
              obtain ⟨ip, hlive⟩ := send_mem_notifyAndClose hmem
              exact hf.other ht hpc hs rfl (by rw [Session.connOf, hlive]; rfl)
            · simp at hmem
        | reconnectToken tokenHex => cases hmem
        | other binary data => cases binary <;> simp [receive, Thread.goto] at hmem
      · cases msg <;> cases hpc'
  | dropped c =>
      exact h.change hmeets (f := Thread.shut) rfl rfl
        (fun t d frame ht hmem => h.sends c t d frame ht hmem)
        fun t ref hostConn ht hpc => h.hosts c t ref hostConn ht hpc
  | left c now t slot s ht hpc htodo hs =>
      refine h.change hmeets (f := Thread.goto _ _) rfl rfl (fun t' d frame ht' hmem => ?_)
        fun t' ref hostConn ht' hpc' => by cases hpc'
      obtain ⟨hd, -⟩ : (s.markDisconnected slot.role now).2.1 = some d ∧
          Frame.control .peerDisconnected = frame := by
        simpa [Thread.goto, leaveActions, Option.map_eq_some_iff] using hmem
      -- the peer that is told of the drop is looked up as the slot is freed
      rw [Session.markDisconnected_other] at hd
      exact .inr (hf.other ht hpc hs rfl hd)
  | swept now ids hidle htodo => exact ⟨h.sends, h.reaper, h.hosts⟩
  | looked pc htodo hfound => exact ⟨h.sends, h.reaper, h.hosts⟩
  | snapped now ids ref s hpc hs =>
      refine ⟨h.sends, fun d frame hmem => ?_, h.hosts⟩
      -- the snapshot is where the reaper looks up both peers
      obtain ⟨role, ip, hlive⟩ := send_mem_reap hmem
      refine hf ⟨ref, role⟩ ?_ d ?_
      · have hne : reapActions x.hub s now ≠ [] := List.ne_nil_of_mem hmem
        rw [lookups, hpc]
        dsimp only
        rw [hs]
        dsimp only
        rw [if_neg hne]
        cases role <;> simp
      · have hget : x.hub.connAt ⟨ref, role⟩ = s.connOf role := connAt_of_get hs
        rw [hget, Session.connOf, hlive]
        rfl
  | reaperActed a todo htodo =>
      refine ⟨fun d t' e frame ht' hmem => ?_, fun e frame hmem => ?_,
        fun d t' ref hostConn ht' hpc => ?_⟩
      · obtain ⟨t, ht, hcore⟩ := get_perform ht'
        exact (h.sends d t e frame ht (hcore.todo ▸ hmem)).imp id (hmeets e)
      · refine hmeets e ?_
        rcases List.mem_append.mp hmem with hnew | hold
        · -- a `tell` looks its slot up as it is performed
          obtain ⟨slot, rfl, he⟩ := send_of_more hnew
          exact hf slot (by simp [lookups, htodo]) e he
        · exact h.reaper e frame (by rw [htodo]; exact List.mem_cons_of_mem _ hold)
      · obtain ⟨t, ht, hcore⟩ := get_perform ht'
        exact hmeets hostConn (h.hosts d t ref hostConn ht (hcore.pc ▸ hpc))

theorem addressed_init (cfg : Config) : Addressed P (init cfg) where
  sends d t c frame h := by simp [init] at h
  reaper c frame h := by simp [init] at h
  hosts d t ref hostConn h := by simp [init] at h

end Addressed

end Goroutines

end Quicksend.Server
