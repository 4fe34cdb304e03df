import Quicksend.Server.Goroutines.Addressees

/-!
# What a connection is sent first

A slot can be looked up as soon as it is taken, before its connection has been
sent `paired` or `reconnected`. What follows holds as long as nobody looks it up
to write to it in between.
-/

namespace Quicksend.Server

/-- Whether the handler that begins so is to be sent `paired` or `reconnected`. -/
def First.joins : First → Bool
  | .join _ | .joinByCode _ | .reconnect _ => true
  | .binary | .malformed | .createSession | .createCodeSession | .other => false

/-- The notice that the handler is to be sent first. -/
def First.Opens (first : First) (frame : Frame) : Prop :=
  match first with
  | .join _ | .joinByCode _ => ∃ id, frame = .control (.paired id)
  | .reconnect _ => frame = .control .reconnected
  | .binary | .malformed | .createSession | .createCodeSession | .other => False

/-- Whether the action sends its own connection such a notice. -/
def Action.welcomes (c : ConnId) : Action → Bool
  | .send d (.control (.paired _)) | .send d (.control .reconnected) => decide (d = c)
  | _ => false

namespace Goroutines

variable {x y : Goroutines}

/-- Its handler has yet to send it `paired` or `reconnected`. -/
def Unannounced (x : Goroutines) (c : ConnId) : Prop :=
  ∃ t ∈ x.threads[c]?, ∃ a ∈ t.todo, a.welcomes c = true

instance (x : Goroutines) (c : ConnId) : Decidable (x.Unannounced c) :=
  decidable_of_iff ((x.threads[c]?).any (·.todo.any (·.welcomes c)) = true) <| by
    rw [Option.any_eq_true]
    simp [Unannounced]

/-- Whoever looks a connection up to write to it, finds it announced. -/
def Announced (x : Goroutines) (e : Step) : Prop :=
  ∀ slot ∈ x.lookups e, ∀ c ∈ x.hub.connAt slot, ¬ x.Unannounced c

instance (x : Goroutines) (e : Step) : Decidable (x.Announced e) :=
  inferInstanceAs (Decidable (∀ slot ∈ x.lookups e, ∀ c ∈ x.hub.connAt slot, _))

/-! ## How far a connection is -/

/-- It has a slot, and what it is to be sent first it has been sent. -/
structure Opened (t : Thread) : Prop where
  slot : ∃ slot, t.pc.slot = some slot
  sent : ∀ first, t.first = some first → first.joins = true →
    ∃ frame, t.sent.head? = some frame ∧ first.Opens frame

theorem Opened.grown {t t' : Thread} (h : Opened t) (hg : Grown t t') : Opened t' := by
  obtain ⟨slot, hslot⟩ := h.slot
  refine ⟨⟨slot, hg.slot slot hslot⟩, fun first hfirst hjoins => ?_⟩
  rw [hg.first slot hslot] at hfirst
  obtain ⟨frame, hhead, hopens⟩ := h.sent first hfirst hjoins
  obtain ⟨later, hsent⟩ := hg.sent
  refine ⟨frame, ?_, hopens⟩
  rw [← hsent, List.head?_append, hhead]
  rfl

/-- An action that does not lead to a frame for this connection, which is in
this slot. -/
def Spares (c : ConnId) (slot : Slot) : Action → Prop
  | .send d _ => d ≠ c
  | .tell slot' _ => slot' ≠ slot
  | .record _ _ => False
  | _ => True

/-- How far connection `c` is on its way to its first frame: not begun, entering,
its opening frame still to be written, written, or refused. -/
inductive Stage (c : ConnId) (t : Thread) : Prop where
  | fresh (hpc : t.pc = .fresh) (hsent : t.sent = []) (htodo : t.todo = [])
  | entering (first : First) (hpc : t.pc.entering = true) (hsent : t.sent = []) (htodo : t.todo = [])
      (hfirst : t.first = some first)
      (hjoin : (∀ slot token, t.pc ≠ .resuming slot token) → ∀ id,
        first.Opens (.control (.paired id)))
      (hresume : ∀ slot token, t.pc = .resuming slot token → first.Opens (.control .reconnected))
  | pending (first : First) (slot : Slot) (pre : List Action) (frame : Frame)
      (hpc : t.pc = .serving slot) (hsent : t.sent = []) (htodo : t.todo = pre ++ [.send c frame])
      (hpre : ∀ a ∈ pre, Spares c slot a) (hfirst : t.first = some first)
      (hframe : first.Opens frame) (hwelcome : Action.welcomes c (.send c frame) = true)
  | opened (h : Opened t)
  | refused (hpc : t.pc = .refused)

/-- Frames are on the way only to connections that have their notice. -/
structure Heralded (x : Goroutines) : Prop where
  owned : x.Owned
  stages : ∀ (c : ConnId) (t : Thread), x.threads[c]? = some t → Stage c t
  addressed : Addressed Opened x

/-- Whoever has a slot and no notice to come has been sent it. -/
theorem Stage.opened_of {c : ConnId} {t : Thread} (h : Stage c t)
    (hslot : ∃ slot, t.pc.slot = some slot) (hnone : ∀ a ∈ t.todo, a.welcomes c = false) :
    Opened t := by
  obtain ⟨slot, hslot⟩ := hslot
  cases h with
  | fresh hpc =>
      rw [hpc] at hslot
      cases hslot
  | entering first hpc =>
      rw [slot_of_entering hpc] at hslot
      cases hslot
  | pending first slot' pre frame hpc hsent htodo hpre hfirst hframe hwelcome =>
      have := hnone (.send c frame) (by rw [htodo]; simp)
      rw [hwelcome] at this
      cases this
  | opened h => exact h
  | refused hpc =>
      rw [hpc] at hslot
      cases hslot

/-- A connection that is looked up has its notice. -/
theorem Heralded.finds (h : x.Heralded) {e : Step} (ha : x.Announced e) : Finds Opened x e := by
  intro slot hslot c hc
  have hnone := ha slot hslot c hc
  obtain ⟨t, ht, hheld⟩ := Option.bind_eq_some_iff.mp ((h.owned slot c).mp hc)
  refine ⟨t, ht, (h.stages c t ht).opened_of ⟨slot, ?_⟩ fun a ha => ?_⟩
  · rw [← slotOf_of_get ht]
    exact slotOf_of_held ((h.owned slot c).mp hc)
  · by_contra hwelcome
    exact hnone ⟨t, ht, a, ha, by simpa using hwelcome⟩

/-! ## What the steps do to it -/

theorem Stage.congr {c : ConnId} {t t' : Thread} (h : Stage c t) (hcore : SameCore t t')
    (hsent : t'.sent = t.sent) : Stage c t' := by
  cases h with
  | fresh hpc hs htodo =>
      exact .fresh (hcore.pc.trans hpc) (hsent.trans hs) (hcore.todo.trans htodo)
  | entering first hpc hs htodo hfirst hjoin hresume =>
      refine .entering first (hcore.pc ▸ hpc) (hsent.trans hs) (hcore.todo.trans htodo)
        (hcore.first.trans hfirst) ?_ ?_
      · rw [hcore.pc]
        exact hjoin
      · rw [hcore.pc]
        exact hresume
  | pending first slot pre frame hpc hs htodo hpre hfirst hframe hwelcome =>
      exact .pending first slot pre frame (hcore.pc.trans hpc) (hsent.trans hs)
        (hcore.todo.trans htodo) hpre (hcore.first.trans hfirst) hframe hwelcome
  | opened h =>
      refine .opened ⟨?_, ?_⟩
      · rw [hcore.pc]
        exact h.slot
      · rw [hcore.first, hsent]
        exact h.sent
  | refused hpc => exact .refused (hcore.pc.trans hpc)

/-- What an action leads to spares a connection that the action spares. -/
theorem spares_more (ho : x.Owned) {c : ConnId} {slot : Slot} {a : Action}
    (hc : x.hub.connAt slot = some c) (ha : Spares c slot a) :
    ∀ b ∈ (x.perform a).2, Spares c slot b := by
  intro b hb
  cases a with
  | tell slot' frame =>
      obtain ⟨d, hd, rfl⟩ : ∃ d, x.hub.connAt slot' = some d ∧ Action.send d frame = b := by
        simpa [perform] using hb
      rintro rfl
      exact ha (ho.left_unique hd hc)
  | record slot' data => exact ha.elim
  | _ => cases hb

theorem written_of_spares {c : ConnId} {slot : Slot} {a : Action} (h : Spares c slot a) :
    written c a = [] := by
  cases a with
  | send d frame => exact if_neg h
  | _ => rfl

/-- A handler that performs an action. -/
theorem stage_act {c : ConnId} {t t' : Thread} {a : Action} {todo : List Action} (h : x.Heralded)
    (ht : x.threads[c]? = some t) (htodo : t.todo = a :: todo) (hcore : SameCore t t')
    (hgrown : Grown t t')
    (hsent : t'.sent = t.sent ++ written c a) :
    Stage c (t'.setTodo ((x.perform a).2 ++ todo)) := by
  cases h.stages c t ht with
  | fresh hpc hs hnil =>
      rw [hnil] at htodo
      cases htodo
  | entering first hpc hs hnil =>
      rw [hnil] at htodo
      cases htodo
  | pending first slot pre frame hpc hs hpre hspares hfirst hframe hwelcome =>
      rw [hpre] at htodo
      cases pre with
      | nil =>
          obtain ⟨rfl, rfl⟩ := List.cons.inj htodo
          have hwritten : t'.sent = [frame] := by
            rw [hsent, hs, written, if_pos rfl]
            rfl
          refine .opened ⟨⟨slot, ?_⟩, fun first' hfirst' _ => ⟨frame, ?_, ?_⟩⟩
          · change t'.pc.slot = some slot
            rw [hcore.pc, hpc]
            rfl
          · change t'.sent.head? = some frame
            rw [hwritten]
            rfl
          · obtain rfl := Option.some.inj (hfirst.symm.trans (hcore.first.symm.trans hfirst'))
            exact hframe
      | cons b pre =>
          obtain ⟨rfl, rfl⟩ := List.cons.inj htodo
          have hb := hspares b (by simp)
          refine .pending first slot ((x.perform b).2 ++ pre) frame (hcore.pc.trans hpc) ?_
            (by simp [Thread.setTodo]) (fun b' hb' => ?_) (hcore.first.trans hfirst) hframe hwelcome
          · change t'.sent = []
            rw [hsent, hs, written_of_spares hb]
            rfl
          · rcases List.mem_append.mp hb' with hnew | hold
            · exact spares_more h.owned (h.owned.serves ht hpc) hb b' hnew
            · exact hspares b' (by simp [hold])
  | opened ho =>
      have hopened := ho.grown hgrown
      exact .opened ⟨hopened.slot, hopened.sent⟩
  | refused hpc => exact .refused (hcore.pc.trans hpc)

/-- What is written on another connection comes after its notice. -/
theorem stage_other {c : ConnId} {t t' : Thread} {a : Action} (h : Stage c t)
    (hcore : SameCore t t') (hgrown : Grown t t') (hsent : t'.sent = t.sent ++ written c a)
    (hopen : ∀ frame, a = .send c frame → Opened t) : Stage c t' := by
  cases hw : written c a with
  | nil => exact h.congr hcore (by rw [hsent, hw, List.append_nil])
  | cons frame rest =>
      refine .opened (Opened.grown ?_ hgrown)
      cases a with
      | send d frame' =>
          by_cases hd : d = c
          · exact hopen frame' (by rw [hd])
          · rw [written, if_neg hd] at hw
            cases hw
      | _ => cases hw

/-- One handler goes on. -/
theorem stages_change {c : ConnId} {f : Thread → Thread}
    (h : ∀ (d : ConnId) (t : Thread), x.threads[d]? = some t → Stage d t)
    (hthreads : y.threads = x.threads.modify c f)
    (hstage : ∀ t, x.threads[c]? = some t → Stage c (f t)) (d : ConnId) (t : Thread)
    (ht : y.threads[d]? = some t) : Stage d t := by
  rw [hthreads] at ht
  obtain ⟨t₀, ht₀, rfl⟩ := Tally.getElem?_modify_eq_some ht
  split
  next hcd =>
    subst hcd
    exact hstage t₀ ht₀
  next => exact h d t₀ ht₀

/-- Whoever a frame is written to, for itself or by others. -/
theorem stage_performed (h : x.Heralded) {a : Action} {d : ConnId} {t' : Thread}
    (ht' : (x.perform a).1.threads[d]? = some t')
    (hopen : ∀ frame, a = .send d frame → Meets Opened x d) : Stage d t' := by
  obtain ⟨t, ht, hcore, hsent⟩ := perform_sent ht'
  obtain ⟨t₁, ht₁, hgrown⟩ := grows_perform x a d t ht
  obtain rfl := Option.some.inj (ht'.symm.trans ht₁)
  refine stage_other (h.stages d t ht) hcore hgrown hsent fun frame heq => ?_
  obtain ⟨t₂, ht₂, hopened⟩ := hopen frame heq
  obtain rfl := Option.some.inj (ht.symm.trans ht₂)
  exact hopened

theorem stages_act {c : ConnId} {t : Thread} {a : Action} {todo : List Action} (h : x.Heralded)
    (ht : x.threads[c]? = some t) (htodo : t.todo = a :: todo) (d : ConnId) (t' : Thread)
    (ht' : ((x.perform a).1.modify c
      (Thread.setTodo ((x.perform a).2 ++ todo))).threads[d]? = some t') : Stage d t' := by
  obtain ⟨t₁, ht₁, rfl⟩ := Tally.getElem?_modify_eq_some ht'
  split
  next hcd =>
    subst hcd
    obtain ⟨t₀, ht₀, hcore, hsent⟩ := perform_sent ht₁
    obtain rfl := Option.some.inj (ht.symm.trans ht₀)
    obtain ⟨t₂, ht₂, hgrown⟩ := grows_perform x a c t ht
    obtain rfl := Option.some.inj (ht₁.symm.trans ht₂)
    exact stage_act h ht htodo hcore hgrown hsent
  next hcd =>
    refine stage_performed h ht₁ fun frame heq => ?_
    have hmem : .send d frame ∈ t.todo := by rw [htodo, heq]; simp
    exact (h.addressed.sends c t d frame ht hmem).resolve_left (Ne.symm hcd)

theorem stage_enter {c : ConnId} {t : Thread} {first : First} {draws : Draws} {hub : Hub} {pc : Pc}
    {todo : List Action} (h : x.Heralded) (ht : x.threads[c]? = some t) (hfresh : t.pc = .fresh)
    (he : Enter x.hub first t.ip c draws hub pc todo) :
    Stage c { t.goto pc todo with first := some first } := by
  have hsent : t.sent = [] := by
    cases h.stages c t ht with
    | fresh _ hs => exact hs
    | entering _ hs => exact absurd hs (by rw [hfresh]; simp [Pc.entering])
    | pending _ _ _ _ hpc => rw [hfresh] at hpc; cases hpc
    | opened ho =>
        obtain ⟨slot, hslot⟩ := ho.slot
        rw [hfresh] at hslot
        cases hslot
    | refused hpc => rw [hfresh] at hpc; cases hpc
  cases he with
  | created _ id s m hfull hdraw hid hs hheap hsessions hcounts hcfg hfirst =>
      refine .opened ⟨⟨_, rfl⟩, fun first' hfirst' hjoins => ?_⟩
      obtain rfl := Option.some.inj hfirst'
      rcases hfirst with rfl | rfl <;> cases hjoins
  | joining _ ref id hb hcfg hfull hid hfirst =>
      refine .entering first rfl hsent rfl rfl (fun _ id => ?_) fun slot token hpc => nomatch hpc
      rcases hfirst with ⟨id', rfl⟩ | ⟨code, rfl⟩ <;> exact ⟨id, rfl⟩
  | resuming slot token id hfull hid hfirst =>
      refine .entering first rfl hsent rfl rfl (fun hne => absurd rfl (hne slot token))
        fun slot' token' _ => ?_
      obtain ⟨payload, rfl, -⟩ := hfirst
      rfl
  | refused => exact .refused rfl

theorem stage_attach {c : ConnId} {now : Time} {t : Thread} {first : First} {hub : Hub} {pc : Pc}
    {todo : List Action} (h : x.Heralded)
    (ht : x.threads[c]? = some t) (hfirst : t.first = some first)
    (hatt : Attach x.hub first t.ip c now t.pc hub pc todo) :
    Stage c (t.goto pc todo) := by
  have hentering := attach_entering hatt
  obtain ⟨hsent, hjoin, hresume⟩ : t.sent = [] ∧
      ((∀ slot token, t.pc ≠ .resuming slot token) → ∀ id, first.Opens (.control (.paired id))) ∧
      ∀ slot token, t.pc = .resuming slot token → first.Opens (.control .reconnected) := by
    cases h.stages c t ht with
    | entering first' _ hs _ hfirst' hjoin hresume =>
        obtain rfl := Option.some.inj (hfirst.symm.trans hfirst')
        exact ⟨hs, hjoin, hresume⟩
    | fresh hpc => rw [hpc] at hentering; cases hentering
    | pending _ _ _ _ hpc => rw [hpc] at hentering; cases hentering
    | opened ho =>
        obtain ⟨slot, hslot⟩ := ho.slot
        rw [slot_of_entering hentering] at hslot
        cases hslot
    | refused hpc => rw [hpc] at hentering; cases hentering
  -- it has not been announced, so it is not the host that it joins
  have hnone : ¬ Meets Opened x c := by
    rintro ⟨t', ht', ho⟩
    obtain rfl := Option.some.inj (ht.symm.trans ht')
    obtain ⟨slot, hslot⟩ := ho.slot
    rw [slot_of_entering hentering] at hslot
    cases hslot
  have hhost := h.addressed.hosts c t
  generalize t.pc = before at hatt hjoin hresume hhost
  cases hatt with
  | found ref hostConn =>
      exact .entering first rfl hsent rfl hfirst
        (fun _ => hjoin fun slot token heq => nomatch heq) fun slot token heq => nomatch heq
  | joined ref hostConn s s' =>
      refine .pending first ⟨ref, .guest⟩ [.take t.ip, .send hostConn (.control (.paired s'.ID))]
        (.control (.paired s'.ID)) rfl hsent rfl (fun a ha => ?_) hfirst
        (hjoin (fun slot token heq => nomatch heq) s'.ID) (by simp [Action.welcomes])
      simp only [List.mem_cons, List.not_mem_nil, or_false] at ha
      rcases ha with rfl | rfl
      · trivial
      · rintro rfl
        -- the notice to the host is none to itself
        exact hnone (hhost ref hostConn ht rfl)
  | resumed slot token s s' =>
      refine .pending first slot [.take t.ip, .tell slot.other (.control .peerReconnected)]
        (.control .reconnected) rfl hsent rfl (fun a ha => ?_) hfirst (hresume slot token rfl)
        (by simp [Action.welcomes])
      simp only [List.mem_cons, List.not_mem_nil, or_false] at ha
      rcases ha with rfl | rfl
      · trivial
      · -- the notice to the other slot is none to itself
        exact other_ne slot
  | refused => exact .refused rfl

/-- Who serves a slot with nothing to do is announced. -/
theorem Heralded.served (h : x.Heralded) {c : ConnId} {t : Thread} {slot : Slot}
    (ht : x.threads[c]? = some t) (hpc : t.pc = .serving slot) (htodo : t.todo = []) : Opened t :=
  (h.stages c t ht).opened_of ⟨slot, by rw [hpc]; rfl⟩ (by simp [htodo])

theorem stages_step {e : Step} (h : x.Heralded) (hstep : step x e = some y) (d : ConnId) (t' : Thread)
    (ht' : y.threads[d]? = some t') : Stage d t' := by
  cases step_spec hstep with
  | accepted ip =>
      rcases Tally.getElem?_concat_eq_some ht' with ht | ⟨-, rfl⟩
      · exact h.stages d t' ht
      · exact .fresh rfl rfl rfl
  | begun c first now draws t hub pc todo ht hfresh he =>
      refine stages_change (f := fun t => { t.goto pc todo with first := some first }) h.stages rfl
        (fun t₀ ht₀ => ?_) d t' ht'
      obtain rfl := Option.some.inj (ht.symm.trans ht₀)
      exact stage_enter h ht hfresh he
  | attached c now t first hub pc todo ht hfirst hatt =>
      refine stages_change (f := Thread.goto pc todo) h.stages rfl (fun t₀ ht₀ => ?_) d t' ht'
      obtain rfl := Option.some.inj (ht.symm.trans ht₀)
      exact stage_attach h ht hfirst hatt
  | acted c t a todo ht htodo => exact stages_act h ht htodo d t' ht'
  | received c msg now t slot s ht hpc htodo hs =>
      refine stages_change (f := Thread.goto _ _) h.stages rfl (fun t₀ ht₀ => ?_) d t' ht'
      obtain rfl := Option.some.inj (ht.symm.trans ht₀)
      exact .opened ⟨⟨slot, by cases msg <;> rfl⟩, (h.served ht hpc htodo).sent⟩
  | dropped c =>
      refine stages_change (f := Thread.shut) h.stages rfl (fun t₀ ht₀ => ?_) d t' ht'
      exact (h.stages c t₀ ht₀).congr ⟨rfl, rfl, rfl, rfl⟩ rfl
  | left c now t slot s ht hpc htodo hs =>
      refine stages_change (f := Thread.goto _ _) h.stages rfl (fun t₀ ht₀ => ?_) d t' ht'
      obtain rfl := Option.some.inj (ht.symm.trans ht₀)
      exact .opened ⟨⟨slot, rfl⟩, (h.served ht hpc htodo).sent⟩
  | swept | looked | snapped => exact h.stages d t' ht'
  | reaperActed a todo htodo =>
      refine stage_performed h ht' fun frame heq => h.addressed.reaper d frame ?_
      rw [htodo, heq]
      simp

theorem heralded_step {e : Step} (h : x.Heralded) (ha : x.Announced e) (hstep : step x e = some y) :
    y.Heralded :=
  ⟨owned_step h.owned hstep, stages_step h hstep,
    addressed_step (fun _ _ hg ho => ho.grown hg) h.addressed (h.finds ha) hstep⟩

theorem heralded_init (cfg : Config) : (init cfg).Heralded where
  owned := owned_init cfg
  stages c t h := by simp [init] at h
  addressed := addressed_init cfg

/-- **The notice first.** In a run in which nobody looks a connection up to write
to it before its handler has sent it `paired` or `reconnected`, that is what a
connection that joined or reconnected is sent first. -/
theorem notice_first (cfg : Config) (es : List Step)
    (hg : Transition.Guarded step Announced (init cfg) es)
    (hrun : Transition.run step (init cfg) es = some x) (c : ConnId) (t : Thread) (slot : Slot)
    (first : First) (frame : Frame) (ht : x.threads[c]? = some t) (hslot : t.pc.slot = some slot)
    (hfirst : t.first = some first) (hjoins : first.joins = true)
    (hframe : t.sent.head? = some frame) : first.Opens frame := by
  have h : x.Heralded := hg.invariant (I := Heralded)
    (fun x e y hx ha hstep => heralded_step hx ha hstep) (heralded_init cfg) hrun
  cases h.stages c t ht with
  | fresh hpc | refused hpc =>
      rw [hpc] at hslot
      cases hslot
  | entering _ hpc =>
      rw [slot_of_entering hpc] at hslot
      cases hslot
  | pending _ _ _ _ _ hsent =>
      rw [hsent] at hframe
      cases hframe
  | opened ho =>
      obtain ⟨frame', hhead, hopens⟩ := ho.sent first hfirst hjoins
      obtain rfl := Option.some.inj (hframe.symm.trans hhead)
      exact hopens

/-! ## A host that answers at once -/

/-- The host relays a frame when the guest has its notice. -/
def answeredLater : List Step :=
  [.accept "a", .begin 0 .createSession 0 (Relay.drawID "s"), .act 0, .accept "b",
    .begin 1 (.join (some "s")) 1 (Relay.drawID ""), .attach 1 1, .attach 1 1, .act 1, .act 1,
    .act 1, .frame 0 (.other false [1]) 2, .act 0, .act 0]

theorem notice_first_answeredLater : ∃ x t,
    Transition.run step (init Relay.smallConfig) answeredLater = some x ∧ x.threads[1]? = some t ∧
      t.sent.length = 2 ∧ ∀ frame, t.sent.head? = some frame →
        (First.join (some "s")).Opens frame := by
  have hg : Transition.Guarded step Announced (init Relay.smallConfig) answeredLater := by
    decide +kernel
  have hrun : (Transition.run step (init Relay.smallConfig) answeredLater).any (fun x =>
      (x.threads[1]?).any fun t => decide (t.sent.length = 2) &&
        decide (t.pc.slot = some ⟨0, .guest⟩) &&
        decide (t.first = some (.join (some "s")))) = true := by decide +kernel
  obtain ⟨x, hr, hx⟩ := (Option.any_eq_true _ _).mp hrun
  obtain ⟨t, ht, hx⟩ := (Option.any_eq_true _ _).mp hx
  simp only [Bool.and_eq_true, decide_eq_true_eq] at hx
  refine ⟨x, t, hr, ht, hx.1.1, fun frame hframe => ?_⟩
  exact notice_first Relay.smallConfig answeredLater hg hr 1 t ⟨0, .guest⟩ (.join (some "s")) frame
    ht hx.1.2 hx.2 rfl hframe

/-- The host is told first, and its frame is relayed before the guest is. -/
def answeredAtOnce : List Step :=
  [.accept "a", .begin 0 .createSession 0 (Relay.drawID "s"), .act 0, .accept "b",
    .begin 1 (.join (some "s")) 1 (Relay.drawID ""), .attach 1 1, .attach 1 1, .act 1, .act 1,
    .frame 0 (.other false [1]) 2, .act 0, .act 0, .act 1]

theorem frame_before_notice : ∃ x,
    Transition.run step (init Relay.smallConfig) answeredAtOnce = some x ∧ ∃ t,
      x.threads[1]? = some t ∧ t.pc = .serving ⟨0, .guest⟩ ∧
        t.sent = [.relayed false [1], .control (.paired "s")] := by
  have hrun : (Transition.run step (init Relay.smallConfig) answeredAtOnce).any (fun x =>
      (x.threads[1]?).any fun t => decide (t.pc = .serving ⟨0, .guest⟩) &&
        decide (t.sent = [.relayed false [1], .control (.paired "s")])) = true := by
    decide +kernel
  obtain ⟨x, hr, hx⟩ := (Option.any_eq_true _ _).mp hrun
  obtain ⟨t, ht, hx⟩ := (Option.any_eq_true _ _).mp hx
  rw [Bool.and_eq_true, decide_eq_true_eq, decide_eq_true_eq] at hx
  exact ⟨x, hr, t, ht, hx⟩

end Goroutines

end Quicksend.Server
