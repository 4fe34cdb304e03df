import Quicksend.Page.Steps

/-!
# A flow that was left

Back, Cancel and Try again go through `setState`, which closes the active
socket. Its listeners stay, and the close event is still to come: it does no
harm on the paired and on the error screen only. As long as no function takes
the place of a live socket, a flow that was left hears nothing else.
-/

namespace Quicksend

/-- The promise of the exchange settles with this step: it has its key, or it
throws. -/
def Exchange.settles (b : Browser) (e : Exchange b.lib) (err : Option String) : Bool :=
  match (Pake.resume (e.args b) e.role e.pc).map (settle err) with
  | some (.ok (.settled _, _)) | some (.error _) => true
  | some (.ok _) | none => false

namespace Page

section
variable {lib : PakePackage}

/-- One of the four flows opened the socket, and was left since. -/
def LeftFlow (x : Page lib) (c : ConnId) : Prop :=
  ∃ s ∈ x.sockets[c]?, s.opener.isFlow = true ∧ s.abandoned = true

instance (x : Page lib) (c : ConnId) : Decidable (x.LeftFlow c) :=
  inferInstanceAs (Decidable (∃ s ∈ x.sockets[c]?, _))

/-- Neither the state nor the active socket has changed, nor any socket that
was opened since. -/
structure Inert (x y : Page lib) : Prop where
  currentState : y.currentState = x.currentState
  activeSocket : y.activeSocket = x.activeSocket
  newer : ∀ (c : ConnId) s, x.sockets[c]? = some s → s.abandoned = false → y.sockets[c]? = some s

/-- A flow has at most one live socket, which is the active one. -/
structure Tracked (x : Page lib) : Prop where
  live : ∀ (c : ConnId) s, x.sockets[c]? = some s → s.opener.isFlow = true → s.live = true →
    x.activeSocket = some c ∧ s.abandoned = false
  active : ∀ (c : ConnId) s, x.activeSocket = some c → x.sockets[c]? = some s →
    s.opener.isFlow = true → s.abandoned = false

end

/-- The events after which another socket is the active one. -/
def Event.takesOver : Event → Bool
  | .message _ .reconnected _ _ => true
  | e => e.starts

/-- The socket whose close event this is; no other event closes one. -/
def Event.closed : Event → Option ConnId
  | .closes c => some c
  | _ => none

section
variable {b : Browser}

/-- The socket whose exchange is over with this event, successfully or not. -/
def settled (x : Page b.lib) : Event → Option ConnId
  | .pakeResumes i err => (x.exchanges[i]?).bind fun e =>
      if e.settles b err then some e.socket else none
  | _ => none

/-- The socket that a message, a close event or an exchange belongs to. -/
def socketOf (x : Page b.lib) : Event → Option ConnId
  | .message c .. | .closes c => some c
  | .pakeResumes i _ => (x.exchanges[i]?).map Exchange.socket
  | _ => none

/-- No live socket is replaced; and of a flow that was left, no exchange settles
and no socket closes but on the two screens that pay no heed to it. -/
def Heeds (x : Page b.lib) (e : Event) : Prop :=
  (e.takesOver = true → x.activeSocket = none) ∧
    (∀ c ∈ e.closed, x.LeftFlow c →
      x.currentState.screen = .paired ∨ x.currentState.screen = .error) ∧
    ∀ c ∈ x.settled e, ¬ x.LeftFlow c

instance (x : Page b.lib) (e : Event) : Decidable (x.Heeds e) :=
  inferInstanceAs (Decidable (_ ∧ _))

end

/-! ## The live sockets -/

section
variable {lib : PakePackage} {x y : Page lib}

theorem Tracked.congr (h : Tracked x) (hactive : y.activeSocket = x.activeSocket)
    (hsockets : y.sockets = x.sockets) : Tracked y where
  live c s hs ho hl := by
    rw [hsockets] at hs
    rw [hactive]
    exact h.live c s hs ho hl
  active c s hc hs ho := by
    rw [hactive] at hc
    rw [hsockets] at hs
    exact h.active c s hc hs ho

theorem Tracked.touched (h : Tracked x) (ht : Touched x y) : Tracked y where
  live c t hs ho hl := by
    obtain ⟨s, hs, hsame⟩ := ht.sockets hs
    rw [ht.activeSocket, hsame.abandoned]
    exact h.live c s hs (hsame.opener ▸ ho) (hsame.live hl)
  active c t hc hs ho := by
    obtain ⟨s, hs, hsame⟩ := ht.sockets hs
    rw [hsame.abandoned]
    exact h.active c s (ht.activeSocket ▸ hc) hs (hsame.opener ▸ ho)

/-- What was live was the active one, which is closed. -/
theorem Tracked.setState (h : Tracked x) (next : CurrentState) : Tracked (x.setState next) where
  live c t ht ho hl := by
    obtain ⟨s, hs, rfl⟩ := setState_socket ht
    by_cases hc : x.activeSocket = some c
    · rw [if_pos hc, Socket.abandon_live, Socket.not_live_close] at hl
      cases hl
    · rw [if_neg hc] at ho hl
      exact absurd (h.live c s hs ho hl).1 hc
  active c t hc := by
    rw [setState_activeSocket] at hc
    cases hc

theorem Tracked.move (h : Tracked x) (hm : Move x y) : Tracked y := by
  cases hm with
  | touched ht => exact h.touched ht
  | advanced next =>
      exact (h.congr rfl rfl : Tracked { x with currentState := next }).touched (touched_render _)
  | left next => exact h.setState next

theorem Tracked.moved (h : Tracked x) (hm : Moved x y) : Tracked y := by
  induction hm with
  | refl => exact h
  | tail _ hmove ih => exact ih.move hmove

/-- A socket more, and no live one is lost sight of. -/
theorem Tracked.openFlow {o : Opener} (h : Tracked x) (hactive : x.activeSocket = none) :
    Tracked (x.openFlow o) where
  live c s hs ho hl := by
    rcases Tally.getElem?_concat_eq_some hs with hs | ⟨rfl, rfl⟩
    · have hc := (h.live c s hs ho hl).1
      rw [hactive] at hc
      cases hc
    · exact ⟨rfl, rfl⟩
  active c s hc hs ho := by
    rcases Tally.getElem?_concat_eq_some hs with hs | ⟨-, rfl⟩
    · obtain rfl := Option.some.inj hc
      exact absurd (List.getElem?_eq_some_iff.mp hs).1 (Nat.lt_irrefl _)
    · rfl

theorem Tracked.attempted {abandoned : Bool} (h : Tracked x) (ha : Attempted abandoned x y) :
    Tracked y := by
  obtain ⟨o, ho, hsockets⟩ := ha.sockets
  refine ⟨fun c s hs hflow hl => ?_, fun c s hc hs hflow => ?_⟩
  · rw [hsockets] at hs
    rw [ha.activeSocket]
    rcases Tally.getElem?_concat_eq_some hs with hs | ⟨-, rfl⟩
    · exact h.live c s hs hflow hl
    · rw [Socket.connect_opener, ho] at hflow
      cases hflow
  · rw [ha.activeSocket] at hc
    rw [hsockets] at hs
    rcases Tally.getElem?_concat_eq_some hs with hs | ⟨-, rfl⟩
    · exact h.active c s hc hs hflow
    · rw [Socket.connect_opener, ho] at hflow
      cases hflow

end

section
variable {b : Browser} {x y : Page b.lib}

/-- Without an active socket no flow has a live one. -/
theorem Tracked.not_live (h : Tracked x) (hactive : x.activeSocket = none) {c : ConnId} {s : Socket}
    (hs : x.sockets[c]? = some s) (ho : s.opener.isFlow = true) : s.live = false := by
  by_contra hl
  have hc := (h.live c s hs ho (by simpa using hl)).1
  rw [hactive] at hc
  cases hc

/-- The active socket is closed before it is forgotten. -/
theorem Tracked.lost {c : ConnId} (h : Tracked x) (hactive : x.activeSocket = some c) :
    Tracked { x.modifySocket c Socket.onClose with activeSocket := none } where
  live c' t ht ho hl := by
    obtain ⟨s, hs, rfl⟩ := Tally.getElem?_modify_eq_some ht
    split at hl
    next => cases hl
    next hne =>
      rw [if_neg hne] at ho
      have hc := (h.live c' s hs ho hl).1
      exact absurd (Option.some.inj (hactive.symm.trans hc)) hne
  active c' t hc := nomatch hc

theorem tracked_step {e : Event} (h : Tracked x) (hheeds : x.Heeds e) (hstep : step b x e = some y) :
    Tracked y := by
  cases step_spec hstep with
  | moved hm => exact h.moved hm
  | started he ho hz hm hy =>
      have hover : e.takesOver = true := by
        unfold Event.takesOver
        split
        · rfl
        · exact he
      exact ((h.moved hm).openFlow (hz.trans (hheeds.1 hover))).moved hy
  | paired he ht hactive hretries hsockets => exact (h.touched ht).congr hactive hsockets
  | @resumed c draw busy s z _ hs ho ht hscreen hactive hretries hsockets =>
      have hz := h.touched ht
      have hnone : z.activeSocket = none := ht.activeSocket.trans (hheeds.1 rfl)
      refine ⟨fun c' t ht' hflow hl => ?_, fun c' t hc' ht' hflow => ?_⟩
      · rw [hsockets] at ht'
        exact absurd hl (Bool.eq_false_iff.mp (hz.not_live hnone ht' hflow))
      · rw [hactive] at hc'
        rw [hsockets, ← Option.some.inj hc'] at ht'
        obtain ⟨s', hs', hsame⟩ := ht.sockets ht'
        obtain rfl := Option.some.inj (hs.symm.trans hs')
        rw [hsame.opener, ho] at hflow
        cases hflow
  | lost hs hopen hscreen hactive hy =>
      rcases hy with hm | ha
      · exact (h.lost hactive).moved hm
      · exact (h.lost hactive).attempted ha
  | waits hs hopen ho hscreen ht hretries => exact (h.touched ht).congr rfl rfl
  | @retried i r _ hr hy =>
      have hw : Tracked { x with retries := x.retries.eraseIdx i } := h.congr rfl rfl
      rcases hy with hm | ha
      · exact hw.moved hm
      · exact hw.attempted ha

theorem tracked_init (start : CurrentState) : Tracked (init start : Page b.lib) where
  live c s hs := by
    rw [init, List.getElem?_nil] at hs
    cases hs
  active c s hc := nomatch hc

/-! ## What a late event does -/

theorem LeftFlow.abandoned {c : ConnId} {s : Socket} (h : x.LeftFlow c)
    (hs : x.sockets[c]? = some s) : s.opener.isFlow = true ∧ s.abandoned = true := by
  obtain ⟨s', hs', hflow, habandoned⟩ := h
  obtain rfl := Option.some.inj (hs.symm.trans hs')
  exact ⟨hflow, habandoned⟩

theorem Inert.refl (x : Page b.lib) : Inert x x := ⟨rfl, rfl, fun _ _ h _ => h⟩

theorem Inert.trans {z : Page b.lib} (h : Inert x y) (h' : Inert y z) : Inert x z :=
  ⟨h'.currentState.trans h.currentState, h'.activeSocket.trans h.activeSocket,
    fun c s hs ha => h'.newer c s (h.newer c s hs ha) ha⟩

theorem inert_modifySocket {c : ConnId} (f : Socket → Socket)
    (hc : ∀ s, x.sockets[c]? = some s → s.abandoned = true) : Inert x (x.modifySocket c f) := by
  refine ⟨rfl, rfl, fun c' s hs ha => ?_⟩
  by_cases hcc : c = c'
  · subst hcc
    rw [hc s hs] at ha
    cases ha
  · exact (Tally.getElem?_modify_ne hcc f).trans hs

theorem inert_foldl_sendEnvelope {α : Type} {c : ConnId} (f : α → Sent) (l : List α)
    (hc : ∀ s, x.sockets[c]? = some s → s.abandoned = true) :
    Inert x (l.foldl (fun x m => x.sendEnvelope c (f m)) x) := by
  induction l generalizing x with
  | nil => exact .refl x
  | cons a l ih =>
      refine (inert_modifySocket (Socket.send (f a)) hc).trans (ih fun t ht => ?_)
      obtain ⟨s, hs, hsame⟩ := (touched_sendEnvelope x c (f a)).sockets ht
      exact hsame.abandoned.trans (hc s hs)

theorem inert_resumeExchange {i : Nat} {e : Exchange b.lib} {err : Option String}
    (hc : ∀ s, x.sockets[e.socket]? = some s → s.abandoned = true) (hsettles : e.settles b err = false)
    (h : x.resumeExchange b i e err = some y) : Inert x y := by
  unfold Exchange.settles at hsettles
  unfold resumeExchange at h
  split at h
  next => cases h
  next res hres =>
    rw [hres, Option.map_some] at hsettles
    split at h
    next pc out hsettle =>
      rw [hsettle] at hsettles
      dsimp only at h
      split at h
      next => cases hsettles
      next => cases hsettles
      next =>
        obtain rfl := Option.some.inj h
        have hset : Inert x (x.setExchange b i pc) := ⟨rfl, rfl, fun _ _ h _ => h⟩
        exact hset.trans (inert_foldl_sendEnvelope Sent.pake out hc)
    next hsettle =>
      rw [hsettle] at hsettles
      cases hsettles

/-- On the screens that pay no heed to it, the close event of a socket that is
not the active one is all that happens. -/
theorem closes_unheeded {c : ConnId} {s : Socket} (hflow : s.opener.isFlow = true)
    (hactive : x.activeSocket ≠ some c)
    (hscreen : x.currentState.screen = .paired ∨ x.currentState.screen = .error) :
    onPairedClose c s.wired ((x.modifySocket c Socket.onClose).onOpenerClose c s) =
      x.modifySocket c Socket.onClose := by
  have hopener : (x.modifySocket c Socket.onClose).onOpenerClose c s =
      x.modifySocket c Socket.onClose := by
    unfold onOpenerClose
    cases ho : s.opener with
    | receiver | receiverCode | joinByCode | join =>
        refine if_neg fun h => ?_
        exact hscreen.elim h.1 h.2
    | reconnect =>
        rw [ho] at hflow
        cases hflow
  rw [hopener, onPairedClose_of_ne]
  exact hactive

/-- In a run in which no live socket is replaced, no event of a flow that was
left changes anything, unless an exchange settles or a socket closes unheeded. -/
theorem left_flows_inert (isSecureContext : Bool) (detected : Option PairingLink)
    (es : List Event)
    (hg : Transition.Guarded (step b) Heeds (initPairing isSecureContext detected) es)
    (hrun : Transition.run (step b) (initPairing isSecureContext detected) es = some x) {e : Event}
    (hheeds : x.Heeds e) (hstep : step b x e = some y) {c : ConnId} (hc : x.socketOf e = some c)
    (hleft : x.LeftFlow c) : Inert x y := by
  have hx : Tracked x := hg.invariant (fun _ _ _ => tracked_step) (tracked_init _) hrun
  have habandoned (s) (hs : x.sockets[c]? = some s) : s.abandoned = true :=
    (hleft.abandoned hs).2
  cases e with
  | message c' m draw busy =>
      obtain rfl := Option.some.inj hc
      unfold step at hstep
      dsimp only at hstep
      split at hstep
      next s hs =>
        split at hstep
        next hopened =>
          -- Such a socket is closed, and hears nothing.
          have hlive : s.live = true := by simp [Socket.live, hopened.1]
          have hnew := (hx.live c' s hs (hleft.abandoned hs).1 hlive).2
          rw [habandoned s hs] at hnew
          cases hnew
        next => cases hstep
      next => cases hstep
  | closes c' =>
      obtain rfl := Option.some.inj hc
      unfold step at hstep
      dsimp only at hstep
      split at hstep
      next s hs =>
        split at hstep
        next => cases hstep
        next =>
          -- the active socket is never one that was left
          have hactive : x.activeSocket ≠ some c' := by
            intro ha
            have hnew := hx.active c' s ha hs (hleft.abandoned hs).1
            rw [habandoned s hs] at hnew
            cases hnew
          rw [closes_unheeded (hleft.abandoned hs).1 hactive (hheeds.2.1 c' rfl hleft)] at hstep
          obtain rfl := Option.some.inj hstep
          exact inert_modifySocket Socket.onClose habandoned
      next => cases hstep
  | pakeResumes i err =>
      unfold step at hstep
      dsimp only at hstep
      split at hstep
      next e he =>
        simp only [socketOf, he, Option.map_some, Option.some.injEq] at hc
        subst hc
        refine inert_resumeExchange habandoned (Bool.eq_false_iff.mpr fun hs => ?_) hstep
        -- an exchange that goes on without settling touches nothing but its socket
        exact hheeds.2.2 e.socket (by simp [settled, he, hs]) hleft
      next => cases hstep
  | click | cameraDenied | cameraReady | scanned | opens | relayReads | relayDrops | tokenDerived
  | retry | swapTimer => cases hc

end

/-- The run in which the user wants to receive and the relay has no session to
give. -/
def refused : List Event :=
  [.click .startReceive, .opens 0, .message 0 (.error "too_many_sessions") [] false]

/-- The error screen is up when the refused socket closes. -/
theorem left_flows_inert_refused : ∃ x y : Page labelBrowser.lib,
    Transition.run (step labelBrowser) (initPairing true none) refused = some x ∧
      x.LeftFlow 0 ∧ step labelBrowser x (.closes 0) = some y ∧ Inert x y := by
  have hg : Transition.Guarded (step labelBrowser) Heeds (initPairing true none) refused := by
    decide +kernel
  have hrun : (Transition.run (step labelBrowser) (initPairing true none) refused).any (fun x =>
      decide (x.LeftFlow 0) && decide (x.Heeds (.closes 0)) &&
        (step labelBrowser x (.closes 0)).isSome) = true := by
    decide +kernel
  obtain ⟨x, hx, hrest⟩ := (Option.any_eq_true _ _).mp hrun
  simp only [Bool.and_eq_true, decide_eq_true_eq] at hrest
  obtain ⟨⟨hleft, hheeds⟩, hsome⟩ := hrest
  obtain ⟨y, hy⟩ := Option.isSome_iff_exists.mp hsome
  exact ⟨x, y, hx, hleft, hy, left_flows_inert true none refused hg hx hheeds hy rfl hleft⟩

/-- A host that shows its link goes back. -/
def wentBack : List Event :=
  [.click .startReceive, .opens 0, .message 0 (.sessionCreated "s") [1] false, .click .back]

/-- The close event of its socket puts an error in the place of the start screen. -/
theorem back_undone : ∃ x y : Page labelBrowser.lib,
    Transition.run (step labelBrowser) (initPairing true none) wentBack = some x ∧
      x.LeftFlow 0 ∧ step labelBrowser x (.closes 0) = some y ∧
      x.currentState = { screen := .roleSelect } ∧
      y.currentState = { screen := .error, code := some "connection_lost" } := by
  have hrun : (Transition.run (step labelBrowser) (initPairing true none) wentBack).any (fun x =>
      decide (x.LeftFlow 0) && decide (x.currentState = { screen := .roleSelect }) &&
        (step labelBrowser x (.closes 0)).any (fun y =>
          decide (y.currentState = { screen := .error, code := some "connection_lost" }))) =
      true := by
    decide +kernel
  obtain ⟨x, hx, hrest⟩ := (Option.any_eq_true _ _).mp hrun
  simp only [Bool.and_eq_true, decide_eq_true_eq] at hrest
  obtain ⟨⟨hleft, hstart⟩, hany⟩ := hrest
  obtain ⟨y, hy, herror⟩ := (Option.any_eq_true _ _).mp hany
  exact ⟨x, y, hx, hleft, hy, hstart, decide_eq_true_eq.mp herror⟩

end Page

end Quicksend
