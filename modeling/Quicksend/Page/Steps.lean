import Quicksend.Page
import Quicksend.Pake.NoneLost
import Quicksend.Lib.Transition
import Quicksend.Lib.Tally
import Mathlib.Logic.Relation

/-!
# What each function of the page does

To the screen, the active socket, the sockets and the timers, which is all that
the invariants are about.
-/

namespace Quicksend

namespace Socket

@[simp] theorem connect_abandoned (o : Opener) (a : Bool) : (connect o a).abandoned = a := rfl

@[simp] theorem connect_opener (o : Opener) (a : Bool) : (connect o a).opener = o := rfl

@[simp] theorem abandon_abandoned (s : Socket) : s.abandon.abandoned = true := rfl

@[simp] theorem abandon_live (s : Socket) : s.abandon.live = s.live := rfl

/-- A socket that is only talked to: nothing is opened and nothing forgotten. -/
structure Same (s t : Socket) : Prop where
  opener : t.opener = s.opener
  abandoned : t.abandoned = s.abandoned
  live : t.live = true → s.live = true
  closed : s.readyState = .closed → t.readyState = .closed

theorem Same.refl (s : Socket) : Same s s := ⟨rfl, rfl, id, id⟩

theorem Same.trans {s t u : Socket} (h : Same s t) (h' : Same t u) : Same s u :=
  ⟨h'.opener.trans h.opener, h'.abandoned.trans h.abandoned, h.live ∘ h'.live,
    h'.closed ∘ h.closed⟩

theorem same_send (m : Sent) (s : Socket) : Same s (send m s) := by
  unfold send
  split
  · exact ⟨rfl, rfl, id, id⟩
  · exact .refl s

theorem same_onClose (s : Socket) : Same s s.onClose :=
  ⟨rfl, rfl, fun h => by simp [onClose, live] at h, fun _ => rfl⟩

theorem same_answer (accepted : Bool) (s : Socket) : Same s (answer accepted s) :=
  ⟨rfl, rfl, id, id⟩

theorem same_drop (s : Socket) : Same s s.drop := ⟨rfl, rfl, id, id⟩

theorem same_hear (m : Received) (s : Socket) : Same s (hear m s) := by
  unfold hear
  split
  · exact ⟨rfl, rfl, id, id⟩
  · split
    · exact .refl s
    · exact ⟨rfl, rfl, id, id⟩
  · exact .refl s

theorem onOpen_opener (s : Socket) : s.onOpen.opener = s.opener := by
  unfold onOpen
  dsimp only
  split <;> exact (same_send _ _).opener

theorem onOpen_abandoned (s : Socket) : s.onOpen.abandoned = s.abandoned := by
  unfold onOpen
  dsimp only
  split <;> exact (same_send _ _).abandoned

theorem same_onOpen {s : Socket} (h : s.readyState = .connecting) : Same s s.onOpen := by
  have hlive : s.live = true := by simp [live, h]
  have hclosed : s.readyState ≠ .closed := by simp [h]
  exact ⟨s.onOpen_opener, s.onOpen_abandoned, fun _ => hlive, fun hc => absurd hc hclosed⟩

theorem not_live_close (s : Socket) : s.close.live = false := by
  unfold close
  split
  next => rfl
  next h => exact Bool.eq_false_iff.mpr h

end Socket

namespace Page

section
variable {lib : PakePackage} {x y z : Page lib}

/-! ## What most functions do -/

/-- Sockets are talked to; what else the invariants are about has not changed. -/
structure Touched (x y : Page lib) : Prop where
  screen : y.currentState.screen = x.currentState.screen
  activeSocket : y.activeSocket = x.activeSocket
  retries : y.retries = x.retries
  sockets : ∀ {c : ConnId} {t : Socket}, y.sockets[c]? = some t →
    ∃ s : Socket, x.sockets[c]? = some s ∧ s.Same t

theorem Touched.of_eq (hscreen : y.currentState.screen = x.currentState.screen)
    (hactive : y.activeSocket = x.activeSocket) (hretries : y.retries = x.retries)
    (hsockets : y.sockets = x.sockets) : Touched x y :=
  ⟨hscreen, hactive, hretries, fun ht => ⟨_, hsockets ▸ ht, .refl _⟩⟩

theorem Touched.refl (x : Page lib) : Touched x x := .of_eq rfl rfl rfl rfl

theorem Touched.trans (h : Touched x y) (h' : Touched y z) : Touched x z := by
  refine ⟨h'.screen.trans h.screen, h'.activeSocket.trans h.activeSocket,
    h'.retries.trans h.retries, fun ht => ?_⟩
  obtain ⟨s', hs', hsame'⟩ := h'.sockets ht
  obtain ⟨s, hs, hsame⟩ := h.sockets hs'
  exact ⟨s, hs, hsame.trans hsame'⟩

theorem touched_modifySocket {c : ConnId} {f : Socket → Socket}
    (hf : ∀ s, x.sockets[c]? = some s → s.Same (f s)) : Touched x (x.modifySocket c f) := by
  refine ⟨rfl, rfl, rfl, fun {c' t} ht => ?_⟩
  obtain ⟨s, hs, rfl⟩ := Tally.getElem?_modify_eq_some ht
  refine ⟨s, hs, ?_⟩
  split
  next hc => exact hf s (hc ▸ hs)
  next => exact .refl s

theorem touched_sendEnvelope (x : Page lib) (c : ConnId) (m : Sent) :
    Touched x (x.sendEnvelope c m) :=
  touched_modifySocket fun s _ => Socket.same_send m s

theorem touched_wirePairedSocket (x : Page lib) (c : ConnId) : Touched x (x.wirePairedSocket c) :=
  touched_modifySocket fun _ _ => ⟨rfl, rfl, id, id⟩

theorem render_currentState (x : Page lib) : x.render.currentState = x.currentState := by
  unfold render
  split <;> rfl

theorem touched_render (x : Page lib) : Touched x x.render := by
  unfold render
  split <;> exact .of_eq rfl rfl rfl rfl

theorem render_sockets (x : Page lib) : x.render.sockets = x.sockets := by
  unfold render
  split <;> rfl

theorem touched_onScanning (x : Page lib) (i : Nat) (cancelled : Bool) :
    Touched x (x.onScanning i cancelled) := by
  unfold onScanning
  split <;> exact .of_eq rfl rfl rfl rfl

theorem Touched.render (h : Touched x y) : Touched x y.render := h.trans (touched_render y)

theorem touched_flipTransferRole (x : Page lib) : Touched x x.flipTransferRole := by
  unfold flipTransferRole
  exact .render (.of_eq rfl rfl rfl rfl)

theorem touched_requestRoleSwap (x : Page lib) (busy : Bool) :
    Touched x (x.requestRoleSwap busy) := by
  unfold requestRoleSwap
  split
  · exact .refl x
  · split
    · exact .of_eq rfl rfl rfl rfl
    · exact (touched_sendEnvelope x _ _).trans (.of_eq rfl rfl rfl rfl)

/-! ## Leaving a screen -/

theorem cleanupActive_activeSocket (x : Page lib) : x.cleanupActive.activeSocket = none := by
  unfold cleanupActive
  cases x.activeStopScan <;> cases h : x.activeSocket <;> simp [stopScan, setScan, h]

theorem cleanupActive_sockets (x : Page lib) : x.cleanupActive.sockets =
    match x.activeSocket with
    | some c => x.sockets.modify c Socket.close
    | none => x.sockets := by
  unfold cleanupActive
  cases x.activeStopScan <;> cases h : x.activeSocket <;>
    simp [stopScan, setScan, modifySocket, h]

theorem setState_currentState (x : Page lib) (next : CurrentState) :
    (x.setState next).currentState = next := render_currentState _

theorem setState_activeSocket (x : Page lib) (next : CurrentState) :
    (x.setState next).activeSocket = none :=
  (touched_render _).activeSocket.trans x.cleanupActive_activeSocket

/-- Every socket is still there, abandoned now; the active one is closed. -/
theorem setState_socket {next : CurrentState} {c : ConnId} {t : Socket}
    (h : (x.setState next).sockets[c]? = some t) : ∃ s, x.sockets[c]? = some s ∧
      t = (if x.activeSocket = some c then s.close else s).abandon := by
  rw [setState, render_sockets, abandon, cleanupActive_sockets, List.getElem?_map] at h
  obtain ⟨s, hs, rfl⟩ := Option.map_eq_some_iff.mp h
  cases hactive : x.activeSocket with
  | none =>
      rw [hactive] at hs
      exact ⟨s, hs, by simp⟩
  | some c' =>
      rw [hactive] at hs
      obtain ⟨s', hs', rfl⟩ := Tally.getElem?_modify_eq_some hs
      refine ⟨s', hs', ?_⟩
      by_cases hc : c' = c <;> simp [hc]

/-- What a function does that starts no flow, no attempt and no session: it
talks to sockets, shows another screen or leaves this one. -/
inductive Move : Page lib → Page lib → Prop where
  | touched {x y : Page lib} (h : Touched x y) : Move x y
  | advanced (x : Page lib) (next : CurrentState) (h : next.screen ≠ .paired) :
      Move x (x.advance next)
  | left (x : Page lib) (next : CurrentState) (h : next.screen ≠ .paired) :
      Move x (x.setState next)

/-- The page gets from `x` to `y` by any number of the small moves that its
listeners are made of. -/
abbrev Moved (x y : Page lib) : Prop := Relation.ReflTransGen Move x y

theorem Touched.moved (h : Touched x y) : Moved x y := .single (.touched h)

theorem moved_showError (x : Page lib) (code : Option String) : Moved x (x.showError code) :=
  .single (.left x _ nofun)

theorem moved_disconnectSession (x : Page lib) : Moved x x.disconnectSession := by
  unfold disconnectSession
  split
  · exact (touched_sendEnvelope x _ _).moved.tail (.left _ _ nofun)
  · exact .single (.left _ _ nofun)

theorem moved_onPairedMessage (c : ConnId) (m : Received) (n : Nat) (busy : Bool) (x : Page lib) :
    Moved x (onPairedMessage c m n busy x) := by
  induction n generalizing busy x with
  | zero => exact .refl
  | succ n ih =>
      unfold onPairedMessage
      split
      next => exact (moved_showError x _).trans (ih _ _)
      next =>
        refine .trans ?_ (ih _ _)
        exact Touched.moved (.render (.of_eq rfl rfl rfl rfl))
      next =>
        have hsent := touched_sendEnvelope x c (.roleSwapResponse !(busy || x.swapAwaitingResponse))
        dsimp only
        split
        · exact hsent.moved.trans (ih _ _)
        · exact (hsent.trans (touched_flipTransferRole _)).moved.trans (ih _ _)
      next =>
        split
        · exact ih _ _
        · have hanswered : Touched x { x with swapAwaitingResponse := false } :=
            .of_eq rfl rfl rfl rfl
          split
          · exact (hanswered.trans (touched_flipTransferRole _)).moved.trans (ih _ _)
          · exact hanswered.moved.trans (ih _ _)
      all_goals exact .refl

/-! ## What the others do -/

theorem openFlow_sockets (x : Page lib) (o : Opener) :
    (x.openFlow o).sockets = x.sockets ++ [Socket.connect o false] := rfl

/-- An attempt is made on the paired screen, with another socket. -/
structure Attempted (abandoned : Bool) (x y : Page lib) : Prop where
  screen : x.currentState.screen = .paired
  activeSocket : y.activeSocket = x.activeSocket
  retries : y.retries = x.retries
  sockets : ∃ o : Opener, o.isFlow = false ∧ y.sockets = x.sockets ++ [Socket.connect o abandoned]

theorem attemptReconnect_spec (x : Page lib) (attempt : Nat) (abandoned : Bool) :
    Moved x (x.attemptReconnect attempt abandoned) ∨
      Attempted abandoned x (x.attemptReconnect attempt abandoned) := by
  unfold attemptReconnect
  split
  next => exact .inl .refl
  next hscreen =>
    split
    next => exact .inl (moved_showError x _)
    next => exact .inr ⟨Decidable.not_not.mp hscreen, rfl, rfl, _, rfl, rfl⟩

theorem onPairedClose_of_ne {c : ConnId} (n : Nat) (h : x.activeSocket ≠ some c) :
    onPairedClose c n x = x := by
  induction n with
  | zero => rfl
  | succ n ih =>
      unfold onPairedClose
      rw [if_pos (.inr h), ih]

theorem attemptReconnect_activeSocket {attempt : Nat} {abandoned : Bool}
    (h : x.activeSocket = none) : (x.attemptReconnect attempt abandoned).activeSocket = none := by
  unfold attemptReconnect
  split
  · exact h
  · split
    · exact x.setState_activeSocket _
    · exact h

/-- The first of the listeners begins the attempt, the others see that it has. -/
theorem onPairedClose_spec (c : ConnId) (n : Nat) (x : Page lib) : onPairedClose c n x = x ∨
    x.currentState.screen = .paired ∧ x.activeSocket = some c ∧
      onPairedClose c n x = { x with activeSocket := none }.attemptReconnect 1 false := by
  induction n with
  | zero => exact .inl rfl
  | succ n ih =>
      unfold onPairedClose
      split
      next => exact ih
      next h =>
        obtain ⟨hscreen, hactive⟩ := not_or.mp h
        refine .inr ⟨Decidable.not_not.mp hscreen, Decidable.not_not.mp hactive, ?_⟩
        refine onPairedClose_of_ne n ?_
        rw [attemptReconnect_activeSocket rfl]
        nofun

end

/-! ## What a step does -/

/-- The events that start a flow by opening a socket: the buttons, a link, a whole
code, or a scanned one. -/
def Event.starts : Event → Bool
  | .click .startReceive | .click .roleReceive | .click .joinDetected
  | .click (.enterLink (some _)) | .cameraReady _ (some (some _)) | .scanned _ (some _) => true
  | .click (.enterCode digits) => digits.length = 6
  | _ => false

variable {b : Browser} {x y : Page b.lib}

/-- The events that pair the page: `paired` where the key is known, and the end
of an exchange that agreed on one. -/
def pairs (x : Page b.lib) : Event → Bool
  | .message c (.paired _) _ _ => (x.sockets[c]?).any fun s => match s.opener with
      | .receiver | .join _ => true
      | .receiverCode | .joinByCode _ | .reconnect .. => false
  | .pakeResumes i none => (x.exchanges[i]?).any fun e => match e.pc with
      | .freeing _ ok => ok
      | _ => false
  | _ => false

/-- All that an event can do to the page, told by the moves it is made of, so that
no proof has to unfold a listener. -/
inductive Steps (x : Page b.lib) : Event → Page b.lib → Prop where
  | moved {e y} (h : Moved x y) : Steps x e y
  | started {e z o y} (he : e.starts = true) (ho : o.isFlow = true)
      (hz : z.activeSocket = x.activeSocket) (h : Moved x z) (hy : Moved (z.openFlow o) y) :
      Steps x e y
  | paired {e z y} (he : x.pairs e = true) (h : Touched x z) (hactive : y.activeSocket = z.activeSocket)
      (hretries : y.retries = z.retries) (hsockets : y.sockets = z.sockets) : Steps x e y
  | resumed {c draw busy s z y} (hs : x.sockets[c]? = some s) (ho : s.opener.isFlow = false)
      (h : Touched x z) (hscreen : y.currentState.screen = z.currentState.screen)
      (hactive : y.activeSocket = some c) (hretries : y.retries = z.retries)
      (hsockets : y.sockets = z.sockets) : Steps x (.message c .reconnected draw busy) y
  | lost {c s y} (hs : x.sockets[c]? = some s) (hopen : s.readyState ≠ .closed)
      (hscreen : x.currentState.screen = .paired) (hactive : x.activeSocket = some c)
      (h : let z := { x.modifySocket c Socket.onClose with activeSocket := none }
        Moved z y ∨ Attempted false z y) : Steps x (.closes c) y
  | waits {c s attempt y} (hs : x.sockets[c]? = some s) (hopen : s.readyState ≠ .closed)
      (ho : s.opener.isFlow = false) (hscreen : x.currentState.screen = .paired)
      (h : Touched x { y with retries := x.retries })
      (hretries : y.retries = x.retries ++ [⟨attempt, s.abandoned⟩]) : Steps x (.closes c) y
  | retried {i r y} (hr : x.retries[i]? = some r)
      (h : let z := { x with retries := x.retries.eraseIdx i }
        Moved z y ∨ Attempted r.abandoned z y) : Steps x (.retry i) y

theorem moved_advance (x : Page b.lib) {next : CurrentState} (h : next.screen ≠ .paired) :
    Moved x (x.advance next) := .single (.advanced x next h)

theorem moved_setState (x : Page b.lib) {next : CurrentState} (h : next.screen ≠ .paired) :
    Moved x (x.setState next) := .single (.left x next h)

theorem advance_activeSocket (x : Page b.lib) (next : CurrentState) :
    (x.advance next).activeSocket = x.activeSocket :=
  (touched_render { x with currentState := next }).activeSocket

/-- A flow starts on a screen of its own. -/
theorem started_of_advance {e : Event} {next : CurrentState} {o : Opener} (he : e.starts = true)
    (hnext : next.screen ≠ .paired) (ho : o.isFlow = true) :
    Steps x e ((x.advance next).openFlow o) :=
  .started he ho (advance_activeSocket x next) (moved_advance x hnext) .refl

theorem started_startJoin {e : Event} {z : Page b.lib} (he : e.starts = true) (h : Touched x z)
    (link : PairingLink) (hy : Moved (z.startJoin link) y) : Steps x e y := by
  have hw : Touched x { z with activeStopScan := none } := h.trans (.of_eq rfl rfl rfl rfl)
  refine .started he rfl ((advance_activeSocket _ _).trans hw.activeSocket)
    (hw.moved.trans (moved_advance _ ?_)) hy
  nofun

theorem steps_click {button : Button} (h : x.click button = some y) :
    Steps x (.click button) y := by
  have hscan : Touched x x.cancelScan := .of_eq rfl rfl rfl rfl
  unfold click at h
  split at h
  next => exact Option.some.inj h ▸ started_of_advance rfl nofun rfl
  next => exact Option.some.inj h ▸ .moved (moved_advance x nofun)
  next => exact Option.some.inj h ▸ .moved (moved_advance x nofun)
  next => exact Option.some.inj h ▸ started_of_advance rfl nofun rfl
  next => exact Option.some.inj h ▸ .moved (moved_advance x nofun)
  next => exact Option.some.inj h ▸ .moved (moved_setState x nofun)
  next =>
    split at h
    next =>
      obtain rfl := Option.some.inj h
      exact started_startJoin rfl (.refl x) _ .refl
    next => cases h
  next => exact Option.some.inj h ▸ .moved (moved_setState x nofun)
  next => exact Option.some.inj h ▸ .moved (moved_setState x nofun)
  next => exact Option.some.inj h ▸ .moved (moved_setState x nofun)
  next digits _ _ =>
    split at h
    · exact Option.some.inj h ▸ .moved (moved_showError x _)
    · next hdigits =>
      exact Option.some.inj h ▸ started_of_advance (decide_eq_true (Decidable.not_not.mp hdigits))
        nofun rfl
  next => exact Option.some.inj h ▸ .moved (moved_setState x nofun)
  next => exact Option.some.inj h ▸ .moved (hscan.moved.trans (moved_setState _ nofun))
  next => exact Option.some.inj h ▸ .moved (hscan.moved.trans (moved_setState _ nofun))
  next => exact Option.some.inj h ▸ .moved (moved_showError x _)
  next =>
    obtain rfl := Option.some.inj h
    exact started_startJoin rfl (.refl x) _ .refl
  next => exact Option.some.inj h ▸ .moved (moved_setState x nofun)
  next => exact Option.some.inj h ▸ .moved (touched_requestRoleSwap x _).moved
  next => exact Option.some.inj h ▸ .moved (moved_disconnectSession x)
  next => exact Option.some.inj h ▸ .moved (moved_setState x nofun)
  next => cases h

theorem steps_onDecode {e : Event} {z : Page b.lib}
    {decoded : Option PairingLink} (he : decoded.isSome = true → e.starts = true)
    (h : Touched x z) (hy : Touched (z.onDecode decoded) y) : Steps x e y := by
  cases decoded with
  | none => exact .moved ((h.moved.trans (moved_showError z _)).trans hy.moved)
  | some link => exact started_startJoin (he rfl) h link hy.moved

/-- Only the active socket of the paired screen is missed. -/
theorem steps_closes {c : ConnId} {s : Socket} (hs : x.sockets[c]? = some s)
    (hopen : s.readyState ≠ .closed) :
    Steps x (.closes c)
      (onPairedClose c s.wired ((x.modifySocket c Socket.onClose).onOpenerClose c s)) := by
  have hclosed : Touched x (x.modifySocket c Socket.onClose) :=
    touched_modifySocket fun s _ => Socket.same_onClose s
  -- Whatever the opener's listener does, the wired ones only see a socket that is active still.
  have hwired : ∀ z : Page b.lib, z = x.modifySocket c Socket.onClose →
      Steps x (.closes c) (onPairedClose c s.wired z) := by
    intro z hz
    rcases onPairedClose_spec c s.wired z with h | ⟨hscreen, hactive, h⟩
    · rw [h, hz]
      exact .moved hclosed.moved
    · rw [h, hz]
      rw [hz] at hscreen hactive
      exact .lost hs hopen hscreen hactive (attemptReconnect_spec _ 1 false)
  have hleft : ∀ code : Option String, Steps x (.closes c)
      (onPairedClose c s.wired ((x.modifySocket c Socket.onClose).showError code)) := by
    intro code
    rw [onPairedClose_of_ne]
    · exact .moved (hclosed.moved.trans (moved_showError _ code))
    · rw [showError, setState_activeSocket]
      nofun
  unfold onOpenerClose
  cases ho : s.opener with
  | receiver | receiverCode | joinByCode | join =>
      dsimp only
      split
      · exact hleft _
      · exact hwired _ rfl
  | reconnect attempt =>
      dsimp only
      split
      next => exact hwired _ rfl
      next h =>
        obtain ⟨hscreen, hactive⟩ := not_or.mp h
        split
        next => exact hleft _
        next =>
          rw [onPairedClose_of_ne]
          · exact .waits hs hopen (by rw [ho]; rfl) (Decidable.not_not.mp hscreen)
              (hclosed.trans (.of_eq rfl rfl rfl rfl)) rfl
          · exact hactive

theorem onPairedMessage_paired (c : ConnId) (sessionId : Option String) (n : Nat) (busy : Bool)
    (x : Page b.lib) : onPairedMessage c (.paired sessionId) n busy x = x := by
  cases n <;> rfl

theorem onPairedMessage_reconnected (c : ConnId) (n : Nat) (busy : Bool) (x : Page b.lib) :
    onPairedMessage c .reconnected n busy x = x := by
  cases n <;> rfl

theorem touched_finalizePaired (x : Page b.lib) (c : ConnId) (sessionId : Option String)
    (sessionKey : Option Bytes) (role : Role) :
    ∃ z : Page b.lib, Touched x z ∧
      (x.finalizePaired b c sessionId sessionKey role).activeSocket = z.activeSocket ∧
      (x.finalizePaired b c sessionId sessionKey role).retries = z.retries ∧
      (x.finalizePaired b c sessionId sessionKey role).sockets = z.sockets :=
  ⟨x.wirePairedSocket c, touched_wirePairedSocket x c, (touched_render _).activeSocket,
    (touched_render _).retries, render_sockets _⟩

theorem steps_finalizePaired {e : Event} {z : Page b.lib} (he : x.pairs e = true)
    (h : Touched x z) (c : ConnId) (sessionId : Option String) (sessionKey : Option Bytes)
    (role : Role) : Steps x e (z.finalizePaired b c sessionId sessionKey role) := by
  obtain ⟨w, hw, hactive, hretries, hsockets⟩ :=
    touched_finalizePaired z c sessionId sessionKey role
  exact .paired he (h.trans hw) hactive hretries hsockets

/-- A message other than the two that begin a session or resume it. -/
theorem moved_onOpenerMessage {m : Received} (hpaired : ∀ sessionId, m ≠ .paired sessionId)
    (hreconnected : m ≠ .reconnected) (x : Page b.lib) (c : ConnId) (o : Opener) (draw : Bytes) :
    Moved x (x.onOpenerMessage b c o m draw) := by
  unfold onOpenerMessage
  split
  next => exact moved_advance x nofun
  next => exact absurd rfl (hpaired _)
  next => exact moved_advance x nofun
  next => exact absurd rfl (hpaired _)
  next => exact absurd rfl (hpaired _)
  next => exact absurd rfl (hpaired _)
  next => exact absurd rfl hreconnected
  next => exact moved_showError x _
  next => exact moved_showError x _
  next => exact moved_showError x _
  next => exact moved_showError x _
  next => exact moved_showError x _
  next => exact .refl

theorem steps_onMessage {c : ConnId} {s : Socket} {m : Received} (hs : x.sockets[c]? = some s)
    (draw : Bytes) (busy : Bool) :
    Steps x (.message c m draw busy)
      ((x.modifySocket c (Socket.hear m)).onMessage b c s m draw busy) := by
  have hheard : Touched x (x.modifySocket c (Socket.hear m)) :=
    touched_modifySocket fun s _ => Socket.same_hear m s
  have hother (hpaired : ∀ sessionId, m ≠ .paired sessionId) (hreconnected : m ≠ .reconnected) :
      Moved x (onPairedMessage c m s.wired busy
        ((x.modifySocket c (Socket.hear m)).onOpenerMessage b c s.opener m draw)) :=
    hheard.moved.trans ((moved_onOpenerMessage hpaired hreconnected _ c s.opener draw).trans
      (moved_onPairedMessage c m s.wired busy _))
  unfold onMessage
  cases m with
  | paired sessionId =>
      dsimp only
      rw [onPairedMessage_paired]
      cases ho : s.opener with
      | receiver =>
          refine steps_finalizePaired ?_ hheard c _ _ _
          rw [pairs, hs, Option.any_some, ho]
      | join link =>
          refine steps_finalizePaired ?_ hheard c _ _ _
          rw [pairs, hs, Option.any_some, ho]
      | receiverCode | joinByCode =>
          refine .moved (hheard.moved.trans ((moved_advance _ ?_).trans
            (Touched.moved (.of_eq rfl rfl rfl rfl))))
          nofun
      | reconnect => exact .moved hheard.moved
  | reconnected =>
      dsimp only
      rw [onPairedMessage_reconnected]
      cases ho : s.opener with
      | receiver | receiverCode | joinByCode | join => exact .moved hheard.moved
      | reconnect =>
          exact .resumed hs (by rw [ho]; rfl) (hheard.trans (touched_wirePairedSocket _ c))
            (touched_render _).screen (touched_render _).activeSocket (touched_render _).retries
            (render_sockets _)
  | pake => exact .moved ((hother nofun nofun).trans (Touched.moved (.of_eq rfl rfl rfl rfl)))
  | sessionCreated | codeSessionCreated | error | peerDisconnected | peerReconnected
  | roleSwapRequest | roleSwapResponse | sessionEnded => exact .moved (hother nofun nofun)

theorem touched_foldl_sendEnvelope {α : Type} (c : ConnId) (f : α → Sent) (l : List α)
    (x : Page b.lib) : Touched x (l.foldl (fun x m => x.sendEnvelope c (f m)) x) := by
  induction l generalizing x with
  | nil => exact .refl x
  | cons a l ih => exact (touched_sendEnvelope x c (f a)).trans (ih _)

/-- Only an exchange that is freeing what it used ends with a key. -/
theorem resume_settled_ok {a : PakeArgs} {r : Role} {pc : Pake.Pc a.lib} {key : Bytes}
    {out : List PakeMessage} (h : Pake.resume a r pc = some (.ok (.settled (.ok key), out))) :
    pc = .freeing key true := by
  have hresumed := Pake.resume_resumed h
  generalize hpc : Pake.Pc.settled (.ok key) = pc' at hresumed
  cases hresumed with
  | free keyBytes ok =>
      cases ok with
      | true =>
          obtain rfl := Except.ok.inj (Pake.Pc.settled.inj hpc)
          rfl
      | false => cases hpc
  | init | update | key | tag | verify => cases hpc

theorem settle_ok {α : Type} {err : Option String} {res : Except String α} {r : α}
    (h : settle err res = .ok r) : err = none ∧ res = .ok r := by
  cases err with
  | none => exact ⟨rfl, h⟩
  | some => cases h

theorem steps_resumeExchange {i : Nat} {e : Exchange b.lib} {err : Option String}
    (he : x.exchanges[i]? = some e) (h : x.resumeExchange b i e err = some y) :
    Steps x (.pakeResumes i err) y := by
  have hset (pc) : Touched x (x.setExchange b i pc) := .of_eq rfl rfl rfl rfl
  unfold resumeExchange at h
  split at h
  next => cases h
  next res hres =>
    split at h
    next pc out hsettle =>
      have hout := (hset pc).trans (touched_foldl_sendEnvelope e.socket Sent.pake out _)
      dsimp only at h
      split at h
      next key =>
        obtain rfl := Option.some.inj h
        obtain ⟨rfl, rfl⟩ := settle_ok hsettle
        refine steps_finalizePaired ?_ hout e.socket _ _ _
        rw [pairs, he, Option.any_some, resume_settled_ok hres]
      next =>
        obtain rfl := Option.some.inj h
        exact .moved (hout.moved.trans (moved_showError _ _))
      next =>
        obtain rfl := Option.some.inj h
        exact .moved hout.moved
    next =>
      obtain rfl := Option.some.inj h
      exact .moved ((hset _).moved.trans (moved_showError _ _))

/-- What each event does. -/
theorem step_spec {e : Event} (h : step b x e = some y) : Steps x e y := by
  have hstopped (i : Nat) : Touched x (x.stopScan i) := .of_eq rfl rfl rfl rfl
  cases e with
  | click button => exact steps_click h
  | cameraDenied i =>
      unfold step at h
      dsimp only at h
      split at h
      next cancelled hscan =>
        obtain rfl := Option.some.inj h
        exact .moved (((hstopped i).moved.trans (moved_showError _ _)).trans
          (touched_onScanning _ i cancelled).moved)
      next => cases h
  | cameraReady i decoded =>
      unfold step at h
      dsimp only at h
      split at h
      next cancelled hscan =>
        split at h
        next =>
          obtain rfl := Option.some.inj h
          have hrunning : Touched x (x.setScan i .running) := .of_eq rfl rfl rfl rfl
          exact .moved (hrunning.trans (touched_onScanning _ i cancelled)).moved
        next decoded =>
          obtain rfl := Option.some.inj h
          -- the camera found a link before `startScanning` returned
          refine steps_onDecode (fun hd => ?_) (hstopped i) (touched_onScanning _ i cancelled)
          cases decoded with
          | none => cases hd
          | some => rfl
      next => cases h
  | scanned i decoded =>
      unfold step at h
      dsimp only at h
      split at h
      next hscan =>
        obtain rfl := Option.some.inj h
        refine steps_onDecode (fun hd => ?_) (hstopped i) (.refl _)
        cases decoded with
        | none => cases hd
        | some => rfl
      next => cases h
  | opens c =>
      unfold step at h
      dsimp only at h
      split at h
      next s hs =>
        split at h
        next hconnecting =>
          obtain rfl := Option.some.inj h
          refine .moved (touched_modifySocket fun s' hs' => ?_).moved
          obtain rfl := Option.some.inj (hs.symm.trans hs')
          exact Socket.same_onOpen hconnecting
        next => cases h
      next => cases h
  | message c m draw busy =>
      unfold step at h
      dsimp only at h
      split at h
      next s hs =>
        split at h
        · obtain rfl := Option.some.inj h
          exact steps_onMessage hs draw busy
        · cases h
      next => cases h
  | closes c =>
      unfold step at h
      dsimp only at h
      split at h
      next s hs =>
        split at h
        next => cases h
        next hopen =>
          obtain rfl := Option.some.inj h
          exact steps_closes hs hopen
      next => cases h
  | relayReads c accepted =>
      unfold step at h
      dsimp only at h
      split at h
      next s hs =>
        split at h
        · obtain rfl := Option.some.inj h
          exact .moved (touched_modifySocket fun s _ => Socket.same_answer accepted s).moved
        · cases h
      next => cases h
  | relayDrops c =>
      unfold step at h
      dsimp only at h
      split at h
      next =>
        obtain rfl := Option.some.inj h
        exact .moved (touched_modifySocket fun s _ => Socket.same_drop s).moved
      next => cases h
  | pakeResumes i err =>
      unfold step at h
      dsimp only at h
      split at h
      next e he => exact steps_resumeExchange he h
      next => cases h
  | tokenDerived i =>
      unfold step at h
      dsimp only at h
      split at h
      next c token hi =>
        obtain rfl := Option.some.inj h
        refine .moved (Touched.moved (.trans ?_ (touched_sendEnvelope _ c (.reconnectToken token))))
        exact .of_eq rfl rfl rfl rfl
      next => cases h
  | retry i =>
      unfold step at h
      dsimp only at h
      split at h
      next r hr =>
        obtain rfl := Option.some.inj h
        exact .retried hr (attemptReconnect_spec _ r.attempt r.abandoned)
      next => cases h
  | swapTimer =>
      unfold step at h
      dsimp only at h
      split at h
      next => cases h
      next =>
        obtain rfl := Option.some.inj h
        exact .moved (Touched.moved (.of_eq rfl rfl rfl rfl))

end Page

end Quicksend
