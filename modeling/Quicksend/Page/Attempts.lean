import Quicksend.Page.Flows

/-!
# An attempt to reconnect that was left

Neither the socket of an attempt nor its timer is known to `setState`. What is
left over does no harm as long as the relay does not answer it and the page is
not paired again before it is over.
-/

namespace Quicksend

namespace Page

section
variable {lib : PakePackage}

/-- An attempt that was under way when the page left the paired screen. -/
def LeftAttempt (x : Page lib) (c : ConnId) : Prop :=
  ∃ s ∈ x.sockets[c]?, s.opener.isFlow = false ∧ s.abandoned = true ∧ s.wired = 0

/-- Nothing of an attempt that was left is still to come. -/
structure Over (x : Page lib) : Prop where
  retries : ∀ r ∈ x.retries, r.abandoned = false
  sockets : ∀ s ∈ x.sockets, s.opener.isFlow = false → s.abandoned = true → s.readyState = .closed

instance (x : Page lib) (c : ConnId) : Decidable (x.LeftAttempt c) :=
  inferInstanceAs (Decidable (∃ s ∈ x.sockets[c]?, _))

instance (x : Page lib) : Decidable x.Over :=
  decidable_of_iff ((∀ r ∈ x.retries, r.abandoned = false) ∧
    ∀ s ∈ x.sockets, s.opener.isFlow = false → s.abandoned = true → s.readyState = .closed)
    ⟨fun h => ⟨h.1, h.2⟩, fun h => ⟨h.retries, h.sockets⟩⟩

/-- The relay has the socket in a slot. -/
def held (x : Page lib) (c : ConnId) : Bool := (x.sockets[c]?).any Socket.held

/-- While the page is paired, what was left before is over. -/
def Rested (x : Page lib) : Prop := x.currentState.screen = .paired → x.Over

end

/-- The attempt that the relay takes or answers. -/
def Event.answers : Event → Option ConnId
  | .relayReads c true | .message c .reconnected _ _ | .message c (.error _) _ _ => some c
  | _ => none

section
variable {b : Browser}

/-- The relay takes and answers no attempt that was left, and the page is paired
again only when those are over. -/
def Unanswered (x : Page b.lib) (e : Event) : Prop :=
  (∀ c ∈ e.answers, ¬ x.LeftAttempt c) ∧ (x.pairs e = true → x.Over)

instance (x : Page b.lib) (e : Event) : Decidable (x.Unanswered e) :=
  inferInstanceAs (Decidable (_ ∧ _))

/-- The events of the attempts that were left. -/
def OfLeftAttempt (x : Page b.lib) : Event → Prop
  | .retry i => ∃ r ∈ x.retries[i]?, r.abandoned = true
  | .opens c | .relayReads c _ | .message c _ _ _ | .closes c => x.LeftAttempt c
  | _ => False

end

/-! ## What is left over -/

section
variable {lib : PakePackage} {x y : Page lib}

theorem Over.touched (h : Over x) (ht : Touched x y) : Over y where
  retries := ht.retries ▸ h.retries
  sockets t hmem ho ha := by
    obtain ⟨c, hc⟩ := List.getElem?_of_mem hmem
    obtain ⟨s, hs, hsame⟩ := ht.sockets hc
    exact hsame.closed (h.sockets s (List.mem_of_getElem? hs) (hsame.opener ▸ ho)
      (hsame.abandoned ▸ ha))

theorem Over.congr (h : Over x) (hretries : y.retries = x.retries)
    (hsockets : y.sockets = x.sockets) : Over y :=
  ⟨hretries ▸ h.retries, hsockets ▸ h.sockets⟩

theorem Over.connect {o : Opener} {a : Bool} (h : Over x) (hretries : y.retries = x.retries)
    (hsockets : y.sockets = x.sockets ++ [Socket.connect o a])
    (hnew : o.isFlow = true ∨ a = false) : Over y where
  retries := hretries ▸ h.retries
  sockets s hs ho ha := by
    rw [hsockets] at hs
    rcases List.mem_append.mp hs with hs | hs
    · exact h.sockets s hs ho ha
    · obtain rfl := List.mem_singleton.mp hs
      rcases hnew with hnew | hnew
      · rw [Socket.connect_opener, hnew] at ho
        cases ho
      · rw [Socket.connect_abandoned, hnew] at ha
        cases ha

theorem Rested.touched (h : Rested x) (ht : Touched x y) : Rested y := fun hscreen =>
  (h (ht.screen ▸ hscreen)).touched ht

theorem Rested.moved (h : Rested x) (hm : Moved x y) : Rested y := by
  induction hm with
  | refl => exact h
  | tail _ hmove ih =>
      cases hmove with
      | touched ht => exact ih.touched ht
      | advanced next hnext =>
          refine fun hscreen => absurd ?_ hnext
          rwa [advance, render_currentState] at hscreen
      | left next hnext =>
          refine fun hscreen => absurd ?_ hnext
          rwa [setState_currentState] at hscreen

theorem Rested.attempted (h : Rested x) (ha : Attempted false x y) : Rested y := by
  obtain ⟨o, -, hsockets⟩ := ha.sockets
  exact fun _ => (h ha.screen).connect ha.retries hsockets (.inr rfl)

end

section
variable {b : Browser} {x y : Page b.lib}

theorem rested_step {e : Event} (h : Rested x) (hu : x.Unanswered e) (hstep : step b x e = some y) :
    Rested y := by
  cases step_spec hstep with
  | moved hm => exact h.moved hm
  | @started _ z o _ he ho hz hm hy =>
      have hopened : Rested (z.openFlow o) := fun hscreen =>
        (h.moved hm hscreen).connect rfl rfl (.inl ho)
      exact hopened.moved hy
  | paired he ht hactive hretries hsockets =>
      exact fun _ => ((hu.2 he).touched ht).congr hretries hsockets
  | resumed hs ho ht hscreen hactive hretries hsockets =>
      exact fun hpaired => (h.touched ht (hscreen ▸ hpaired)).congr hretries hsockets
  | @lost c s _ hs hopen hscreen hactive hy =>
      have hclosed : Touched x (x.modifySocket c Socket.onClose) :=
        touched_modifySocket fun s _ => Socket.same_onClose s
      have hz : Rested { x.modifySocket c Socket.onClose with activeSocket := none } :=
        fun hpaired => (h.touched hclosed hpaired).congr rfl rfl
      rcases hy with hm | ha
      · exact hz.moved hm
      · exact hz.attempted ha
  | @waits c s attempt _ hs hopen ho hscreen ht hretries =>
      have hover := h hscreen
      have hnew : s.abandoned = false := by
        by_contra ha
        exact hopen (hover.sockets s (List.mem_of_getElem? hs) ho (by simpa using ha))
      refine fun _ => ⟨fun r hr => ?_, (hover.touched ht).sockets⟩
      rw [hretries] at hr
      rcases List.mem_append.mp hr with hr | hr
      · exact hover.retries r hr
      · rw [List.mem_singleton.mp hr]
        exact hnew
  | @retried i r _ hr hy =>
      have hz : Rested { x with retries := x.retries.eraseIdx i } := fun hscreen =>
        ⟨fun r' hr' => (h hscreen).retries r' (List.mem_of_mem_eraseIdx hr'), (h hscreen).sockets⟩
      rcases hy with hm | ha
      · exact hz.moved hm
      · rw [(h ha.screen).retries r (List.mem_of_getElem? hr)] at ha
        exact hz.attempted ha

theorem rested_init (start : CurrentState) : Rested (init start : Page b.lib) :=
  fun _ => ⟨by simp [init], by simp [init]⟩

/-! ## What an event of it does -/

theorem held_modifySocket {c : ConnId} {f : Socket → Socket} {s : Socket}
    (hs : x.sockets[c]? = some s) (hf : (f s).held = true → s.held = true) (c' : ConnId)
    (h : (x.modifySocket c f).held c' = true) : x.held c' = true := by
  unfold held at h ⊢
  obtain ⟨t, ht, hheld⟩ := (Option.any_eq_true _ _).mp h
  obtain ⟨s', hs', rfl⟩ := Tally.getElem?_modify_eq_some ht
  refine (Option.any_eq_true _ _).mpr ⟨s', hs', ?_⟩
  split at hheld
  next heq =>
    subst heq
    obtain rfl := Option.some.inj (hs.symm.trans hs')
    exact hf hheld
  next => exact hheld

theorem LeftAttempt.found {c : ConnId} {s : Socket} (h : x.LeftAttempt c)
    (hs : x.sockets[c]? = some s) :
    s.opener.isFlow = false ∧ s.abandoned = true ∧ s.wired = 0 := by
  obtain ⟨s', hs', hrest⟩ := h
  obtain rfl := Option.some.inj (hs.symm.trans hs')
  exact hrest

theorem Rested.not_paired {c : ConnId} {s : Socket} (h : Rested x) (hs : x.sockets[c]? = some s)
    (ho : s.opener.isFlow = false) (ha : s.abandoned = true) (hopen : s.readyState ≠ .closed) :
    x.currentState.screen ≠ .paired := fun hscreen =>
  hopen ((h hscreen).sockets s (List.mem_of_getElem? hs) ho ha)

/-- A change of the attempt's own socket by which the relay takes no slot. -/
theorem inert_own {c : ConnId} {s : Socket} {f : Socket → Socket} (hleft : x.LeftAttempt c)
    (hs : x.sockets[c]? = some s) (hf : (f s).held = true → s.held = true) :
    Inert x (x.modifySocket c f) ∧
      ∀ c', (x.modifySocket c f).held c' = true → x.held c' = true :=
  ⟨inert_modifySocket f fun _ hs' => (hleft.found hs').2.1, held_modifySocket hs hf⟩

theorem onOpen_held {s : Socket} (h : s.opener.isFlow = false) : s.onOpen.held = false := by
  have ho := (Socket.same_send s.greeting { s with readyState := .opened }).opener
  unfold Socket.onOpen
  dsimp only
  rw [if_neg (by rw [ho]; simp [h])]
  rfl

/-- What an attempt's socket hears is not for the listeners that it has, unless
it is an answer. -/
theorem onMessage_unanswered {c : ConnId} {s : Socket} {m : Received}
    (ho : s.opener.isFlow = false) (hwired : s.wired = 0) (hreconnected : m ≠ .reconnected)
    (herror : ∀ code, m ≠ .error code) (draw : Bytes) (busy : Bool) :
    ∃ exchanges, (x.modifySocket c (Socket.hear m)).onMessage b c s m draw busy =
      { x.modifySocket c (Socket.hear m) with exchanges := exchanges } := by
  unfold onMessage
  rw [hwired]
  cases hopener : s.opener with
  | receiver | receiverCode | joinByCode | join =>
      rw [hopener] at ho
      cases ho
  | reconnect =>
      cases m with
      | reconnected => exact absurd rfl hreconnected
      | error code => exact absurd rfl (herror code)
      | pake => exact ⟨_, rfl⟩
      | sessionCreated | codeSessionCreated | paired | peerDisconnected | peerReconnected
      | roleSwapRequest | roleSwapResponse | sessionEnded => exact ⟨_, rfl⟩

/-- In a run in which attempts that were left get no answer and are over before
the page is paired again, no event of theirs changes anything or makes the relay
hold a slot. -/
theorem left_attempts_inert (isSecureContext : Bool) (detected : Option PairingLink)
    (es : List Event)
    (hg : Transition.Guarded (step b) Unanswered (initPairing isSecureContext detected) es)
    (hrun : Transition.run (step b) (initPairing isSecureContext detected) es = some x) {e : Event}
    (hu : x.Unanswered e) (hstep : step b x e = some y) (he : x.OfLeftAttempt e) :
    Inert x y ∧ ∀ c, y.held c = true → x.held c = true := by
  have hx : Rested x := hg.invariant (fun _ _ _ => rested_step) (rested_init _) hrun
  cases e with
  | retry i =>
      obtain ⟨r, hr, habandoned⟩ := he
      -- while the page is paired no retry is an abandoned one
      have hscreen : x.currentState.screen ≠ .paired := fun hpaired => by
        have hnew := (hx hpaired).retries r (List.mem_of_getElem? hr)
        rw [habandoned] at hnew
        cases hnew
      have hy : step b x (.retry i) = some { x with retries := x.retries.eraseIdx i } := by
        unfold step
        dsimp only
        rw [hr]
        dsimp only
        rw [attemptReconnect, if_pos hscreen]
      obtain rfl := Option.some.inj (hstep.symm.trans hy)
      exact ⟨⟨rfl, rfl, fun _ _ h _ => h⟩, fun _ => id⟩
  | opens c =>
      unfold step at hstep
      dsimp only at hstep
      split at hstep
      next s hs =>
        split at hstep
        next =>
          obtain rfl := Option.some.inj hstep
          -- opening sends the `reconnect`, which the relay has yet to read
          refine inert_own he hs fun hheld => ?_
          rw [onOpen_held (he.found hs).1] at hheld
          cases hheld
        next => cases hstep
      next => cases hstep
  | relayReads c accepted =>
      unfold step at hstep
      dsimp only at hstep
      split at hstep
      next s hs =>
        split at hstep
        next =>
          obtain rfl := Option.some.inj hstep
          cases accepted with
          -- the answers that would bring it back are the ones excluded
          | true => exact absurd he (hu.1 c rfl)
          | false => exact inert_own he hs fun hheld => by cases hheld
        next => cases hstep
      next => cases hstep
  | message c m draw busy =>
      unfold step at hstep
      dsimp only at hstep
      split at hstep
      next s hs =>
        split at hstep
        next =>
          obtain ⟨ho, habandoned, hwired⟩ := he.found hs
          have hreconnected : m ≠ .reconnected := by
            rintro rfl
            exact hu.1 c rfl he
          have herror : ∀ code, m ≠ .error code := by
            rintro code rfl
            exact hu.1 c rfl he
          obtain ⟨exchanges, hm⟩ :=
            onMessage_unanswered ho hwired hreconnected herror draw busy (b := b) (x := x) (c := c)
          rw [hm] at hstep
          obtain rfl := Option.some.inj hstep
          have hsame : Socket.hear m s = s := by
            cases m <;> first | rfl | exact absurd rfl hreconnected | exact absurd rfl (herror _)
          obtain ⟨hinert, hheld⟩ := inert_own he hs (f := Socket.hear m) (by rw [hsame]; exact id)
          exact ⟨⟨hinert.currentState, hinert.activeSocket, hinert.newer⟩, hheld⟩
        next => cases hstep
      next => cases hstep
  | closes c =>
      unfold step at hstep
      dsimp only at hstep
      split at hstep
      next s hs =>
        split at hstep
        next => cases hstep
        next hopen =>
          obtain ⟨ho, habandoned, hwired⟩ := he.found hs
          -- an abandoned attempt that is not closed yet: the page is on another screen
          have hscreen := hx.not_paired hs ho habandoned hopen
          have hy : onPairedClose c s.wired ((x.modifySocket c Socket.onClose).onOpenerClose c s) =
              x.modifySocket c Socket.onClose := by
            rw [hwired, onPairedClose, onOpenerClose]
            cases hopener : s.opener with
            | receiver | receiverCode | joinByCode | join =>
                rw [hopener] at ho
                cases ho
            | reconnect => exact if_pos (.inl hscreen)
          rw [hy] at hstep
          obtain rfl := Option.some.inj hstep
          exact inert_own he hs id
      next => cases hstep
  | click | cameraDenied | cameraReady | scanned | relayDrops | pakeResumes | tokenDerived
  | swapTimer => exact he.elim

end

/-- A guest that came by a link loses its connection, presses Disconnect while
the attempt's socket still connects. -/
def leftConnecting : List Event :=
  [.click .joinDetected, .opens 0, .message 0 (.paired none) [] false, .tokenDerived 0, .closes 0,
    .click .disconnect]

/-- A pairing link to trace runs with: a session named s, and a key of 32 equal
bytes. -/
def labelLink : PairingLink := ⟨"s", List.replicate 32 7⟩

/-- The connection fails. -/
theorem left_attempts_inert_failed : ∃ x y : Page labelBrowser.lib,
    Transition.run (step labelBrowser) (initPairing true (some labelLink)) leftConnecting = some x ∧
      x.LeftAttempt 1 ∧ step labelBrowser x (.closes 1) = some y ∧ Inert x y := by
  have hg : Transition.Guarded (step labelBrowser) Unanswered (initPairing true (some labelLink))
      leftConnecting := by
    decide +kernel
  have hrun : (Transition.run (step labelBrowser) (initPairing true (some labelLink))
      leftConnecting).any (fun x => decide (x.LeftAttempt 1) && decide (x.Unanswered (.closes 1)) &&
        (step labelBrowser x (.closes 1)).isSome) = true := by
    decide +kernel
  obtain ⟨x, hx, hrest⟩ := (Option.any_eq_true _ _).mp hrun
  simp only [Bool.and_eq_true, decide_eq_true_eq] at hrest
  obtain ⟨⟨hleft, hu⟩, hsome⟩ := hrest
  obtain ⟨y, hy⟩ := Option.isSome_iff_exists.mp hsome
  exact ⟨x, y, hx, hleft, hy,
    (left_attempts_inert true (some labelLink) leftConnecting hg hx hu hy hleft).1⟩

/-- The connection is up after all, and the relay takes the `reconnect`: it holds
the slot for a page on the start screen, whose active socket is the attempt's. -/
theorem disconnect_undone : ∃ x y : Page labelBrowser.lib,
    Transition.run (step labelBrowser) (initPairing true (some labelLink))
      (leftConnecting ++ [.opens 1, .relayReads 1 true]) = some x ∧
      x.LeftAttempt 1 ∧ x.held 1 = true ∧
      step labelBrowser x (.message 1 .reconnected [] false) = some y ∧
      x.currentState = { screen := .roleSelect } ∧ x.activeSocket = none ∧
      y.activeSocket = some 1 ∧ y.currentState = { screen := .roleSelect, epoch := .nan } := by
  have hrun : (Transition.run (step labelBrowser) (initPairing true (some labelLink))
      (leftConnecting ++ [.opens 1, .relayReads 1 true])).any (fun x =>
        decide (x.LeftAttempt 1) && decide (x.held 1 = true) &&
          decide (x.currentState = { screen := .roleSelect }) &&
          decide (x.activeSocket = none) &&
          (step labelBrowser x (.message 1 .reconnected [] false)).any (fun y =>
            decide (y.activeSocket = some 1) &&
              decide (y.currentState = { screen := .roleSelect, epoch := .nan }))) = true := by
    decide +kernel
  obtain ⟨x, hx, hrest⟩ := (Option.any_eq_true _ _).mp hrun
  simp only [Bool.and_eq_true, decide_eq_true_eq] at hrest
  obtain ⟨⟨⟨⟨hleft, hheld⟩, hstart⟩, hnone⟩, hany⟩ := hrest
  obtain ⟨y, hy, hafter⟩ := (Option.any_eq_true _ _).mp hany
  simp only [Bool.and_eq_true, decide_eq_true_eq] at hafter
  exact ⟨x, y, hx, hleft, hheld, hy, hstart, hnone, hafter.1, hafter.2⟩

end Page

end Quicksend
