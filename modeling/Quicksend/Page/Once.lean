import Quicksend.Page.Steps
import Quicksend.Server.Handler

/-!
# Listeners that were added twice

Every `paired` wires its socket once more, and each wired listener handles
every later message. A relay says `paired` to a host whenever a guest joins.
-/

namespace Quicksend

open Pairing

namespace Socket

/-- The relay's answer to its `reconnect` has come, or none will. -/
def answered (s : Socket) : Bool :=
  (s.resuming = .resumed || s.resuming = .over) && s.readyState ≠ .connecting

theorem answered_iff {s : Socket} : s.answered = true ↔
    (s.resuming = .resumed ∨ s.resuming = .over) ∧ s.readyState ≠ .connecting := by
  simp [answered]

/-- How often it may be wired, when it was told `n` times that it is paired. -/
def allowance (s : Socket) (n : Nat) : Nat :=
  if s.opener.isFlow then n else if s.answered then 1 else 0

/-- It is the same socket, wired as often. -/
structure Kept (s t : Socket) : Prop where
  opener : t.opener = s.opener
  wired : t.wired = s.wired
  answered : s.answered = true → t.answered = true

theorem Kept.refl (s : Socket) : Kept s s := ⟨rfl, rfl, id⟩

theorem Kept.trans {s t u : Socket} (h : Kept s t) (h' : Kept t u) : Kept s u :=
  ⟨h'.opener.trans h.opener, h'.wired.trans h.wired, h'.answered ∘ h.answered⟩

theorem Kept.allowance {s t : Socket} (h : Kept s t) {n n' : Nat} (hn : n ≤ n') :
    s.allowance n ≤ t.allowance n' := by
  unfold Socket.allowance
  rw [h.opener]
  split
  · exact hn
  · by_cases ha : s.answered = true
    · rw [if_pos ha, if_pos (h.answered ha)]
    · rw [if_neg ha]
      exact Nat.zero_le _

theorem kept_send (m : Sent) (s : Socket) : Kept s (send m s) := by
  unfold send
  split
  · exact ⟨rfl, rfl, id⟩
  · exact .refl s

theorem kept_close (s : Socket) : Kept s s.close := by
  unfold close
  split
  · exact ⟨rfl, rfl, fun h => answered_iff.mpr ⟨(answered_iff.mp h).1, nofun⟩⟩
  · exact .refl s

theorem kept_onClose (s : Socket) : Kept s s.onClose :=
  ⟨rfl, rfl, fun h => answered_iff.mpr ⟨(answered_iff.mp h).1, nofun⟩⟩

theorem kept_onOpen {s : Socket} (h : s.readyState = .connecting) : Kept s s.onOpen := by
  have hnot : s.answered = false := by simp [answered, h]
  have hsent := kept_send s.greeting { s with readyState := .opened }
  unfold onOpen
  dsimp only
  split
  · exact ⟨hsent.opener, hsent.wired, fun h => by rw [hnot] at h; cases h⟩
  · exact ⟨hsent.opener, hsent.wired, fun h => by rw [hnot] at h; cases h⟩

theorem kept_answer {s : Socket} (h : s.resuming = .asked) (accepted : Bool) :
    Kept s (s.answer accepted) :=
  ⟨rfl, rfl, fun ha => by simp [answered, h] at ha⟩

theorem kept_drop (s : Socket) : Kept s s.drop :=
  ⟨rfl, rfl, fun h => answered_iff.mpr ⟨.inr rfl, (answered_iff.mp h).2⟩⟩

theorem kept_hear (m : Received) (s : Socket) : Kept s (hear m s) := by
  unfold hear
  split
  · exact ⟨rfl, rfl, fun h => answered_iff.mpr ⟨.inl rfl, (answered_iff.mp h).2⟩⟩
  · split
    · exact .refl s
    · exact kept_drop s
  · exact .refl s

end Socket

namespace Page

section
variable {lib : PakePackage} {x y z : Page lib}

/-- Nothing is wired, and the exchanges are left as they are. -/
structure Keeps (x y : Page lib) : Prop where
  sockets : ∀ {c t}, y.sockets[c]? = some t →
    (∃ s, x.sockets[c]? = some s ∧ s.Kept t) ∨ x.sockets.length ≤ c ∧ t.wired = 0
  length : x.sockets.length ≤ y.sockets.length
  exchanges : y.exchanges = x.exchanges

theorem Keeps.of_eq (hsockets : y.sockets = x.sockets) (hexchanges : y.exchanges = x.exchanges) :
    Keeps x y :=
  ⟨fun ht => .inl ⟨_, hsockets ▸ ht, .refl _⟩, by rw [hsockets], hexchanges⟩

theorem Keeps.refl (x : Page lib) : Keeps x x := .of_eq rfl rfl

theorem Keeps.trans (h : Keeps x y) (h' : Keeps y z) : Keeps x z := by
  refine ⟨fun ht => ?_, h.length.trans h'.length, h'.exchanges.trans h.exchanges⟩
  rcases h'.sockets ht with ⟨t, ht, hkept'⟩ | ⟨hc, hwired⟩
  · rcases h.sockets ht with ⟨s, hs, hkept⟩ | ⟨hc, hwired⟩
    · exact .inl ⟨s, hs, hkept.trans hkept'⟩
    · exact .inr ⟨hc, hkept'.wired.trans hwired⟩
  · exact .inr ⟨h.length.trans hc, hwired⟩

theorem keeps_modifySocket {c : ConnId} {f : Socket → Socket}
    (hf : ∀ s, x.sockets[c]? = some s → s.Kept (f s)) : Keeps x (x.modifySocket c f) := by
  refine ⟨fun {c' t} ht => .inl ?_, (List.length_modify ..).ge, rfl⟩
  obtain ⟨s, hs, rfl⟩ := Tally.getElem?_modify_eq_some ht
  refine ⟨s, hs, ?_⟩
  split
  next hc => exact hf s (hc ▸ hs)
  next => exact .refl s

theorem keeps_sendEnvelope (x : Page lib) (c : ConnId) (m : Sent) : Keeps x (x.sendEnvelope c m) :=
  keeps_modifySocket fun s _ => Socket.kept_send m s

theorem keeps_render (x : Page lib) : Keeps x x.render := by
  unfold render
  split <;> exact .of_eq rfl rfl

theorem Keeps.render (h : Keeps x y) : Keeps x y.render := h.trans (keeps_render y)

theorem keeps_setState (x : Page lib) (next : CurrentState) : Keeps x (x.setState next) := by
  refine ⟨fun ht => .inl ?_, ?_, ?_⟩
  · obtain ⟨s, hs, rfl⟩ := setState_socket ht
    refine ⟨s, hs, ?_⟩
    split
    · exact (Socket.kept_close s).trans ⟨rfl, rfl, id⟩
    · exact ⟨rfl, rfl, id⟩
  · rw [setState, render_sockets, abandon, cleanupActive_sockets, List.length_map]
    split
    · rw [List.length_modify]
    · exact Nat.le_refl _
  · rw [setState, (keeps_render _).exchanges]
    change x.cleanupActive.exchanges = _
    unfold cleanupActive
    cases x.activeStopScan <;> cases hactive : x.activeSocket <;>
      simp [stopScan, setScan, modifySocket, hactive]

theorem keeps_showError (x : Page lib) (code : Option String) : Keeps x (x.showError code) :=
  keeps_setState x _

theorem keeps_advance (x : Page lib) (next : CurrentState) : Keeps x (x.advance next) := by
  unfold advance
  exact .render (.of_eq rfl rfl)

theorem keeps_connect {o : Opener} {abandoned : Bool}
    (hsockets : y.sockets = x.sockets ++ [Socket.connect o abandoned])
    (hexchanges : y.exchanges = x.exchanges) : Keeps x y := by
  refine ⟨fun {c t} ht => ?_, by rw [hsockets, List.length_append]; exact Nat.le_add_right .., hexchanges⟩
  rw [hsockets] at ht
  rcases Tally.getElem?_concat_eq_some ht with hold | ⟨rfl, rfl⟩
  · exact .inl ⟨t, hold, .refl t⟩
  · exact .inr ⟨Nat.le_refl _, rfl⟩

theorem keeps_openFlow (x : Page lib) (o : Opener) : Keeps x (x.openFlow o) :=
  keeps_connect (x.openFlow_sockets o) rfl

theorem keeps_flipTransferRole (x : Page lib) : Keeps x x.flipTransferRole := by
  unfold flipTransferRole
  exact .render (.of_eq rfl rfl)

theorem keeps_requestRoleSwap (x : Page lib) (busy : Bool) : Keeps x (x.requestRoleSwap busy) := by
  unfold requestRoleSwap
  split
  · exact .refl x
  · split
    · exact .of_eq rfl rfl
    next c _ => exact (keeps_sendEnvelope x c .roleSwapRequest).trans (.of_eq rfl rfl)

theorem keeps_disconnectSession (x : Page lib) : Keeps x x.disconnectSession := by
  unfold disconnectSession
  split
  next c _ => exact (keeps_sendEnvelope x c .endSession).trans (keeps_setState _ _)
  next => exact keeps_setState _ _

theorem keeps_attemptReconnect (x : Page lib) (attempt : Nat) (abandoned : Bool) :
    Keeps x (x.attemptReconnect attempt abandoned) := by
  unfold attemptReconnect
  split
  · exact .refl x
  · split
    · exact keeps_setState x _
    · exact keeps_connect rfl rfl

theorem keeps_onPairedMessage (c : ConnId) (m : Received) (n : Nat) (busy : Bool) (x : Page lib) :
    Keeps x (onPairedMessage c m n busy x) := by
  induction n generalizing busy x with
  | zero => exact .refl x
  | succ n ih =>
      unfold onPairedMessage
      split
      next => exact (keeps_showError x _).trans (ih _ _)
      next =>
        refine .trans ?_ (ih _ _)
        exact .render (.of_eq rfl rfl)
      next =>
        have hsent := keeps_sendEnvelope x c (.roleSwapResponse !(busy || x.swapAwaitingResponse))
        dsimp only
        split
        · exact hsent.trans (ih _ _)
        · exact (hsent.trans (keeps_flipTransferRole _)).trans (ih _ _)
      next =>
        split
        · exact ih _ _
        · have hanswered : Keeps x { x with swapAwaitingResponse := false } := .of_eq rfl rfl
          split
          · exact (hanswered.trans (keeps_flipTransferRole _)).trans (ih _ _)
          · exact hanswered.trans (ih _ _)
      all_goals exact .refl x

theorem keeps_onPairedClose (c : ConnId) (n : Nat) (x : Page lib) :
    Keeps x (onPairedClose c n x) := by
  rcases onPairedClose_spec c n x with h | ⟨-, -, h⟩
  · rw [h]
    exact .refl x
  · rw [h]
    have hleft : Keeps x { x with activeSocket := none } := .of_eq rfl rfl
    exact hleft.trans (keeps_attemptReconnect _ 1 false)

theorem keeps_onOpenerClose (x : Page lib) (c : ConnId) (s : Socket) :
    Keeps x (x.onOpenerClose c s) := by
  unfold onOpenerClose
  cases s.opener with
  | receiver | receiverCode | joinByCode | join =>
      dsimp only
      split
      · exact keeps_showError x _
      · exact .refl x
  | reconnect =>
      dsimp only
      split
      · exact .refl x
      · split
        · exact keeps_showError x _
        · exact .of_eq rfl rfl

theorem keeps_startJoin (x : Page lib) (link : PairingLink) : Keeps x (x.startJoin link) := by
  have hscan : Keeps x { x with activeStopScan := none } := .of_eq rfl rfl
  exact (hscan.trans (keeps_advance _ _)).trans (keeps_openFlow _ _)

theorem keeps_onDecode (x : Page lib) (decoded : Option PairingLink) :
    Keeps x (x.onDecode decoded) := by
  cases decoded with
  | none => exact keeps_showError x _
  | some link => exact keeps_startJoin x link

theorem keeps_onScanning (x : Page lib) (i : Nat) (cancelled : Bool) :
    Keeps x (x.onScanning i cancelled) := by
  unfold onScanning
  split <;> exact .of_eq rfl rfl

theorem keeps_click {button : Button} (h : x.click button = some y) : Keeps x y := by
  have hscan : Keeps x x.cancelScan := .of_eq rfl rfl
  have hopen (next : CurrentState) (o : Opener) : Keeps x ((x.advance next).openFlow o) :=
    (keeps_advance x next).trans (keeps_openFlow _ o)
  unfold click at h
  split at h
  next => exact Option.some.inj h ▸ hopen _ _
  next => exact Option.some.inj h ▸ keeps_advance x _
  next => exact Option.some.inj h ▸ keeps_advance x _
  next => exact Option.some.inj h ▸ hopen _ _
  next => exact Option.some.inj h ▸ keeps_advance x _
  next => exact Option.some.inj h ▸ keeps_setState x _
  next =>
    split at h
    next => exact Option.some.inj h ▸ keeps_startJoin x _
    next => cases h
  next => exact Option.some.inj h ▸ keeps_setState x _
  next => exact Option.some.inj h ▸ keeps_setState x _
  next => exact Option.some.inj h ▸ keeps_setState x _
  next =>
    split at h
    next => exact Option.some.inj h ▸ keeps_showError x _
    next => exact Option.some.inj h ▸ hopen _ _
  next => exact Option.some.inj h ▸ keeps_setState x _
  next => exact Option.some.inj h ▸ hscan.trans (keeps_setState _ _)
  next => exact Option.some.inj h ▸ hscan.trans (keeps_setState _ _)
  next => exact Option.some.inj h ▸ keeps_showError x _
  next => exact Option.some.inj h ▸ keeps_startJoin x _
  next => exact Option.some.inj h ▸ keeps_setState x _
  next => exact Option.some.inj h ▸ keeps_requestRoleSwap x _
  next => exact Option.some.inj h ▸ keeps_disconnectSession x
  next => exact Option.some.inj h ▸ keeps_setState x _
  next => cases h

/-! ## How often a socket is wired -/

/-- The exchange may still end with a key. -/
def unsettled : Pake.Pc lib → Bool
  | .settled _ => false
  | _ => true

/-- How many exchanges run on this socket, by their program counters; a settled
one no longer counts. -/
def pending (x : Page lib) (c : ConnId) : Nat :=
  x.exchanges.countP fun e => e.socket = c && unsettled e.pc

/-- A socket is wired no more often than it was told that it is paired, with
what its exchanges may still wire, or once if it resumed a session. -/
structure Budget (n : ConnId → Nat) (x : Page lib) : Prop where
  wired : ∀ {c s}, x.sockets[c]? = some s → s.wired + x.pending c ≤ s.allowance (n c)
  placed : ∀ e ∈ x.exchanges, e.socket < x.sockets.length

variable {n n' : ConnId → Nat}

theorem Budget.pending_of_ge (h : Budget n x) {c : ConnId} (hc : x.sockets.length ≤ c) :
    x.pending c = 0 := by
  refine List.countP_eq_zero.mpr fun e he heq => ?_
  rw [Bool.and_eq_true, decide_eq_true_eq] at heq
  have := h.placed e he
  rw [heq.1] at this
  exact absurd hc (Nat.not_le.mpr this)

theorem Budget.keeps (h : Budget n x) (hk : Keeps x y) (hn : ∀ c, n c ≤ n' c) : Budget n' y := by
  have hpending : y.pending = x.pending := by
    funext c
    rw [pending, hk.exchanges]
    rfl
  refine ⟨fun {c t} ht => ?_, fun e he => ?_⟩
  · rw [hpending]
    rcases hk.sockets ht with ⟨s, hs, hkept⟩ | ⟨hc, hwired⟩
    · rw [hkept.wired]
      exact (h.wired hs).trans (hkept.allowance (hn c))
    · rw [hwired, h.pending_of_ge hc]
      exact Nat.zero_le _
  · rw [hk.exchanges] at he
    exact lt_of_lt_of_le (h.placed e he) hk.length

/-- A socket is wired that still may be. -/
theorem Budget.wire (h : Budget n x) {c : ConnId}
    (hslack : ∀ s, x.sockets[c]? = some s → s.wired + 1 + x.pending c ≤ s.allowance (n c)) :
    Budget n (x.wirePairedSocket c) := by
  refine ⟨fun {c' t} ht => ?_, fun e he => ?_⟩
  · obtain ⟨s, hs, rfl⟩ := Tally.getElem?_modify_eq_some ht
    split
    next hc =>
      subst hc
      exact hslack s hs
    next => exact h.wired hs
  · change e.socket < (x.sockets.modify c _).length
    rw [List.length_modify]
    exact h.placed e he

/-- One more exchange on a socket that still may be wired. -/
theorem Budget.exchange (h : Budget n x) {e : Exchange lib} {s : Socket}
    (hs : x.sockets[e.socket]? = some s)
    (hslack : s.wired + 1 + x.pending e.socket ≤ s.allowance (n e.socket)) :
    Budget n { x with exchanges := x.exchanges ++ [e] } := by
  refine ⟨fun {c t} ht => ?_, fun e' he' => ?_⟩
  · change t.wired + (x.exchanges ++ [e]).countP _ ≤ _
    rw [List.countP_append]
    by_cases hc : e.socket = c
    · subst hc
      obtain rfl := Option.some.inj (hs.symm.trans ht)
      have hone : [e].countP (fun e' => decide (e'.socket = e.socket) && unsettled e'.pc) ≤ 1 :=
        List.countP_le_length
      have := hslack
      unfold pending at this
      omega
    · have hnone : [e].countP (fun e' => decide (e'.socket = c) && unsettled e'.pc) = 0 := by
        simp [hc]
      rw [hnone]
      exact h.wired ht
  · rcases List.mem_append.mp he' with hold | hnew
    · exact h.placed e' hold
    · rw [List.mem_singleton.mp hnew]
      exact (List.getElem?_eq_some_iff.mp hs).1

theorem unsettled_hear (pc : Pake.Pc lib) (m : PakeMessage) :
    unsettled (Pake.hear pc m) = unsettled pc := by
  cases pc <;> cases m <;> rfl

theorem Budget.onPake (h : Budget n x) (c : ConnId) (m : PakeMessage) : Budget n (x.onPake c m) := by
  have hpending : (x.onPake c m).pending = x.pending := by
    funext c'
    change (x.exchanges.map _).countP _ = _
    rw [List.countP_map]
    refine List.countP_congr fun e _ => ?_
    dsimp only [Function.comp_apply]
    split
    · rw [unsettled_hear]
    · exact Iff.rfl
  refine ⟨fun {c' t} ht => ?_, fun e he => ?_⟩
  · rw [hpending]
    exact h.wired ht
  · obtain ⟨e', he', rfl⟩ := List.mem_map.mp he
    have := h.placed e' he'
    split <;> exact this

end

variable {b : Browser} {x y : Page b.lib} {n : ConnId → Nat}

/-- An exchange goes on: it is pending no longer once it is settled. -/
theorem Budget.setExchange (h : Budget n x) {i : Nat} {e : Exchange b.lib}
    (he : x.exchanges[i]? = some e) (hpc : unsettled e.pc = true) (pc : Pake.Pc b.lib) :
    Budget n (x.setExchange b i pc) ∧ (x.setExchange b i pc).pending e.socket +
      (if unsettled pc then 0 else 1) = x.pending e.socket := by
  have hcount (c : ConnId) := Tally.countP_modify (fun e => decide (e.socket = c) && unsettled e.pc)
    (fun e => { e with pc := pc }) he
  refine ⟨⟨fun {c t} ht => ?_, fun e' he' => ?_⟩, ?_⟩
  · have hc := hcount c
    have hle := h.wired ht
    change t.wired + (x.exchanges.modify i _).countP _ ≤ _
    unfold pending at hle
    dsimp only at hc
    rw [hpc, Bool.and_true] at hc
    by_cases hsocket : e.socket = c
    · rw [if_pos (decide_eq_true hsocket)] at hc
      split at hc <;> omega
    · simp only [hsocket, decide_false, Bool.false_and, Bool.false_eq_true, if_false] at hc
      omega
  · obtain ⟨j, hj⟩ := List.mem_iff_getElem?.mp he'
    obtain ⟨e'', he'', rfl⟩ := Tally.getElem?_modify_eq_some hj
    have := h.placed e'' (List.mem_of_getElem? he'')
    split <;> exact this
  · have hc := hcount e.socket
    change (x.exchanges.modify i _).countP _ + _ = x.exchanges.countP _
    rw [hpc] at hc
    cases hu : unsettled pc with
    | true =>
        simp only [hu, decide_true, Bool.true_and, if_true] at hc ⊢
        omega
    | false =>
        simp only [hu, decide_true, Bool.true_and, Bool.false_eq_true, if_true, if_false] at hc ⊢
        omega

theorem Budget.finalizePaired (h : Budget n x) {c : ConnId}
    (hslack : ∀ s, x.sockets[c]? = some s → s.wired + 1 + x.pending c ≤ s.allowance (n c))
    (sessionId : Option String) (sessionKey : Option Bytes) (role : Role) :
    Budget n (x.finalizePaired b c sessionId sessionKey role) := by
  unfold Page.finalizePaired
  refine Budget.keeps ?_ (keeps_render _) fun _ => Nat.le_refl _
  apply Budget.wire
  · exact h.keeps (.of_eq rfl rfl) fun _ => Nat.le_refl _
  · exact hslack

/-- A message other than the two that wire a socket. -/
theorem keeps_onOpenerMessage {m : Received} (hpaired : ∀ sessionId, m ≠ .paired sessionId)
    (hreconnected : m ≠ .reconnected) (x : Page b.lib) (c : ConnId) (o : Opener) (draw : Bytes) :
    Keeps x (x.onOpenerMessage b c o m draw) := by
  unfold onOpenerMessage
  split
  next => exact keeps_advance x _
  next => exact absurd rfl (hpaired _)
  next => exact keeps_advance x _
  next => exact absurd rfl (hpaired _)
  next => exact absurd rfl (hpaired _)
  next => exact absurd rfl (hpaired _)
  next => exact absurd rfl hreconnected
  next => exact keeps_showError x _
  next => exact keeps_showError x _
  next => exact keeps_showError x _
  next => exact keeps_showError x _
  next => exact keeps_showError x _
  next => exact .refl x

/-- The page is told on this socket that it is paired. -/
def Event.pairedOn (c : ConnId) : Event → Bool
  | .message c' (.paired _) _ _ => c' = c
  | _ => false

/-- `paired` on the socket of a flow. -/
theorem Budget.paired (h : Budget n x) {c : ConnId} {s : Socket} (hs : x.sockets[c]? = some s)
    (sessionId : Option String) (draw : Bytes) :
    Budget (fun c' => n c' + if c = c' then 1 else 0)
      (x.onOpenerMessage b c s.opener (.paired sessionId) draw) := by
  have hmore : Budget (fun c' => n c' + if c = c' then 1 else 0) x :=
    h.keeps (.refl x) fun _ => Nat.le_add_right ..
  have hslack (hflow : s.opener.isFlow = true) :
      s.wired + 1 + x.pending c ≤ s.allowance (n c + if c = c then 1 else 0) := by
    have := h.wired hs
    unfold Socket.allowance at this ⊢
    rw [if_pos hflow] at this ⊢
    rw [if_pos rfl]
    omega
  have hslack' (hflow : s.opener.isFlow = true) : ∀ t, x.sockets[c]? = some t →
      t.wired + 1 + x.pending c ≤ t.allowance (n c + if c = c then 1 else 0) := by
    intro t ht
    obtain rfl := Option.some.inj (hs.symm.trans ht)
    exact hslack hflow
  have hexchange (hflow : s.opener.isFlow = true) (next : CurrentState) (e : Exchange b.lib)
      (he : e.socket = c) : Budget (fun c' => n c' + if c = c' then 1 else 0)
        { x.advance next with exchanges := (x.advance next).exchanges ++ [e] } := by
    have hsockets : (x.advance next).sockets = x.sockets := render_sockets _
    have hpending : (x.advance next).pending c = x.pending c := by
      rw [pending, (keeps_advance x next).exchanges]
      rfl
    subst he
    refine (hmore.keeps (keeps_advance x next) fun _ => Nat.le_refl _).exchange
      (s := s) (hsockets ▸ hs) ?_
    rw [hpending]
    exact hslack hflow
  cases ho : s.opener with
  | receiver => exact hmore.finalizePaired (hslack' (by rw [ho]; rfl)) _ _ _
  | join link => exact hmore.finalizePaired (hslack' (by rw [ho]; rfl)) _ _ _
  | receiverCode => exact hexchange (by rw [ho]; rfl) _ _ rfl
  | joinByCode code => exact hexchange (by rw [ho]; rfl) _ _ rfl
  | reconnect => exact hmore

/-- `reconnected` on a socket that the relay has accepted. -/
theorem Budget.reconnected (h : Budget n x) {c : ConnId} {s : Socket} (hs : x.sockets[c]? = some s)
    (hopened : s.readyState = .opened) (haccepted : s.resuming = .accepted) (draw : Bytes) :
    Budget n ((x.modifySocket c (Socket.hear .reconnected)).onOpenerMessage b c s.opener
      .reconnected draw) := by
  have hheard : Keeps x (x.modifySocket c (Socket.hear .reconnected)) :=
    keeps_modifySocket fun s _ => Socket.kept_hear .reconnected s
  have hz := h.keeps hheard fun _ => Nat.le_refl _
  cases ho : s.opener with
  | receiver | receiverCode | joinByCode | join => exact hz
  | reconnect =>
      have hunanswered : s.answered = false := by simp [Socket.answered, haccepted]
      have hfree := h.wired hs
      rw [Socket.allowance, ho, hunanswered] at hfree
      unfold onOpenerMessage
      refine Budget.keeps ?_ (keeps_render _) fun _ => Nat.le_refl _
      apply Budget.wire
      · exact hz.keeps (.of_eq rfl rfl) fun _ => Nat.le_refl _
      · intro t ht
        have ht' := Tally.getElem?_modify_self hs (Socket.hear .reconnected)
        obtain rfl := Option.some.inj (ht'.symm.trans ht)
        have hanswered : (Socket.hear .reconnected s).answered = true :=
          Socket.answered_iff.mpr ⟨.inl rfl, by simp [Socket.hear, hopened]⟩
        rw [Socket.allowance, hanswered]
        change s.wired + 1 + x.pending c ≤ if s.opener.isFlow = true then _ else _
        rw [ho]
        simp only [Opener.isFlow, Bool.false_eq_true, if_false, if_true] at hfree ⊢
        omega

theorem keeps_foldl_sendEnvelope {α : Type} (c : ConnId) (f : α → Sent) (l : List α)
    (x : Page b.lib) : Keeps x (l.foldl (fun x m => x.sendEnvelope c (f m)) x) := by
  induction l generalizing x with
  | nil => exact .refl x
  | cons a l ih => exact (keeps_sendEnvelope x c (f a)).trans (ih _)

theorem unsettled_of_resume {a : PakeArgs} {r : Role} {pc : Pake.Pc a.lib} {res}
    (h : Pake.resume a r pc = some res) : unsettled pc = true := by
  cases pc with
  | settled => cases h
  | _ => rfl

theorem Budget.resumeExchange (h : Budget n x) {i : Nat} {e : Exchange b.lib} {err : Option String}
    (he : x.exchanges[i]? = some e) (hy : x.resumeExchange b i e err = some y) : Budget n y := by
  unfold Page.resumeExchange at hy
  split at hy
  next => cases hy
  next res hres =>
    have hset := h.setExchange he (unsettled_of_resume hres)
    split at hy
    next pc out hsettle =>
      obtain ⟨hz, hpending⟩ := hset pc
      have hout := keeps_foldl_sendEnvelope e.socket Sent.pake out (x.setExchange b i pc)
      have hw := hz.keeps hout fun _ => Nat.le_refl _
      dsimp only at hy
      split at hy
      next key =>
        obtain rfl := Option.some.inj hy
        refine hw.finalizePaired (fun s hs => ?_) _ _ _
        -- The exchange that ends here was pending.
        have hlt : e.socket < x.sockets.length := h.placed e (List.mem_of_getElem? he)
        rcases hout.sockets hs with ⟨t, ht, hkept⟩ | ⟨hge, -⟩
        · have hle := (h.wired ht).trans (hkept.allowance (Nat.le_refl (n e.socket)))
          rw [← hpending] at hle
          change t.wired + (_ + 1) ≤ _ at hle
          rw [hkept.wired, pending, hout.exchanges]
          unfold pending at hle
          omega
        · exact absurd hge (Nat.not_le.mpr hlt)
      next => exact Option.some.inj hy ▸ hw.keeps (keeps_showError _ _) fun _ => Nat.le_refl _
      next => exact Option.some.inj hy ▸ hw
    next =>
      exact Option.some.inj hy ▸
        (hset _).1.keeps (keeps_showError _ _) fun _ => Nat.le_refl _

theorem Budget.message (h : Budget n x) {c : ConnId} {s : Socket} {m : Received}
    (hs : x.sockets[c]? = some s) (hopened : s.readyState = .opened) (hm : s.mayHear m = true)
    (draw : Bytes) (busy : Bool) :
    Budget (fun c' => n c' + if (Event.message c m draw busy).pairedOn c' then 1 else 0)
      ((x.modifySocket c (Socket.hear m)).onMessage b c s m draw busy) := by
  have hheard : Keeps x (x.modifySocket c (Socket.hear m)) :=
    keeps_modifySocket fun s _ => Socket.kept_hear m s
  have hz := h.keeps hheard fun _ => Nat.le_refl _
  have hother (hpaired : ∀ sessionId, m ≠ .paired sessionId) (hreconnected : m ≠ .reconnected) :
      Budget n (onPairedMessage c m s.wired busy
        ((x.modifySocket c (Socket.hear m)).onOpenerMessage b c s.opener m draw)) :=
    hz.keeps ((keeps_onOpenerMessage hpaired hreconnected _ c s.opener draw).trans
      (keeps_onPairedMessage c m s.wired busy _)) fun _ => Nat.le_refl _
  unfold onMessage
  cases m with
  | paired sessionId =>
      dsimp only
      rw [onPairedMessage_paired]
      have hs' : (x.modifySocket c (Socket.hear (.paired sessionId))).sockets[c]? = some s :=
        Tally.getElem?_modify_self hs _
      simpa [Event.pairedOn] using hz.paired hs' sessionId draw
  | reconnected =>
      dsimp only
      rw [onPairedMessage_reconnected]
      exact h.reconnected hs hopened (of_decide_eq_true hm) draw
  | pake m => exact (hother nofun nofun).onPake c m
  | sessionCreated | codeSessionCreated | error | peerDisconnected | peerReconnected
  | roleSwapRequest | roleSwapResponse | sessionEnded => exact hother nofun nofun

/-- The event may wire a socket, and begin an exchange or take one further. -/
def Event.mayPair : Event → Bool
  | .message .. | .pakeResumes .. => true
  | _ => false

/-- Nothing else that happens does. -/
theorem keeps_step {e : Event} (hpairs : e.mayPair = false) (hstep : step b x e = some y) :
    Keeps x y := by
  have hstopped (i : Nat) : Keeps x (x.stopScan i) := .of_eq rfl rfl
  cases e with
  | message | pakeResumes => cases hpairs
  | click button => exact keeps_click hstep
  | cameraDenied i =>
      unfold Page.step at hstep
      dsimp only at hstep
      split at hstep
      next cancelled hscan =>
        obtain rfl := Option.some.inj hstep
        exact ((hstopped i).trans (keeps_showError _ _)).trans (keeps_onScanning _ i cancelled)
      next => cases hstep
  | cameraReady i decoded =>
      unfold Page.step at hstep
      dsimp only at hstep
      split at hstep
      next cancelled hscan =>
        split at hstep
        next =>
          obtain rfl := Option.some.inj hstep
          have hrunning : Keeps x (x.setScan i .running) := .of_eq rfl rfl
          exact hrunning.trans (keeps_onScanning _ i cancelled)
        next decoded =>
          obtain rfl := Option.some.inj hstep
          exact ((hstopped i).trans (keeps_onDecode _ decoded)).trans
            (keeps_onScanning _ i cancelled)
      next => cases hstep
  | scanned i decoded =>
      unfold Page.step at hstep
      dsimp only at hstep
      split at hstep
      next => exact Option.some.inj hstep ▸ (hstopped i).trans (keeps_onDecode _ decoded)
      next => cases hstep
  | opens c =>
      unfold Page.step at hstep
      dsimp only at hstep
      split at hstep
      next s hs =>
        split at hstep
        next hconnecting =>
          obtain rfl := Option.some.inj hstep
          refine keeps_modifySocket fun s' hs' => ?_
          obtain rfl := Option.some.inj (hs.symm.trans hs')
          exact Socket.kept_onOpen hconnecting
        next => cases hstep
      next => cases hstep
  | closes c =>
      unfold Page.step at hstep
      dsimp only at hstep
      split at hstep
      next s hs =>
        split at hstep
        next => cases hstep
        next hopen =>
          obtain rfl := Option.some.inj hstep
          have hclosed : Keeps x (x.modifySocket c Socket.onClose) :=
            keeps_modifySocket fun s _ => Socket.kept_onClose s
          exact (hclosed.trans (keeps_onOpenerClose _ c s)).trans
            (keeps_onPairedClose c s.wired _)
      next => cases hstep
  | relayReads c accepted =>
      unfold Page.step at hstep
      dsimp only at hstep
      split at hstep
      next s hs =>
        split at hstep
        next hasked =>
          obtain rfl := Option.some.inj hstep
          refine keeps_modifySocket fun s' hs' => ?_
          obtain rfl := Option.some.inj (hs.symm.trans hs')
          -- the answer is on its way, and the socket may come to be wired once
          exact Socket.kept_answer hasked accepted
        next => cases hstep
      next => cases hstep
  | relayDrops c =>
      unfold Page.step at hstep
      dsimp only at hstep
      split at hstep
      next =>
        exact Option.some.inj hstep ▸ keeps_modifySocket fun s _ => Socket.kept_drop s
      next => cases hstep
  | tokenDerived i =>
      unfold Page.step at hstep
      dsimp only at hstep
      split at hstep
      next c token hi =>
        obtain rfl := Option.some.inj hstep
        refine .trans ?_ (keeps_sendEnvelope _ c (.reconnectToken token))
        exact .of_eq rfl rfl
      next => cases hstep
  | retry i =>
      unfold Page.step at hstep
      dsimp only at hstep
      split at hstep
      next r hr =>
        obtain rfl := Option.some.inj hstep
        have htaken : Keeps x { x with retries := x.retries.eraseIdx i } := .of_eq rfl rfl
        exact htaken.trans (keeps_attemptReconnect _ r.attempt r.abandoned)
      next => cases hstep
  | swapTimer =>
      unfold Page.step at hstep
      dsimp only at hstep
      split at hstep
      next => cases hstep
      next => exact Option.some.inj hstep ▸ .of_eq rfl rfl

theorem Budget.step {e : Event} (h : Budget n x) (hstep : step b x e = some y) :
    Budget (fun c => n c + if e.pairedOn c then 1 else 0) y := by
  cases e with
  | message c m draw busy =>
      unfold Page.step at hstep
      dsimp only at hstep
      split at hstep
      next s hs =>
        split at hstep
        next hmay =>
          obtain rfl := Option.some.inj hstep
          -- a message is what wires a socket: the pairing that is counted, or an answer to
          -- `reconnect`
          exact h.message hs hmay.1 hmay.2 draw busy
        next => cases hstep
      next => cases hstep
  | pakeResumes i err =>
      unfold Page.step at hstep
      dsimp only at hstep
      split at hstep
      -- an exchange that settles wires the socket it was placed on
      next e he => exact h.resumeExchange he hstep
      next => cases hstep
  | click | cameraDenied | cameraReady | scanned | opens | closes | relayReads | relayDrops
  | tokenDerived | retry | swapTimer =>
      exact h.keeps (keeps_step rfl hstep) fun _ => Nat.le_add_right ..

theorem budget_init (start : CurrentState) (n : ConnId → Nat) :
    Budget n (Page.init start : Page b.lib) where
  wired h := by cases h
  placed e he := by cases he

/-- Over a run: as often as the page was told that it is paired. -/
theorem budget_run {start : CurrentState} {es : List Event}
    (hrun : Transition.run (Page.step b) (Page.init start) es = some x) :
    Budget (fun c => es.countP (Event.pairedOn c)) x := by
  induction es using List.reverseRecOn generalizing x with
  | nil =>
      obtain rfl := Option.some.inj hrun
      exact budget_init start _
  | append_singleton es e ih =>
      rw [Transition.run_append] at hrun
      obtain ⟨w, hw, hlast⟩ := Option.bind_eq_some_iff.mp hrun
      obtain ⟨z, hz, hx⟩ := Transition.run_cons_inv hlast
      obtain rfl := Option.some.inj hx
      simpa [List.countP_append, List.countP_cons] using (ih hw).step hz

/-! ## What a message does on a socket that was wired once -/

/-- Each control message has its effect once: one answer to a swap request and
the flip that it speaks of, one epoch, one attempt to reconnect. -/
structure HandledOnce {lib : PakePackage} (x : Page lib) (e : Event) (y : Page lib) : Prop where
  swap : ∀ {c s draw busy}, e = .message c .roleSwapRequest draw busy → x.sockets[c]? = some s →
    s.wired ≠ 0 → ∃ accepted : Bool,
      (y.sockets[c]?).map Socket.sent = some (s.sent ++ [.roleSwapResponse accepted]) ∧
      y.currentState = if accepted then x.flipTransferRole.currentState else x.currentState
  epoch : ∀ {c s draw busy}, e = .message c .peerReconnected draw busy →
    x.sockets[c]? = some s → s.wired ≠ 0 → y.currentState.epoch = x.currentState.epoch.next
  drop : ∀ {c s token}, e = .closes c → x.sockets[c]? = some s → s.wired ≠ 0 →
    x.currentState.screen = .paired → x.activeSocket = some c →
    x.currentState.reconnectToken = some token →
      y.sockets = x.sockets.modify c Socket.onClose ++ [Socket.connect
        (.reconnect 1 x.currentState.sessionId x.currentState.role token) false] ∧
      y.retries = x.retries

theorem modifySocket_id (x : Page b.lib) (c : ConnId) {f : Socket → Socket} (hf : ∀ s, f s = s) :
    x.modifySocket c f = x := by
  have hid : f = id := funext hf
  rw [modifySocket, hid, List.modify_id]

theorem flipTransferRole_currentState (x : Page b.lib) : x.flipTransferRole.currentState =
    { x.currentState with transferRole := some (if x.currentState.transferRole =
      some TransferRole.sender then .receiver else .sender) } := render_currentState _

theorem step_message {c : ConnId} {s : Socket} {m : Received} {draw : Bytes} {busy : Bool}
    (hs : x.sockets[c]? = some s) (hstep : step b x (.message c m draw busy) = some y) :
    s.readyState = .opened ∧
      y = (x.modifySocket c (Socket.hear m)).onMessage b c s m draw busy := by
  unfold step at hstep
  dsimp only at hstep
  rw [hs] at hstep
  dsimp only at hstep
  split at hstep
  next hmay => exact ⟨hmay.1, (Option.some.inj hstep).symm⟩
  next => cases hstep

theorem swap_once {c : ConnId} {s : Socket} {draw : Bytes} {busy : Bool}
    (hs : x.sockets[c]? = some s) (hwired : s.wired = 1)
    (hstep : step b x (.message c .roleSwapRequest draw busy) = some y) : ∃ accepted : Bool,
      (y.sockets[c]?).map Socket.sent = some (s.sent ++ [.roleSwapResponse accepted]) ∧
      y.currentState = if accepted then x.flipTransferRole.currentState else x.currentState := by
  obtain ⟨hopened, rfl⟩ := step_message hs hstep
  have hopener : x.onOpenerMessage b c s.opener .roleSwapRequest draw = x := by
    cases s.opener <;> rfl
  have hsent (accepted : Bool) :
      ((x.sendEnvelope c (.roleSwapResponse accepted)).sockets[c]?).map Socket.sent =
        some (s.sent ++ [.roleSwapResponse accepted]) := by
    change ((x.sockets.modify c _)[c]?).map _ = _
    rw [Tally.getElem?_modify_self hs, Option.map_some, Socket.send, if_pos hopened]
  refine ⟨!(busy || x.swapAwaitingResponse), ?_⟩
  rw [modifySocket_id x c (f := Socket.hear .roleSwapRequest) fun _ => rfl]
  unfold onMessage
  rw [hopener, hwired]
  dsimp only [onPairedMessage]
  cases busy || x.swapAwaitingResponse with
  | true => exact ⟨hsent false, rfl⟩
  | false =>
      refine ⟨?_, ?_⟩
      · change ((Page.render _).sockets[c]?).map _ = _
        rw [render_sockets]
        exact hsent true
      · exact (flipTransferRole_currentState _).trans (flipTransferRole_currentState x).symm

theorem epoch_once {c : ConnId} {s : Socket} {draw : Bytes} {busy : Bool}
    (hs : x.sockets[c]? = some s) (hwired : s.wired = 1)
    (hstep : step b x (.message c .peerReconnected draw busy) = some y) :
    y.currentState.epoch = x.currentState.epoch.next := by
  obtain ⟨-, rfl⟩ := step_message hs hstep
  have hopener : x.onOpenerMessage b c s.opener .peerReconnected draw = x := by
    cases s.opener <;> rfl
  rw [modifySocket_id x c (f := Socket.hear .peerReconnected) fun _ => rfl]
  unfold onMessage
  rw [hopener, hwired]
  dsimp only [onPairedMessage]
  rw [render_currentState]

theorem attemptReconnect_of_token (attempt : Nat) (abandoned : Bool) {token : Bytes}
    (hscreen : x.currentState.screen = .paired)
    (htoken : x.currentState.reconnectToken = some token) :
    x.attemptReconnect attempt abandoned = { x with
      sockets := x.sockets ++ [Socket.connect
        (.reconnect attempt x.currentState.sessionId x.currentState.role token) abandoned] } := by
  rw [attemptReconnect, if_neg (not_not.mpr hscreen), htoken]

theorem drop_once {c : ConnId} {s : Socket} {token : Bytes} (hs : x.sockets[c]? = some s)
    (hwired : s.wired ≠ 0) (hscreen : x.currentState.screen = .paired)
    (hactive : x.activeSocket = some c) (htoken : x.currentState.reconnectToken = some token)
    (hstep : step b x (.closes c) = some y) :
    y.sockets = x.sockets.modify c Socket.onClose ++ [Socket.connect
        (.reconnect 1 x.currentState.sessionId x.currentState.role token) false] ∧
      y.retries = x.retries := by
  unfold step at hstep
  dsimp only at hstep
  rw [hs] at hstep
  dsimp only at hstep
  split at hstep
  next => cases hstep
  next =>
    obtain rfl := Option.some.inj hstep
    have hopener : (x.modifySocket c Socket.onClose).onOpenerClose c s =
        x.modifySocket c Socket.onClose := by
      unfold onOpenerClose
      cases s.opener with
      | reconnect => exact if_pos (.inr hactive)
      | receiver | receiverCode | joinByCode | join => exact if_neg fun h => h.1 hscreen
    rw [hopener]
    obtain ⟨k, hk⟩ := Nat.exists_eq_succ_of_ne_zero hwired
    have hfirst : ¬ ((x.modifySocket c Socket.onClose).currentState.screen ≠ .paired ∨
        (x.modifySocket c Socket.onClose).activeSocket ≠ some c) :=
      not_or.mpr ⟨not_not.mpr hscreen, not_not.mpr hactive⟩
    rw [hk, onPairedClose, if_neg hfirst, onPairedClose_of_ne]
    · have hattempt := attemptReconnect_of_token
        (x := { x.modifySocket c Socket.onClose with activeSocket := none }) 1 false hscreen htoken
      rw [hattempt]
      exact ⟨rfl, rfl⟩
    · rw [attemptReconnect_activeSocket rfl]
      nofun

/-- If no socket is told twice that it is paired, each control message is handled once. -/
theorem handled_once (b : Browser) (isSecureContext : Bool) (detected : Option PairingLink)
    (es : List Event) (x : Page b.lib)
    (hrun : Transition.run (step b) (initPairing isSecureContext detected) es = some x)
    (hpaired : ∀ c, es.countP (Event.pairedOn c) ≤ 1) (e : Event) (y : Page b.lib)
    (hstep : step b x e = some y) : HandledOnce x e y := by
  have hbudget := budget_run hrun
  have hone : ∀ {c : ConnId} {s : Socket}, x.sockets[c]? = some s → s.wired ≠ 0 →
      s.wired = 1 := by
    intro c s hs hwired
    have hle := hbudget.wired hs
    have hallowed : s.allowance (es.countP (Event.pairedOn c)) ≤ 1 := by
      unfold Socket.allowance
      split
      · exact hpaired c
      · split <;> decide
    omega
  refine ⟨?_, ?_, ?_⟩
  · rintro c s draw busy rfl hs hwired
    exact swap_once hs (hone hs hwired) hstep
  · rintro c s draw busy rfl hs hwired
    exact epoch_once hs (hone hs hwired) hstep
  · rintro c s token rfl hs hwired hscreen hactive htoken
    exact drop_once hs hwired hscreen hactive htoken hstep

/-! ## A guest that joins again -/

/-- The host shows a link and is told that a guest has joined. -/
def hostPaired : List Event :=
  [.click .startReceive, .opens 0, .message 0 (.sessionCreated "s") (List.replicate 32 7) false,
    .message 0 (.paired (some "s")) [] false]

/-- The run in which the host pairs, and then derives and registers its reconnect
token. -/
def hostRegistered : List Event := hostPaired ++ [.tokenDerived 0]

theorem handled_once_host : ∃ x y : Page labelBrowser.lib,
    Transition.run (step labelBrowser) (initPairing true none) hostRegistered = some x ∧
      step labelBrowser x (.closes 0) = some y ∧ HandledOnce x (.closes 0) y ∧
      y.sockets.length = 2 := by
  have hpaired : ∀ c, hostRegistered.countP (Event.pairedOn c) ≤ 1 := by
    intro c
    by_cases hc : 0 = c <;> simp [hostRegistered, hostPaired, Event.pairedOn, hc]
  refine ⟨_, _, rfl, rfl, ?_, rfl⟩
  exact handled_once labelBrowser true none hostRegistered _ rfl hpaired _ _ rfl

/-- The relay lets a guest join again and says so to the host, whose page then
answers one swap request twice and counts one reconnection as two. -/
theorem paired_twice :
    (∃ x y effects, Transition.run Server.Relay.next (Server.Relay.init Server.Relay.smallConfig)
        [.begin "a" .createSession 0 (Server.Relay.drawID "s"),
          .begin "b" (.join (some "s")) 1 (Server.Relay.drawID ""), .readError 1 2] = some x ∧
      x.step (.begin "b" (.join (some "s")) 3 (Server.Relay.drawID "")) = some (y, effects) ∧
      .send 0 (.control (.paired "s")) ∈ effects) ∧
    ∃ x y z : Page labelBrowser.lib, Transition.run (step labelBrowser) (initPairing true none)
        (hostPaired ++ [.message 0 (.paired (some "s")) [] false]) = some x ∧
      step labelBrowser x (.message 0 .roleSwapRequest [] false) = some y ∧
      ¬ HandledOnce x (.message 0 .roleSwapRequest [] false) y ∧
      step labelBrowser x (.message 0 .peerReconnected [] false) = some z ∧
      ¬ HandledOnce x (.message 0 .peerReconnected [] false) z := by
  refine ⟨⟨_, _, _, rfl, rfl, .head _⟩, _, _, _, rfl, rfl, fun h => ?_, rfl, fun h => ?_⟩
  · obtain ⟨accepted, hsent, -⟩ := h.swap rfl rfl (by decide)
    cases accepted <;> exact absurd hsent (by decide)
  · exact absurd (h.epoch rfl rfl (by decide)) (by decide)

end Page

end Quicksend
