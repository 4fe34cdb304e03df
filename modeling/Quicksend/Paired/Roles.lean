import Quicksend.Paired.Steps
import Quicksend.Lib.Transition
import Mathlib.Algebra.Group.Nat.Even

/-!
# The transfer roles of two paired clients

Whoever accepts a swap flips at once; whoever asked flips when the answer
comes. In between the roles are equal. They stay so when the answer is lost,
or comes when nobody waits for it any more.
-/

namespace Quicksend

open Pairing (Client Signal Notice Down Up)
open Server (Session)

/-- The answer that makes the one who asked flip. -/
def Pairing.Down.accepts : Down → Bool
  | .signal (.roleSwapResponse true) => true
  | _ => false

/-- The message accepts a role swap, so that whoever sent it has already turned
around. -/
def Pairing.Up.accepts : Up → Bool
  | .signal (.roleSwapResponse true) => true
  | _ => false

namespace Link

/-- The accepted requests whose answers are on this connection. -/
def pending (l : Link) : Nat := l.up.countP Up.accepts + l.down.countP Down.accepts

end Link

namespace Paired

variable {token : Bytes} {x y : Paired}

/-- How many accepted swaps are still on their way, over all sockets of the
session. -/
def pending (x : Paired) : Nat := Tally.tally Link.pending x.links

/-- The roles differ, up to the answers that are on their way. -/
def Parity (x : Paired) : Prop :=
  ((x.clients .host).transferRole ≠ (x.clients .guest).transferRole) ↔ Even x.pending

/-- Every accepted swap is answered: the answer is sent on a connection that is
alive, is not lost with one, and finds its client waiting for it. -/
def Answered (x : Paired) : Event → Prop
  | .breaks c keepUp keepDown => ∀ l ∈ x.links[c]?,
      (∀ m ∈ l.up.drop keepUp, m.accepts = false) ∧ ∀ m ∈ l.down.drop keepDown, m.accepts = false
  | .deliver c busy => ∀ l ∈ x.links[c]?,
      match l.down with
      | .signal .roleSwapRequest :: _ =>
          l.wired = true → busy = false → (x.clients l.role).swapAwaitingResponse = false →
            l.broken = false
      | .signal (.roleSwapResponse true) :: _ =>
          l.wired = true ∧ (x.clients l.role).swapAwaitingResponse = true
      | _ => True
  | .read c _ => ∀ l ∈ x.links[c]?,
      match l.stage, l.up with
      | .opening, up => ∀ m ∈ up, m.accepts = false
      | _, .signal (.roleSwapResponse true) :: _ =>
          ∃ l' ∈ (x.session.connOf l.role.other).bind (x.links[·]?), l'.broken = false
      | _, _ => True
  | _ => True

/-- Both are paired, neither waits for an answer, and nothing is on its way. -/
structure Idle (x : Paired) : Prop where
  paired : ∀ r, (x.clients r).paired = true
  free : ∀ r, (x.clients r).swapAwaitingResponse = false
  quiet : ∀ l ∈ x.links, l.up = [] ∧ l.down = []

instance (x : Paired) : (e : Event) → Decidable (x.Answered e)
  | .breaks c _ _ => inferInstanceAs (Decidable (∀ l ∈ x.links[c]?, _ ∧ _))
  | .deliver _ _ => @Option.decidableForallMem _ _ (fun l => by split <;> infer_instance) _
  | .read _ _ => @Option.decidableForallMem _ _ (fun l => by split <;> infer_instance) _
  | .opens .. | .lose .. | .retry .. | .notifyPeer .. | .notifySelf .. | .readError ..
  | .notifyLeave .. | .swapClick .. | .swapTimer .. => .isTrue trivial

instance (x : Paired) : Decidable x.Idle :=
  decidable_of_iff ((∀ r, (x.clients r).paired = true) ∧
    (∀ r, (x.clients r).swapAwaitingResponse = false) ∧ ∀ l ∈ x.links, l.up = [] ∧ l.down = [])
    ⟨fun h => ⟨h.1, h.2.1, h.2.2⟩, fun h => ⟨h.paired, h.free, h.quiet⟩⟩

/-! ## What a step does to the answers on one connection -/

theorem pending_modify {c : ConnId} {l : Link} {f : Link → Link} (hl : x.links[c]? = some l)
    (hy : y.links = x.links.modify c f) : y.pending + l.pending = x.pending + (f l).pending := by
  rw [pending, pending, hy]
  exact Tally.tally_modify Link.pending f hl

theorem pending_modify_of_eq {c : ConnId} {f : Link → Link}
    (hf : ∀ l, x.links[c]? = some l → (f l).pending = l.pending)
    (hy : y.links = x.links.modify c f) : y.pending = x.pending := by
  cases hl : x.links[c]? with
  | none =>
      rw [pending, pending, hy, List.modify_eq_self (List.getElem?_eq_none_iff.mp hl)]
  | some l =>
      have hmodify := pending_modify hl hy
      rw [hf l hl] at hmodify
      omega

theorem pending_putUp {m : Up} (hm : m.accepts = false) (l : Link) :
    (l.putUp m).pending = l.pending := by
  unfold Link.putUp
  split
  next => rfl
  next => simp [Link.pending, hm]

theorem pending_putDown {m : Down} (hm : m.accepts = false) (l : Link) :
    (l.putDown m).pending = l.pending := by
  unfold Link.putDown
  split
  next => rfl
  next => simp [Link.pending, hm]

/-- What is put on a connection that is alive is on its way. -/
theorem pending_putUp_alive {l : Link} (hb : l.broken = false) (m : Up) :
    (l.putUp m).pending = l.pending + if m.accepts then 1 else 0 := by
  rw [Link.putUp, if_neg (by rw [hb]; decide)]
  simp only [Link.pending, List.countP_append, List.countP_singleton]
  omega

theorem pending_putDown_alive {l : Link} (hb : l.broken = false) (m : Down) :
    (l.putDown m).pending = l.pending + if m.accepts then 1 else 0 := by
  rw [Link.putDown, if_neg (by rw [hb]; decide)]
  simp only [Link.pending, List.countP_append, List.countP_singleton]
  omega

theorem pending_pop {l : Link} {m : Down} {down : List Down} (hd : l.down = m :: down) :
    (l.pop down).pending + (if m.accepts then 1 else 0) = l.pending := by
  simp only [Link.pending, Link.pop, hd, List.countP_cons]
  omega

theorem pending_popUp {l : Link} {m : Up} {up : List Up} (hu : l.up = m :: up) :
    (l.popUp up).pending + (if m.accepts then 1 else 0) = l.pending := by
  simp only [Link.pending, Link.popUp, hu, List.countP_cons]
  omega

theorem pending_break {l : Link} {keepUp keepDown : Nat}
    (hup : ∀ m ∈ l.up.drop keepUp, m.accepts = false)
    (hdown : ∀ m ∈ l.down.drop keepDown, m.accepts = false) :
    (l.break_ keepUp keepDown).pending = l.pending := by
  simp only [Link.pending, Link.break_]
  rw [Tally.countP_take hup, Tally.countP_take hdown]

/-- Whoever refuses has read no answer, and leaves none unread. -/
theorem pending_refuse {l : Link} (up : List Up) (code : String)
    (hno : ∀ m ∈ l.up, m.accepts = false) : ((l.popUp up).refuse code).pending = l.pending := by
  have hzero : l.up.countP Up.accepts = 0 := List.countP_eq_zero.mpr fun m hm => by simp [hno m hm]
  have hput := pending_putDown (m := .notice (.error code)) rfl ({ l.popUp up with up := [] } : Link)
  have hlast : ((l.popUp up).refuse code).pending =
      (({ l.popUp up with up := [] } : Link).putDown (.notice (.error code))).pending := by
    unfold Link.refuse Link.putDown
    cases hb : l.broken <;> simp [Link.pending, Link.popUp, hb]
  rw [hlast, hput]
  simp [Link.pending, Link.popUp, hzero]

/-! ## Roles and answers -/

/-- The clients keep their roles, and no answer appears or disappears. -/
theorem Parity.same (h : x.Parity) (hroles : ∀ r, (y.clients r).transferRole =
    (x.clients r).transferRole) (hpending : y.pending = x.pending) : y.Parity := by
  rw [Parity, hroles, hroles, hpending]
  exact h

/-- One client flips, and one answer appears or disappears. -/
theorem Parity.flip (h : x.Parity) {role : Role}
    (hflip : (y.clients role).transferRole = (x.clients role).transferRole.flip)
    (hother : (y.clients role.other).transferRole = (x.clients role.other).transferRole)
    (hpending : y.pending = x.pending + 1 ∨ y.pending + 1 = x.pending) : y.Parity := by
  have heven : Even y.pending ↔ ¬ Even x.pending := by
    rcases hpending with hpending | hpending
    · rw [hpending, Nat.even_add_one]
    · rw [← hpending, Nat.even_add_one, not_not]
  rw [Parity] at h ⊢
  rw [heven, ← h, not_not]
  cases role with
  | host =>
      have hguest : (y.clients .guest).transferRole = (x.clients .guest).transferRole := hother
      rw [hflip, hguest]
      exact TransferRole.flip_ne_iff _ _
  | guest =>
      have hhost : (y.clients .host).transferRole = (x.clients .host).transferRole := hother
      rw [hflip, hhost]
      exact TransferRole.ne_flip_iff _ _

theorem transferRole_update {f : Role → Client} {role : Role} {client : Client}
    (h : client.transferRole = (f role).transferRole) (r : Role) :
    (Function.update f role client r).transferRole = (f r).transferRole := by
  by_cases hr : r = role
  · rw [hr, Function.update_self, h]
  · rw [Function.update_of_ne hr]

/-- One client flips, with what happens on the connection on which it does. -/
theorem Parity.flipClient (h : x.Parity) {c : ConnId} {l : Link} {f : Link → Link}
    (hl : x.links[c]? = some l) (hpending : (f l).pending = l.pending + 1 ∨
      (f l).pending + 1 = l.pending) :
    ((x.setClient l.role (flippedClient (x.clients l.role))).modify c f).Parity := by
  have hflip : (((x.setClient l.role (flippedClient (x.clients l.role))).modify c f).clients
      l.role).transferRole = (x.clients l.role).transferRole.flip := by
    rw [clients_modify, setClient]
    dsimp only
    rw [Function.update_self]
    rfl
  refine h.flip hflip ?_ ?_
  · rw [clients_modify, setClient]
    dsimp only
    rw [Function.update_of_ne (Role.other_ne _)]
  · have hmodify := pending_modify hl
      (y := (x.setClient l.role (flippedClient (x.clients l.role))).modify c f) rfl
    omega

theorem pending_append {new : List Link}
    (hnew : ∀ l ∈ new, ∃ role attempt, l = Link.connect role attempt) (links : List Link) :
    Tally.tally Link.pending (links ++ new) = Tally.tally Link.pending links := by
  have hzero : Tally.tally Link.pending new = 0 := by
    refine Tally.tally_eq_zero.mpr fun l hl => ?_
    obtain ⟨role, attempt, rfl⟩ := hnew l hl
    rfl
  rw [Tally.tally_append, hzero, Nat.add_zero]

/-- The connection to which an answer is relayed. -/
theorem pending_relay {c other : ConnId} {l l' : Link} {m : Up} {up : List Up} {d : Down}
    (hl : x.links[c]? = some l) (hu : l.up = m :: up) (hl' : x.links[other]? = some l')
    (hb : l'.broken = false) (hm : m.accepts = d.accepts)
    (hy : y.links = (x.links.modify c (Link.popUp up)).modify other (Link.putDown d)) :
    y.pending = x.pending := by
  have hfirst := pending_modify hl (y := x.modify c (Link.popUp up)) rfl
  have hpop := pending_popUp hu
  have hget : ∃ l'', (x.links.modify c (Link.popUp up))[other]? = some l'' ∧ l''.broken = false := by
    rw [List.getElem?_modify, hl']
    refine ⟨_, rfl, ?_⟩
    split <;> exact hb
  obtain ⟨l'', hl'', hb''⟩ := hget
  have hsecond := pending_modify (x := x.modify c (Link.popUp up)) hl'' hy
  have hput := pending_putDown_alive hb'' d
  rw [← hm] at hput
  omega

theorem pending_stage {c : ConnId} {stage : Stage}
    (hy : y.links = x.links.modify c (Link.setStage stage)) : y.pending = x.pending :=
  pending_modify_of_eq (fun l _ => (rfl : (l.setStage stage).pending = l.pending)) hy

/-- A message heard that is no answer, or no accepting one. -/
theorem pending_deliver {c : ConnId} {l : Link} {m : Down} {down : List Down} {f : Link → Link}
    (hl : x.links[c]? = some l) (hd : l.down = m :: down) (hm : m.accepts = false)
    (hf : (f l).pending = (l.pop down).pending) (hy : y.links = x.links.modify c f) :
    y.pending = x.pending := by
  have hmodify := pending_modify hl hy
  have hpop := pending_pop hd
  rw [hm] at hpop
  simp only [Bool.false_eq_true, if_false] at hpop
  omega

/-- A message read that is no accepting answer. -/
theorem pending_read {c : ConnId} {l : Link} {m : Up} {up : List Up} (hl : x.links[c]? = some l)
    (hu : l.up = m :: up) (hm : m.accepts = false) (hy : y.links = x.links.modify c (Link.popUp up)) :
    y.pending = x.pending := by
  have hmodify := pending_modify hl hy
  have hpop := pending_popUp hu
  rw [hm] at hpop
  simp only [Bool.false_eq_true, if_false] at hpop
  omega

theorem accepts_signal (s : Signal) : Up.accepts (.signal s) = Down.accepts (.signal s) := by
  cases s with
  | roleSwapRequest => rfl
  | roleSwapResponse accepted => cases accepted <;> rfl

/-- An accepting answer is only read when it can be relayed. -/
theorem answered_read {c : ConnId} {now : Time} {l : Link} {m : Up} {up : List Up}
    (hg : x.Answered (.read c now)) (hl : x.links[c]? = some l) (hu : l.up = m :: up)
    (hstage : l.stage = .serving) (hm : m.accepts = true) :
    ∃ l' ∈ (x.session.connOf l.role.other).bind (x.links[·]?), l'.broken = false := by
  have hread := hg l hl
  rw [hstage, hu] at hread
  cases m with
  | reconnect => cases hm
  | signal s =>
      cases s with
      | roleSwapRequest => cases hm
      | roleSwapResponse accepted =>
          cases accepted with
          | false => cases hm
          | true => exact hread

/-- An answer that makes nobody flip was not an accepting one. -/
theorem unheard_accepts {c : ConnId} {busy : Bool} {l : Link} {m : Down} {down : List Down}
    (hg : x.Answered (.deliver c busy)) (hl : x.links[c]? = some l) (hd : l.down = m :: down)
    (hno : Unheard (x.clients l.role) l m) : m.accepts = false := by
  have hheard := hg l hl
  rw [hd] at hheard
  cases m with
  | notice n => rfl
  | signal s =>
      cases s with
      | roleSwapRequest => rfl
      | roleSwapResponse accepted =>
          cases accepted with
          | false => rfl
          | true =>
              obtain ⟨hw, hawait⟩ : l.wired = true ∧ (x.clients l.role).swapAwaitingResponse = true :=
                hheard
              rcases hno with hno | hno
              · rw [hw] at hno
                cases hno
              · rw [hawait] at hno
                cases hno

theorem parity_step {e : Event} (h : x.Parity) (hg : x.Answered e)
    (hstep : step token x e = some y) (hp : ∀ r, (y.clients r).paired = true) : y.Parity := by
  cases step_spec hstep with
  | broke c keepUp keepDown l hl hb =>
      refine h.same (fun _ => rfl) (pending_modify_of_eq (fun l' hl' => ?_) rfl)
      -- no accepting answer was among what is lost
      exact pending_break (hg l' hl').1 (hg l' hl').2
  | opened c l hl hb =>
      refine h.same (fun _ => rfl) (pending_modify_of_eq (fun l' _ => ?_) rfl)
      exact pending_putUp (m := .reconnect) rfl l'
  | unheard c busy l m down hl hd hgone =>
      have hpaired : (x.clients l.role).paired = true := hp l.role
      rw [hgone] at hpaired
      cases hpaired
  | leftHearing c busy l m down hl hd hm =>
      exact absurd (hp l.role) (by rw [unpaired_react_setState]; decide)
  | leftLosing c l attempt hl hatt hmax =>
      exact absurd (hp l.role) (by rw [unpaired_react_setState]; decide)
  | ignored c busy l m down hl hd hno =>
      -- an accepting answer always finds a client that waits for it
      have hm := unheard_accepts hg hl hd hno
      exact h.same (fun _ => rfl) (pending_deliver hl hd hm rfl rfl)
  | resumed c busy l down hl hd hatt =>
      refine h.same (transferRole_update rfl) ?_
      refine pending_deliver hl hd rfl ?_ rfl
      rfl
  | renewed c busy l down hl hd hw =>
      refine h.same (transferRole_update rfl) ?_
      exact pending_deliver hl hd rfl rfl rfl
  | accepted c l down hl hd hw hfree =>
      have hb := hg l hl
      rw [hd] at hb
      -- the client that accepts flips, and its answer is the one more on its way
      refine h.flipClient hl (.inl ?_)
      have hput := pending_putUp_alive (l := l.pop down) (hb hw rfl hfree)
        (.signal (.roleSwapResponse true))
      have hpop := pending_pop hd
      simp only [Up.accepts, Down.accepts, if_true, Bool.false_eq_true, if_false] at hput hpop
      omega
  | refused c busy l down hl hd hw hbusy =>
      refine h.same (fun _ => rfl) (pending_deliver hl hd rfl ?_ rfl)
      exact pending_putUp (m := .signal (.roleSwapResponse false)) rfl (l.pop down)
  | granted c busy l down hl hd hw hawait =>
      -- the client that asked flips as the answer arrives
      refine h.flipClient hl (.inr ?_)
      have hpop := pending_pop hd
      simpa [Down.accepts] using hpop
  | denied c busy l down hl hd hw hawait =>
      refine h.same (transferRole_update rfl) ?_
      exact pending_deliver hl hd rfl rfl rfl
  | lost c l client new hl hclient hretry hnew =>
      refine h.same (transferRole_update hclient.transferRole) ?_
      have hclosed : (x.modify c Link.close).pending = x.pending :=
        pending_modify_of_eq (f := Link.close) (fun _ _ => rfl) rfl
      -- a fresh socket carries nothing
      exact (pending_append hnew _).trans hclosed
  | retried role client new hclient hnew =>
      refine h.same (transferRole_update hclient.transferRole) ?_
      exact pending_append hnew x.links
  | reattached c now l up session hl hu hstage hs =>
      refine h.same (fun _ => rfl) (pending_modify_of_eq (fun l' hl' => ?_) rfl)
      obtain rfl := Option.some.inj (hl.symm.trans hl')
      exact pending_popUp hu
  | rejected c now l m up code hl hu hstage hno =>
      refine h.same (fun _ => rfl) (pending_modify_of_eq (fun l' hl' => ?_) rfl)
      obtain rfl := Option.some.inj (hl.symm.trans hl')
      have hunread := hg l hl
      rw [hstage] at hunread
      -- what a refused connection had sent goes unread
      exact pending_refuse up code hunread
  | relayed c now l s up other hl hu hstage hother =>
      refine h.same (fun _ => rfl) ?_
      -- an accepting answer moves from one connection to the other; any other signal does not count
      cases haccept : Up.accepts (.signal s) with
      | false =>
          have hup : (x.modify c (Link.popUp up)).pending = x.pending := pending_read hl hu haccept rfl
          refine Eq.trans (pending_modify_of_eq (fun l' _ => ?_) rfl) hup
          exact pending_putDown (m := .signal s) (accepts_signal s ▸ haccept) l'
      | true =>
          obtain ⟨l', hl', hb⟩ := answered_read hg hl hu hstage haccept
          rw [hother] at hl'
          exact pending_relay hl hu hl' hb (accepts_signal s) rfl
  | discarded c now l m up hl hu hstage hno =>
      refine h.same (fun _ => rfl) (pending_read hl hu ?_ rfl)
      cases haccept : m.accepts with
      | false => rfl
      | true =>
          -- an accepting answer is never discarded: it can be relayed
          obtain ⟨l', hl', -⟩ := answered_read hg hl hu hstage haccept
          rcases hno with rfl | hnone
          · cases haccept
          · rw [hnone] at hl'
            cases hl'
  | toldPeer c l other hl hstage hother =>
      have hstaged : (x.modify c (Link.setStage .notified)).pending = x.pending := pending_stage rfl
      refine h.same (fun _ => rfl) (Eq.trans ?_ hstaged)
      refine pending_modify_of_eq (fun l' _ => ?_) rfl
      exact pending_putDown (m := .notice .peerReconnected) rfl l'
  | toldNobody c l hl hstage hother =>
      exact h.same (fun _ => rfl) (pending_stage rfl)
  | toldSelf c l hl hstage =>
      refine h.same (fun _ => rfl) (pending_modify_of_eq (fun l' _ => ?_) rfl)
      exact pending_putDown (m := .notice .reconnected) rfl l'
  | dropped c now l hl hstage =>
      exact h.same (fun _ => rfl) (pending_stage rfl)
  | ended c now l hl hstage =>
      exact h.same (fun _ => rfl) (pending_stage rfl)
  | toldLeave c l other hl hstage =>
      have hstaged : (x.modify c (Link.setStage .finished)).pending = x.pending := pending_stage rfl
      refine h.same (fun _ => rfl) (Eq.trans ?_ hstaged)
      refine pending_modify_of_eq (fun l' _ => ?_) rfl
      exact pending_putDown (m := .notice .peerDisconnected) rfl l'
  | leftAlone c l hl hstage =>
      exact h.same (fun _ => rfl) (pending_stage rfl)
  | asked role busy client socket hsocket hclient =>
      refine h.same (transferRole_update hclient.transferRole)
        (pending_modify_of_eq (fun l' _ => ?_) rfl)
      exact pending_putUp (m := .signal .roleSwapRequest) rfl l'
  | clicked role busy client hclient =>
      exact h.same (transferRole_update hclient.transferRole) rfl
  | timedOut role client hclient =>
      exact h.same (transferRole_update hclient.transferRole) rfl

/-- **Complementary roles.** In every run on which every accepted swap is
answered, two clients that are still paired have different roles once nothing
is on its way and neither waits for an answer. -/
theorem roles_complementary (token : Bytes) (now : Time) (es : List Event)
    (hguard : Transition.Guarded (step token) Answered (init token now) es)
    (hrun : Transition.run (step token) (init token now) es = some x) (hidle : x.Idle) :
    ∃ r, (x.clients r).transferRole = .sender ∧ (x.clients r.other).transferRole = .receiver := by
  have hinv : (∀ r, (x.clients r).paired = true) → x.Parity := by
    refine Transition.Guarded.invariant (I := fun x : Paired =>
      (∀ r, (x.clients r).paired = true) → x.Parity) (fun s e t hs hg ht hp => ?_) hguard
      (fun _ => ?_) hrun
    · exact parity_step (hs fun r => paired_of_step ht r (hp r)) hg ht hp
    · exact ⟨fun _ => ⟨0, rfl⟩, fun _ => TransferRole.noConfusion⟩
  have hzero : x.pending = 0 := by
    refine Tally.tally_eq_zero.mpr fun l hl => ?_
    obtain ⟨hup, hdown⟩ := hidle.quiet l hl
    rw [Link.pending, hup, hdown]
    rfl
  have hdiffer := (hinv hidle.paired).mpr (hzero ▸ ⟨0, rfl⟩)
  cases hhost : (x.clients .host).transferRole with
  | sender =>
      refine ⟨.host, hhost, ?_⟩
      cases hguest : (x.clients .guest).transferRole with
      | sender => exact absurd (hhost.trans hguest.symm) hdiffer
      | receiver => exact hguest
  | receiver =>
      refine ⟨.guest, ?_, hhost⟩
      cases hguest : (x.clients .guest).transferRole with
      | sender => rfl
      | receiver => exact absurd (hhost.trans hguest.symm) hdiffer

/-! ## A small session -/

/-- The run in which the guest asks for a swap, and the host agrees before the
timer fires. -/
def oneSwap : List Event :=
  [.swapClick .guest false, .read 1 1, .deliver 0 false, .read 0 2, .deliver 1 false,
    .swapTimer .guest]

theorem roles_complementary_oneSwap : ∃ x,
    Transition.run (step [1]) (init [1] 0) oneSwap = some x ∧
      (x.clients .host).transferRole = .sender ∧
      ∃ r, (x.clients r).transferRole = .sender ∧
        (x.clients r.other).transferRole = .receiver := by
  have hguard : Transition.Guarded (step [1]) Answered (init [1] 0) oneSwap := by decide +kernel
  have hrun : (Transition.run (step [1]) (init [1] 0) oneSwap).any (fun x =>
      decide x.Idle && decide ((x.clients .host).transferRole = .sender)) = true := by
    decide +kernel
  obtain ⟨x, hr, hx⟩ := (Option.any_eq_true _ _).mp hrun
  rw [Bool.and_eq_true, decide_eq_true_eq, decide_eq_true_eq] at hx
  exact ⟨x, hr, hx.2, roles_complementary [1] 0 oneSwap hguard hr hx.1⟩

/-- The guest's timer ends before the answer is there. -/
def lateAnswer : List Event :=
  [.swapClick .guest false, .read 1 1, .deliver 0 false, .swapTimer .guest, .read 0 2,
    .deliver 1 false]

/-- Two senders, and no one waits for anything. -/
theorem roles_equal_late : ∃ x, Transition.run (step [1]) (init [1] 0) lateAnswer = some x ∧
    x.Idle ∧ ∀ r, (x.clients r).transferRole = .sender := by
  have hrun : (Transition.run (step [1]) (init [1] 0) lateAnswer).any (fun x =>
      decide x.Idle && decide (∀ r, (x.clients r).transferRole = .sender)) = true := by
    decide +kernel
  obtain ⟨x, hr, hx⟩ := (Option.any_eq_true _ _).mp hrun
  rw [Bool.and_eq_true, decide_eq_true_eq, decide_eq_true_eq] at hx
  exact ⟨x, hr, hx.1, hx.2⟩

end Paired

end Quicksend
