import Quicksend.Paired.Steps
import Quicksend.Lib.Transition

/-!
# The epochs of two paired clients

Each client counts the notices it hears. The relay owes both sides one notice
for each resumed slot, so the counters agree as long as it can pay: while a
peer is gone, or its connection dies with the notice on it, it cannot, and
nothing makes up for that later.
-/

namespace Quicksend

open Pairing (Client Notice Down)
open Server (Session)

/-- A notice that raises the epoch of the client that hears it. -/
def Pairing.Down.renews : Down → Bool
  | .notice .reconnected | .notice .peerReconnected => true
  | _ => false

/-- Every `peer_reconnected` on its way to a client comes after the `reconnected`
of that socket. -/
def Heard : List Down → Prop
  | [] => True
  | .notice .reconnected :: _ => True
  | m :: down => m ≠ .notice .peerReconnected ∧ Heard down

theorem heard_iff {m : Down} {down : List Down} :
    Heard (m :: down) ↔ m = .notice .reconnected ∨ m ≠ .notice .peerReconnected ∧ Heard down := by
  cases m with
  | signal s => simp [Heard]
  | notice n => cases n <;> simp [Heard]

theorem Heard.append {m : Down} {down : List Down} (h : Heard down)
    (hm : m ≠ .notice .peerReconnected ∨ .notice .reconnected ∈ down) : Heard (down ++ [m]) := by
  induction down with
  | nil =>
      rcases hm with hm | hm
      · exact heard_iff.mpr (.inr ⟨hm, trivial⟩)
      · cases hm
  | cons m' down ih =>
      rw [List.cons_append, heard_iff]
      rcases heard_iff.mp h with hfirst | ⟨hne, h⟩
      · exact .inl hfirst
      · by_cases hfirst : m' = .notice .reconnected
        · exact .inl hfirst
        · refine .inr ⟨hne, ih h (hm.imp_right fun hmem => ?_)⟩
          exact (List.mem_cons.mp hmem).resolve_left (Ne.symm hfirst)

theorem Heard.take {down : List Down} (h : Heard down) (n : Nat) : Heard (down.take n) := by
  induction down generalizing n with
  | nil => simpa using h
  | cons m down ih =>
      cases n with
      | zero => exact trivial
      | succ n =>
          rw [List.take_succ_cons, heard_iff]
          exact (heard_iff.mp h).imp_right fun h => ⟨h.1, ih h.2 n⟩

/-- A resumption is under way: its handler has not told its own client yet. -/
def Stage.resuming : Stage → Bool
  | .opening | .attached | .notified => true
  | .serving | .leaving _ | .finished => false

theorem ne_of_renews {m : Down} (h : m.renews = false) :
    m ≠ .notice .reconnected ∧ m ≠ .notice .peerReconnected :=
  ⟨fun hm => Bool.noConfusion (hm ▸ h), fun hm => Bool.noConfusion (hm ▸ h)⟩

/-- What the handler owes its own client, or the other one. -/
def Stage.owes (own : Bool) : Stage → Nat
  | .attached => 1
  | .notified => if own then 1 else 0
  | .opening | .serving | .leaving _ | .finished => 0

namespace Link

/-- How often the epoch of this role's client is still to be raised because of
what is on this connection, or because of the resumption on it. -/
def owes (r : Role) (l : Link) : Nat :=
  (if l.role = r then l.down.countP Down.renews else 0) + l.stage.owes (decide (l.role = r))

theorem owes_of_eq {l l' : Link} (hrole : l'.role = l.role)
    (hdown : l'.down.countP Down.renews = l.down.countP Down.renews)
    (hstage : ∀ own, l'.stage.owes own = l.stage.owes own) (r : Role) : l'.owes r = l.owes r := by
  rw [owes, owes, hrole, hdown, hstage]

theorem owes_heard {l l' : Link} (hrole : l'.role = l.role)
    (hdown : l'.down.countP Down.renews + 1 = l.down.countP Down.renews) (hstage : l'.stage = l.stage)
    (r : Role) : l'.owes r + (if l.role = r then 1 else 0) = l.owes r := by
  rw [owes, owes, hrole, hstage]
  by_cases hr : l.role = r
  · rw [if_pos hr, if_pos hr, if_pos hr]
    omega
  · rw [if_neg hr, if_neg hr, if_neg hr]
    rfl

/-- What a client has to hear on a connection, it will. -/
structure Audible (l : Link) : Prop where
  pairedOn : l.attempt = none → l.stage.resuming = false ∧ .notice .reconnected ∉ l.down
  heard : l.wired = true ∨ Heard l.down
  announced : l.stage = .serving → l.broken = false → l.wired = true ∨ .notice .reconnected ∈ l.down

end Link

namespace Paired

variable {token : Bytes} {x y : Paired}

/-- The epoch this client will have come to when all is heard. -/
def due (x : Paired) (r : Role) : Nat := (x.clients r).epoch + Tally.tally (Link.owes r) x.links

/-- What keeps the epochs together: both sides are owed equally many turns, and
whoever is owed one can still be told. -/
structure Lockstep (x : Paired) : Prop where
  balance : x.due .host = x.due .guest
  audible : ∀ l ∈ x.links, l.Audible
  routed : ∀ r c, x.session.connOf r = some c → ∃ l, x.links[c]? = some l ∧ l.role = r

/-- No notice that raises an epoch is lost on this step. -/
def Notified (x : Paired) : Event → Prop
  | .breaks c _ keepDown => ∀ l ∈ x.links[c]?, ∀ m ∈ l.down.drop keepDown, m.renews = false
  | .notifyPeer c => ∀ l ∈ x.links[c]?, ∃ l' ∈ (x.session.connOf l.role.other).bind (x.links[·]?),
      l'.stage = .serving ∧ l'.broken = false
  | .notifySelf c => ∀ l ∈ x.links[c]?, l.broken = false
  | _ => True

/-- Both are paired, each on a live connection, and nothing of the relay is on
its way. -/
structure Calm (x : Paired) : Prop where
  paired : ∀ r, (x.clients r).paired = true
  live : ∀ r, ∃ l ∈ (x.clients r).activeSocket.bind (x.links[·]?),
    l.broken = false ∧ l.stage = .serving
  quiet : ∀ l ∈ x.links, l.down = [] ∧ l.stage ≠ .attached ∧ l.stage ≠ .notified

instance (x : Paired) (e : Event) : Decidable (x.Notified e) := by
  unfold Notified
  split <;> infer_instance

instance (x : Paired) : Decidable x.Calm :=
  decidable_of_iff ((∀ r, (x.clients r).paired = true) ∧
    (∀ r, ∃ l ∈ (x.clients r).activeSocket.bind (x.links[·]?),
      l.broken = false ∧ l.stage = .serving) ∧
    ∀ l ∈ x.links, l.down = [] ∧ l.stage ≠ .attached ∧ l.stage ≠ .notified)
    ⟨fun h => ⟨h.1, h.2.1, h.2.2⟩, fun h => ⟨h.paired, h.live, h.quiet⟩⟩

/-! ## What a step does to one connection -/

/-- A change of a connection that owes nobody more or less. -/
structure Keeps (l l' : Link) : Prop where
  role : l'.role = l.role
  owes : ∀ r, l'.owes r = l.owes r
  audible : l.Audible → l'.Audible

theorem Keeps.trans {l l' l'' : Link} (h : Keeps l l') (h' : Keeps l' l'') : Keeps l l'' :=
  ⟨h'.role.trans h.role, fun r => (h'.owes r).trans (h.owes r), fun ha => h'.audible (h.audible ha)⟩

theorem due_modify {c : ConnId} {l : Link} {f : Link → Link} (hl : x.links[c]? = some l)
    (hy : y.links = x.links.modify c f) (r : Role) :
    y.due r + (x.clients r).epoch + l.owes r = x.due r + (y.clients r).epoch + (f l).owes r := by
  have htally := Tally.tally_modify (Link.owes r) f hl
  rw [due, due, hy]
  omega

theorem audible_modify {c : ConnId} {f : Link → Link} (h : ∀ l ∈ x.links, l.Audible)
    (hf : ∀ l, x.links[c]? = some l → l.Audible → (f l).Audible)
    (hy : y.links = x.links.modify c f) : ∀ l ∈ y.links, l.Audible := by
  intro l hl
  obtain ⟨i, hi⟩ := List.mem_iff_getElem?.mp hl
  rw [hy] at hi
  obtain ⟨l', hl', rfl⟩ := Tally.getElem?_modify_eq_some hi
  have haud := h l' (List.mem_of_getElem? hl')
  split
  next hc => exact hf l' (hc ▸ hl') haud
  next => exact haud

theorem routed_modify {c : ConnId} {f : Link → Link} {r : Role} {d : ConnId}
    (h : ∃ l, x.links[d]? = some l ∧ l.role = r) (hf : ∀ l, x.links[c]? = some l → (f l).role = l.role)
    (hy : y.links = x.links.modify c f) : ∃ l, y.links[d]? = some l ∧ l.role = r := by
  obtain ⟨l, hl, hr⟩ := h
  rw [hy, List.getElem?_modify, hl]
  refine ⟨_, rfl, ?_⟩
  split
  next hc => rw [hf l (hc ▸ hl), hr]
  next => exact hr

/-- Changing one connection without owing anybody more or less. -/
theorem Lockstep.modify (h : x.Lockstep) (c : ConnId) {f : Link → Link}
    (hf : ∀ l, x.links[c]? = some l → Keeps l (f l)) : (x.modify c f).Lockstep := by
  refine ⟨?_, audible_modify h.audible (fun l hl => (hf l hl).audible) rfl, fun r d hd =>
    routed_modify (h.routed r d hd) (fun l hl => (hf l hl).role) rfl⟩
  cases hl : x.links[c]? with
  | none =>
      have hsame : x.modify c f = x := by
        rw [Paired.modify, List.modify_eq_self (List.getElem?_eq_none_iff.mp hl)]
      rw [hsame]
      exact h.balance
  | some l =>
      have hhost := due_modify hl (y := x.modify c f) rfl .host
      have hguest := due_modify hl (y := x.modify c f) rfl .guest
      rw [(hf l hl).owes] at hhost hguest
      have hbalance := h.balance
      simp only [clients_modify] at hhost hguest
      omega

/-- A session with the same or fewer live connections. -/
theorem Lockstep.session (h : x.Lockstep) {session : Session}
    (hs : ∀ r c, session.connOf r = some c → x.session.connOf r = some c) :
    ({ x with session := session } : Paired).Lockstep :=
  ⟨h.balance, h.audible, fun r c hc => h.routed r c (hs r c hc)⟩

/-- A client that changed, but not its epoch. -/
theorem Lockstep.setClient (h : x.Lockstep) {role : Role} {client : Client}
    (hepoch : client.epoch = (x.clients role).epoch) : (x.setClient role client).Lockstep := by
  have hsame : ∀ r, ((x.setClient role client).clients r).epoch = (x.clients r).epoch := by
    intro r
    change (Function.update x.clients role client r).epoch = _
    by_cases hr : r = role
    · rw [hr, Function.update_self, hepoch]
    · rw [Function.update_of_ne hr]
  refine ⟨?_, h.audible, h.routed⟩
  have hbalance := h.balance
  rw [due, due] at hbalance ⊢
  rw [hsame, hsame]
  exact hbalance

theorem audible_connect (role : Role) (attempt : Nat) : (Link.connect role attempt).Audible where
  pairedOn h := by cases h
  heard := .inr trivial
  announced h := by cases h

theorem owes_connect (r role : Role) (attempt : Nat) : (Link.connect role attempt).owes r = 0 := by
  cases r <;> cases role <;> rfl

/-- New connections. -/
theorem Lockstep.append (h : x.Lockstep) {new : List Link}
    (hnew : ∀ l ∈ new, ∃ role attempt, l = Link.connect role attempt) :
    ({ x with links := x.links ++ new } : Paired).Lockstep := by
  have howes : ∀ r, Tally.tally (Link.owes r) new = 0 := by
    intro r
    refine Tally.tally_eq_zero.mpr fun l hl => ?_
    obtain ⟨role, attempt, rfl⟩ := hnew l hl
    exact owes_connect r role attempt
  refine ⟨?_, fun l hl => ?_, fun r c hc => ?_⟩
  · have hbalance := h.balance
    rw [due, due] at hbalance ⊢
    simp only [Tally.tally_append, howes]
    exact hbalance
  · rcases List.mem_append.mp hl with hl | hl
    · exact h.audible l hl
    · obtain ⟨role, attempt, rfl⟩ := hnew l hl
      exact audible_connect role attempt
  · obtain ⟨l, hl, hr⟩ := h.routed r c hc
    refine ⟨l, ?_, hr⟩
    rw [List.getElem?_append_left (List.getElem?_eq_some_iff.mp hl).1]
    exact hl

/-! ## What keeps a connection audible -/

/-- The queue of the relay and the stage of its handler are as they were. -/
theorem keeps_of_eq {l l' : Link} (hrole : l'.role = l.role) (hatt : l'.attempt = l.attempt)
    (hwired : l'.wired = l.wired) (hbroken : l'.broken = l.broken) (hdown : l'.down = l.down)
    (hstage : l'.stage = l.stage) : Keeps l l' := by
  refine ⟨hrole, fun r => ?_, fun h => ⟨?_, ?_, ?_⟩⟩
  · exact Link.owes_of_eq hrole (by rw [hdown]) (fun _ => by rw [hstage]) r
  · rw [hatt, hstage, hdown]
    exact h.pairedOn
  · rw [hwired, hdown]
    exact h.heard
  · rw [hstage, hbroken, hwired, hdown]
    exact h.announced

theorem keeps_putUp (m : Pairing.Up) (l : Link) : Keeps l (l.putUp m) := by
  unfold Link.putUp
  split <;> exact keeps_of_eq rfl rfl rfl rfl rfl rfl

theorem keeps_putDown {m : Down} (hm : m.renews = false) (l : Link) : Keeps l (l.putDown m) := by
  obtain ⟨hne, hne'⟩ := ne_of_renews hm
  unfold Link.putDown
  split
  next => exact keeps_of_eq rfl rfl rfl rfl rfl rfl
  next =>
    refine ⟨rfl, fun r => ?_, fun h => ⟨fun hatt => ?_, ?_, fun hs hb => ?_⟩⟩
    · refine Link.owes_of_eq ?_ ?_ (fun _ => ?_) r <;> simp [hm]
    · obtain ⟨hstage, hno⟩ := h.pairedOn hatt
      exact ⟨hstage, by simpa [Ne.symm hne] using hno⟩
    · exact h.heard.imp_right fun h => h.append (.inl hne')
    · exact (h.announced hs hb).imp_right (List.mem_append_left _)

theorem keeps_pop {m : Down} {down : List Down} {l : Link} (hd : l.down = m :: down)
    (hm : m.renews = false) : Keeps l (l.pop down) := by
  obtain ⟨hne, hne'⟩ := ne_of_renews hm
  refine ⟨rfl, fun r => ?_, fun h => ⟨fun hatt => ?_, ?_, fun hs hb => ?_⟩⟩
  · refine Link.owes_of_eq ?_ ?_ (fun _ => ?_) r <;> simp [Link.pop, hd, hm]
  · obtain ⟨hstage, hno⟩ := h.pairedOn hatt
    rw [hd] at hno
    exact ⟨hstage, fun hmem => hno (List.mem_cons_of_mem _ hmem)⟩
  · refine h.heard.imp_right fun h => ?_
    rw [hd, heard_iff] at h
    exact (h.resolve_left hne).2
  · refine (h.announced hs hb).imp_right fun hmem => ?_
    rw [hd] at hmem
    exact (List.mem_cons.mp hmem).resolve_left (Ne.symm hne)

theorem keeps_break {l : Link} {keepUp keepDown : Nat}
    (hlost : ∀ m ∈ l.down.drop keepDown, m.renews = false) :
    Keeps l (l.break_ keepUp keepDown) := by
  have hcount := Tally.countP_take hlost
  refine ⟨rfl, fun r => ?_, fun h => ⟨fun hatt => ?_, ?_, fun _ hb => ?_⟩⟩
  · refine Link.owes_of_eq ?_ ?_ (fun _ => ?_) r <;> simp [Link.break_, hcount]
  · obtain ⟨hstage, hno⟩ := h.pairedOn hatt
    exact ⟨hstage, fun hmem => hno (List.mem_of_mem_take hmem)⟩
  · exact h.heard.imp_right fun h => h.take _
  · cases hb

/-- The handler of a connection that is through with telling leaves. -/
theorem keeps_leave {l l' : Link} (hrole : l'.role = l.role) (hatt : l'.attempt = l.attempt)
    (hwired : l'.wired = l.wired) (hdown : l'.down = l.down)
    (hstage : l.stage ≠ .attached ∧ l.stage ≠ .notified)
    (hstage' : (∃ other, l'.stage = .leaving other) ∨ l'.stage = .finished) : Keeps l l' := by
  have howes : ∀ own, l.stage.owes own = 0 := by
    intro own
    cases hs : l.stage with
    | attached => exact absurd hs hstage.1
    | notified => exact absurd hs hstage.2
    | _ => rfl
  refine ⟨hrole, fun r => ?_, fun h => ⟨fun ha => ?_, ?_, fun hs => ?_⟩⟩
  · refine Link.owes_of_eq hrole (by rw [hdown]) (fun own => ?_) r
    rw [howes]
    rcases hstage' with ⟨other, hs⟩ | hs <;> rw [hs] <;> rfl
  · rw [hdown]
    refine ⟨?_, (h.pairedOn (hatt ▸ ha)).2⟩
    rcases hstage' with ⟨other, hs⟩ | hs <;> rw [hs] <;> rfl
  · rw [hwired, hdown]
    exact h.heard
  · rcases hstage' with ⟨other, hs'⟩ | hs' <;> rw [hs'] at hs <;> cases hs

theorem markDisconnected_connOf {s : Session} {role r : Role} {now : Time} {c : ConnId}
    (h : (s.markDisconnected role now).1.connOf r = some c) : s.connOf r = some c := by
  unfold Session.markDisconnected at h
  split at h
  next p hp =>
    by_cases hr : r = role
    · rw [hr, Session.connOf, Session.connAndIP] at h
      dsimp only at h
      rw [Function.update_self] at h
      cases h
    · rw [Session.connOf, Session.connAndIP] at h
      dsimp only at h
      rwa [Function.update_of_ne hr] at h
  next => exact h

/-- A notice heard: one connection changes by what its client's epoch does. -/
theorem Lockstep.hear (h : x.Lockstep) {c : ConnId} {l : Link} {f : Link → Link} {client : Client}
    (hl : x.links[c]? = some l) (hrole : (f l).role = l.role)
    (hepoch : client.epoch = (x.clients l.role).epoch + 1)
    (howes : ∀ r, (f l).owes r + (if l.role = r then 1 else 0) = l.owes r)
    (haud : (f l).Audible) : ((x.setClient l.role client).modify c f).Lockstep := by
  have hdue : ∀ r, ((x.setClient l.role client).modify c f).due r = x.due r := by
    intro r
    have hmodify := due_modify hl (y := (x.setClient l.role client).modify c f) rfl r
    have hown := howes r
    have hclient : ((x.setClient l.role client).clients r).epoch =
        (x.clients r).epoch + if l.role = r then 1 else 0 := by
      change (Function.update x.clients l.role client r).epoch = _
      by_cases hr : r = l.role
      · rw [hr, Function.update_self, hepoch, if_pos rfl]
      · rw [Function.update_of_ne hr, if_neg (Ne.symm hr), Nat.add_zero]
    rw [clients_modify, hclient] at hmodify
    omega
  refine ⟨by rw [hdue, hdue, h.balance], ?_, fun r d hd => ?_⟩
  · refine audible_modify h.audible (fun l' hl' _ => ?_) rfl
    obtain rfl := Option.some.inj (hl.symm.trans hl')
    exact haud
  · refine routed_modify (h.routed r d hd) (fun l' hl' => ?_) rfl
    obtain rfl := Option.some.inj (hl.symm.trans hl')
    exact hrole

/-- A slot is resumed: both clients are owed a notice. -/
theorem Lockstep.resume (h : x.Lockstep) {c : ConnId} {l : Link} {session : Session}
    {up : List Pairing.Up} {now : Time} (hl : x.links[c]? = some l) (hstage : l.stage = .opening)
    (hs : x.session.reattach l.role token c "" now = some session) :
    ({ x with session := session }.modify c (Link.attach up) : Paired).Lockstep := by
  have hlinks : ({ x with session := session }.modify c (Link.attach up) : Paired).links =
      x.links.modify c (Link.attach up) := rfl
  have hdue : ∀ r, ({ x with session := session }.modify c (Link.attach up) : Paired).due r =
      x.due r + 1 := by
    intro r
    have hmodify := due_modify hl hlinks r
    have howes : (l.attach up).owes r = l.owes r + 1 := by
      rw [Link.owes, Link.owes, hstage]
      rfl
    rw [clients_modify, howes] at hmodify
    dsimp only at hmodify
    omega
  have haud := h.audible l (List.mem_of_getElem? hl)
  have hopen : l.stage.resuming = true := by rw [hstage]; rfl
  refine ⟨by rw [hdue, hdue, h.balance], ?_, fun r d hd => ?_⟩
  · refine audible_modify h.audible (fun l' hl' _ => ?_) hlinks
    obtain rfl := Option.some.inj (hl.symm.trans hl')
    refine ⟨fun hnone => ?_, haud.heard, fun hserving => by cases hserving⟩
    rw [(haud.pairedOn hnone).1] at hopen
    cases hopen
  · refine routed_modify ?_ (fun l' _ => (rfl : (l'.attach up).role = l'.role)) hlinks
    have hconn := (Session.reattach_spec hs).2.2
    have hd' : session.connOf r = some d := hd
    rw [Session.connOf, hconn] at hd'
    by_cases hr : r = l.role
    · rw [hr, Function.update_self] at hd'
      obtain rfl : c = d := Option.some.inj hd'
      exact ⟨l, hl, hr.symm⟩
    · rw [Function.update_of_ne hr] at hd'
      exact h.routed r d hd'

/-- The client of a resumed slot is told: it is owed on its connection what its
handler owed it. -/
theorem keeps_toldSelf {l : Link} (hstage : l.stage = .notified) (hb : l.broken = false) :
    Keeps l ((l.putDown (.notice .reconnected)).setStage .serving) := by
  have hput : (l.putDown (.notice .reconnected)).setStage .serving =
      { l with down := l.down ++ [.notice .reconnected], stage := .serving } := by
    rw [Link.putDown, if_neg (by rw [hb]; decide)]
    rfl
  rw [hput]
  refine ⟨rfl, fun r => ?_, fun h => ⟨fun hnone => ?_, ?_, fun _ _ => ?_⟩⟩
  · rw [Link.owes, Link.owes, hstage]
    by_cases hr : l.role = r <;> simp [hr, Stage.owes, Down.renews]
  · have hno := (h.pairedOn hnone).1
    rw [hstage] at hno
    cases hno
  · exact h.heard.imp_right fun h => h.append (.inl (by decide))
  · exact .inr (by simp)

theorem stage_putDown (m : Down) (l : Link) : (l.putDown m).stage = l.stage := by
  unfold Link.putDown
  split <;> rfl

/-- A handler that has told of the drop is finished. -/
theorem Lockstep.leave (h : x.Lockstep) {c : ConnId} {l : Link} {other : Option ConnId}
    (hl : x.links[c]? = some l) (hstage : l.stage = .leaving other) :
    (x.modify c (Link.setStage .finished)).Lockstep := by
  refine h.modify c fun l' hl' => ?_
  obtain rfl := Option.some.inj (hl.symm.trans hl')
  refine keeps_leave rfl rfl rfl rfl ?_ (.inr rfl)
  rw [hstage]
  exact ⟨Stage.noConfusion, Stage.noConfusion⟩

theorem other_eq_iff (s r : Role) : s.other = r ↔ s ≠ r := by
  cases s <;> cases r <;> decide

theorem putDown_peerReconnected {l : Link} (hb : l.broken = false) :
    l.putDown (.notice .peerReconnected) =
      { l with down := l.down ++ [.notice .peerReconnected] } := by
  rw [Link.putDown, if_neg (by rw [hb]; decide)]

/-- The peer is told: the notice moves from the handler onto its connection. -/
theorem Lockstep.tell (h : x.Lockstep) {c other : ConnId} {l l' : Link} (hl : x.links[c]? = some l)
    (hl' : x.links[other]? = some l') (hstage : l.stage = .attached)
    (hrole : l'.role = l.role.other) (hstage' : l'.stage = .serving) (hb : l'.broken = false) :
    ((x.modify c (Link.setStage .notified)).modify other
      (Link.putDown (.notice .peerReconnected))).Lockstep := by
  have hne : c ≠ other := by
    rintro rfl
    obtain rfl := Option.some.inj (hl.symm.trans hl')
    rw [hstage] at hstage'
    cases hstage'
  have hl'' : (x.modify c (Link.setStage .notified)).links[other]? = some l' := by
    rw [← hl']
    exact Tally.getElem?_modify_ne hne _
  have haud := h.audible l (List.mem_of_getElem? hl)
  have haud' := h.audible l' (List.mem_of_getElem? hl')
  have hdue : ∀ r, ((x.modify c (Link.setStage .notified)).modify other
      (Link.putDown (.notice .peerReconnected))).due r = x.due r := by
    intro r
    have hfirst := due_modify hl (y := x.modify c (Link.setStage .notified)) rfl r
    have hsecond := due_modify hl'' (y := (x.modify c (Link.setStage .notified)).modify other
      (Link.putDown (.notice .peerReconnected))) rfl r
    have howes : (l.setStage .notified).owes r + (if l'.role = r then 1 else 0) = l.owes r := by
      rw [hrole]
      have hother := other_eq_iff l.role r
      simp only [Link.owes, Link.setStage, hstage, Stage.owes, hother]
      by_cases hr : l.role = r <;> simp [hr]
    have howes' : (l'.putDown (.notice .peerReconnected)).owes r =
        l'.owes r + (if l'.role = r then 1 else 0) := by
      rw [putDown_peerReconnected hb, Link.owes, Link.owes]
      by_cases hr : l'.role = r <;> simp [hr, Down.renews, Nat.add_right_comm]
    rw [howes'] at hsecond
    simp only [clients_modify] at hfirst hsecond
    omega
  refine ⟨by rw [hdue, hdue, h.balance], ?_, fun r d hd => ?_⟩
  · refine audible_modify (x := x.modify c (Link.setStage .notified)) ?_ (fun l₂ hl₂ _ => ?_) rfl
    · refine audible_modify h.audible (fun l₂ hl₂ _ => ?_) rfl
      obtain rfl := Option.some.inj (hl.symm.trans hl₂)
      refine ⟨fun hnone => ?_, haud.heard, fun hserving => by cases hserving⟩
      have hno := (haud.pairedOn hnone).1
      rw [hstage] at hno
      cases hno
    · obtain rfl := Option.some.inj (hl''.symm.trans hl₂)
      rw [putDown_peerReconnected hb]
      refine ⟨fun hnone => ⟨(haud'.pairedOn hnone).1, ?_⟩, ?_, fun _ _ => ?_⟩
      · simpa using (haud'.pairedOn hnone).2
      · rcases haud'.announced hstage' hb with hw | hmem
        · exact .inl hw
        · exact haud'.heard.imp_right fun h => h.append (.inr hmem)
      · exact (haud'.announced hstage' hb).imp_right (List.mem_append_left _)
  · have hrouted := routed_modify (y := x.modify c (Link.setStage .notified)) (h.routed r d hd)
      (fun l _ => (rfl : (l.setStage .notified).role = l.role)) rfl
    refine routed_modify hrouted (fun l₂ hl₂ => ?_) rfl
    obtain rfl := Option.some.inj (hl''.symm.trans hl₂)
    rw [putDown_peerReconnected hb]

/-- What goes unheard raises no epoch. -/
theorem unheard_renews {client : Client} {l : Link} {m : Down} {down : List Down} (h : l.Audible)
    (hd : l.down = m :: down) (hno : Unheard client l m) : m.renews = false := by
  cases m with
  | signal s => rfl
  | notice n =>
      cases n with
      | reconnected =>
          refine absurd ?_ (h.pairedOn hno).2
          rw [hd]
          exact List.mem_cons_self
      | peerReconnected =>
          have hheard := h.heard.resolve_left (by rw [show l.wired = false from hno]; decide)
          rw [hd, heard_iff] at hheard
          simp at hheard
      | _ => rfl

theorem lockstep_step {e : Event} (h : x.Lockstep) (hg : x.Notified e)
    (hstep : step token x e = some y) (hp : ∀ r, (y.clients r).paired = true) : y.Lockstep := by
  cases step_spec hstep with
  | broke c keepUp keepDown l hl hb =>
      refine h.modify c fun l' hl' => keeps_break ?_
      -- only what raises no epoch is lost
      exact hg l' hl'
  | opened c l hl hb =>
      refine h.modify c fun l' _ => (keeps_putUp .reconnect l').trans ?_
      exact keeps_of_eq rfl rfl rfl rfl rfl rfl
  | unheard c busy l m down hl hd hgone =>
      have hpaired : (x.clients l.role).paired = true := hp l.role
      rw [hgone] at hpaired
      cases hpaired
  | leftHearing c busy l m down hl hd hm =>
      exact absurd (hp l.role) (by rw [unpaired_react_setState]; decide)
  | leftLosing c l attempt hl hatt hmax =>
      exact absurd (hp l.role) (by rw [unpaired_react_setState]; decide)
  | ignored c busy l m down hl hd hno =>
      refine h.modify c fun l' hl' => ?_
      obtain rfl := Option.some.inj (hl.symm.trans hl')
      exact keeps_pop hd (unheard_renews (h.audible l (List.mem_of_getElem? hl)) hd hno)
  | resumed c busy l down hl hd hatt =>
      -- the attempt's own listener: it wires the socket as it raises the epoch
      refine h.hear hl rfl rfl (fun r => ?_) ⟨fun hnone => ?_, .inl rfl, fun _ _ => .inl rfl⟩
      · refine Link.owes_heard ?_ ?_ ?_ r <;> simp [Link.pop, hd, List.countP_cons, Down.renews]
      · rw [show l.attempt = none from hnone] at hatt
        cases hatt
  | renewed c busy l down hl hd hw =>
      -- a `peer_reconnected` on a wired socket
      have haud := h.audible l (List.mem_of_getElem? hl)
      refine h.hear hl rfl rfl (fun r => ?_) ⟨fun hnone => ?_, .inl hw, fun _ _ => .inl hw⟩
      · refine Link.owes_heard ?_ ?_ ?_ r <;> simp [Link.pop, hd, List.countP_cons, Down.renews]
      · obtain ⟨hstage, hno⟩ := haud.pairedOn hnone
        rw [hd] at hno
        exact ⟨hstage, fun hmem => hno (List.mem_cons_of_mem _ hmem)⟩
  | accepted c l down hl hd hw hfree =>
      have hflip : (x.setClient l.role (flippedClient (x.clients l.role))).Lockstep :=
        h.setClient rfl
      refine hflip.modify c fun l' hl' => ?_
      obtain rfl := Option.some.inj (hl.symm.trans hl')
      exact (keeps_pop hd rfl).trans (keeps_putUp _ _)
  | refused c busy l down hl hd hw hbusy =>
      refine h.modify c fun l' hl' => ?_
      obtain rfl := Option.some.inj (hl.symm.trans hl')
      exact (keeps_pop hd rfl).trans (keeps_putUp _ _)
  | granted c busy l down hl hd hw hawait =>
      have hflip : (x.setClient l.role (flippedClient (x.clients l.role))).Lockstep :=
        h.setClient rfl
      refine hflip.modify c fun l' hl' => ?_
      obtain rfl := Option.some.inj (hl.symm.trans hl')
      exact keeps_pop hd rfl
  | denied c busy l down hl hd hw hawait =>
      refine (h.setClient ?_).modify c fun l' hl' => ?_
      · rfl
      · obtain rfl := Option.some.inj (hl.symm.trans hl')
        exact keeps_pop hd rfl
  | lost c l client new hl hsame hretry hnew =>
      have hclosed := h.modify c (f := Link.close) fun l' _ => keeps_of_eq rfl rfl rfl rfl rfl rfl
      have hset : ((x.modify c Link.close).setClient l.role client).Lockstep :=
        hclosed.setClient hsame.epoch
      exact hset.append hnew
  | retried role client new hsame hnew => exact (h.setClient hsame.epoch).append hnew
  -- both clients come to be owed a notice
  | reattached c now l up session hl hu hstage hs => exact h.resume hl hstage hs
  | rejected c now l m up code hl hu hstage hno =>
      refine h.modify c fun l' hl' => ?_
      obtain rfl := Option.some.inj (hl.symm.trans hl')
      have hup : Keeps l (l.popUp up) := keeps_of_eq rfl rfl rfl rfl rfl rfl
      refine (hup.trans (keeps_putDown (m := .notice (.error code)) rfl _)).trans ?_
      refine keeps_leave rfl rfl rfl rfl ?_ (.inr rfl)
      rw [stage_putDown, show (l.popUp up).stage = .opening from hstage]
      exact ⟨by decide, by decide⟩
  | relayed c now l s up other hl hu hstage hother =>
      have htouch : ({ x with session := x.session.touch now } : Paired).Lockstep :=
        h.session fun r c hc => hc
      have hup := htouch.modify c (f := Link.popUp up) fun l' _ => keeps_of_eq rfl rfl rfl rfl rfl rfl
      exact hup.modify other fun l' _ => keeps_putDown rfl l'
  | discarded c now l m up hl hu hstage hno =>
      have htouch : ({ x with session := x.session.touch now } : Paired).Lockstep :=
        h.session fun r c hc => hc
      exact htouch.modify c fun l' _ => keeps_of_eq rfl rfl rfl rfl rfl rfl
  | toldPeer c l other hl hstage hother =>
      -- the other connection is up, so the notice is on its way
      obtain ⟨l', hl', hstage', hb⟩ := hg l hl
      rw [hother] at hl'
      obtain ⟨l'', hl'', hrole⟩ := h.routed _ _ hother
      obtain rfl := Option.some.inj (hl''.symm.trans hl')
      exact h.tell hl hl'' hstage hrole hstage' hb
  | toldNobody c l hl hstage hother =>
      obtain ⟨l', hl', -⟩ := hg l hl
      rw [hother] at hl'
      cases hl'
  | toldSelf c l hl hstage =>
      refine h.modify c fun l' hl' => ?_
      obtain rfl := Option.some.inj (hl.symm.trans hl')
      -- the own connection is up, so the notice is on its way
      exact keeps_toldSelf hstage (hg l hl)
  | dropped c now l hl hstage =>
      refine (h.session fun r d => markDisconnected_connOf).modify c fun l' hl' => ?_
      obtain rfl := Option.some.inj (hl.symm.trans hl')
      refine keeps_leave rfl rfl rfl rfl ?_ (.inl ⟨_, rfl⟩)
      rw [hstage]
      exact ⟨by decide, by decide⟩
  | ended c now l hl hstage =>
      refine h.modify c fun l' hl' => ?_
      obtain rfl := Option.some.inj (hl.symm.trans hl')
      refine keeps_leave rfl rfl rfl rfl ?_ (.inr rfl)
      rw [hstage]
      exact ⟨by decide, by decide⟩
  | toldLeave c l other hl hstage =>
      exact (h.leave hl hstage).modify other fun l' _ => keeps_putDown rfl l'
  | leftAlone c l hl hstage => exact h.leave hl hstage
  | asked role busy client socket hsocket hsame =>
      exact (h.setClient hsame.epoch).modify socket fun l' _ => keeps_putUp _ _
  | clicked role busy client hsame => exact h.setClient hsame.epoch
  | timedOut role client hsame => exact h.setClient hsame.epoch

theorem lockstep_init (token : Bytes) (now : Time) : (init token now).Lockstep := by
  refine ⟨rfl, ?_, fun r c hc => ?_⟩
  · intro l hl
    simp only [init, List.mem_cons, List.not_mem_nil, or_false] at hl
    rcases hl with rfl | rfl
    all_goals exact ⟨fun _ => ⟨rfl, List.not_mem_nil⟩, .inl rfl, fun _ _ => .inl rfl⟩
  · cases r with
    | host =>
        obtain rfl : 0 = c := Option.some.inj hc
        exact ⟨_, rfl, rfl⟩
    | guest =>
        obtain rfl : 1 = c := Option.some.inj hc
        exact ⟨_, rfl, rfl⟩

/-- **Epoch agreement.** In every run on which no notice is lost, two clients
that are still paired have the same epoch once nothing is on its way. -/
theorem epochs_agree (token : Bytes) (now : Time) (es : List Event)
    (hguard : Transition.Guarded (step token) Notified (init token now) es)
    (hrun : Transition.run (step token) (init token now) es = some x) (hcalm : x.Calm) :
    (x.clients .host).epoch = (x.clients .guest).epoch ∧
      ∀ (w : WebCrypto) (sessionKey : Bytes),
        deriveEpochKey w sessionKey (x.clients .host).epoch =
          deriveEpochKey w sessionKey (x.clients .guest).epoch := by
  have hinv : (∀ r, (x.clients r).paired = true) → x.Lockstep := by
    refine Transition.Guarded.invariant (I := fun x : Paired =>
      (∀ r, (x.clients r).paired = true) → x.Lockstep) (fun s e t hs hg ht hp => ?_) hguard
      (fun _ => lockstep_init token now) hrun
    exact lockstep_step (hs fun r => paired_of_step ht r (hp r)) hg ht hp
  have howed : ∀ r, Tally.tally (Link.owes r) x.links = 0 := by
    intro r
    refine Tally.tally_eq_zero.mpr fun l hl => ?_
    obtain ⟨hdown, hattached, hnotified⟩ := hcalm.quiet l hl
    have hstage : ∀ own, l.stage.owes own = 0 := by
      intro own
      cases hs : l.stage with
      | attached => exact absurd hs hattached
      | notified => exact absurd hs hnotified
      | _ => rfl
    rw [Link.owes, hdown, hstage]
    simp
  have hepoch : (x.clients .host).epoch = (x.clients .guest).epoch := by
    have hbalance := (hinv hcalm.paired).balance
    rw [due, due, howed, howed] at hbalance
    exact hbalance
  exact ⟨hepoch, fun w sessionKey => by rw [hepoch]⟩

/-! ## A small session -/

/-- The run in which the guest's connection drops and its first attempt resumes
the slot. -/
def oneDrop : List Event :=
  [.breaks 1 0 0, .lose 1, .readError 1 1, .notifyLeave 1, .deliver 0 false, .opens 2, .read 2 2,
    .notifyPeer 2, .notifySelf 2, .deliver 2 false, .deliver 0 false]

theorem epochs_agree_oneDrop : ∃ x, Transition.run (step [1]) (init [1] 0) oneDrop = some x ∧
    (x.clients .guest).epoch = 1 ∧ (x.clients .host).epoch = (x.clients .guest).epoch := by
  have hguard : Transition.Guarded (step [1]) Notified (init [1] 0) oneDrop := by decide +kernel
  have hrun : (Transition.run (step [1]) (init [1] 0) oneDrop).any (fun x =>
      decide x.Calm && decide ((x.clients .guest).epoch = 1)) = true := by decide +kernel
  obtain ⟨x, hr, hx⟩ := (Option.any_eq_true _ _).mp hrun
  rw [Bool.and_eq_true, decide_eq_true_eq, decide_eq_true_eq] at hx
  exact ⟨x, hr, hx.2, (epochs_agree [1] 0 oneDrop hguard hr hx.1).1⟩

/-- Both connections drop; the host is back before the guest is. -/
def bothDrop : List Event :=
  [.breaks 0 0 0, .breaks 1 0 0, .lose 0, .lose 1, .readError 0 1, .notifyLeave 0, .readError 1 1,
    .notifyLeave 1, .opens 2, .read 2 2, .notifyPeer 2, .notifySelf 2, .deliver 2 false, .opens 3,
    .read 3 3, .notifyPeer 3, .notifySelf 3, .deliver 3 false, .deliver 2 false]

/-- Nobody told the guest of the host's return, and nobody will. -/
theorem epochs_disagree : ∃ x, Transition.run (step [1]) (init [1] 0) bothDrop = some x ∧
    x.Calm ∧ (x.clients .host).epoch = 2 ∧ (x.clients .guest).epoch = 1 := by
  have hrun : (Transition.run (step [1]) (init [1] 0) bothDrop).any (fun x =>
      decide x.Calm && decide ((x.clients .host).epoch = 2 ∧ (x.clients .guest).epoch = 1)) =
      true := by decide +kernel
  obtain ⟨x, hr, hx⟩ := (Option.any_eq_true _ _).mp hrun
  rw [Bool.and_eq_true, decide_eq_true_eq, decide_eq_true_eq] at hx
  exact ⟨x, hr, hx.1, hx.2.1, hx.2.2⟩

end Paired

end Quicksend
