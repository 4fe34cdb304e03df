import Quicksend.Paired.Steps
import Quicksend.Lib.Transition

/-!
# Attempts that find their slot free

A client takes any error for an answer as the end of its session. The relay
errs on a slot that it still believes connected, so an attempt may only reach
it after the drop did.
-/

namespace Quicksend

open Pairing (Client Signal Notice Down Up)
open Server (Session)

/-- A message that could end the session for its client. -/
def Pairing.Down.terminal : Down → Bool
  | .notice (.sessionEnded _) | .notice (.error _) => true
  | _ => false

theorem terminal_of {l : Link} {m : Down} (h : Paired.Terminal l m) : m.terminal = true := by
  cases m with
  | signal s => cases h
  | notice n => cases n <;> first | rfl | cases h

/-- Nothing on this connection will end the session, and its first message will
be the request to resume it. -/
structure Link.Resumable (l : Link) : Prop where
  benign : ∀ m ∈ l.down, m.terminal = false
  asks : l.stage = .opening → ∀ m ∈ l.up, m = .reconnect
  through : l.wired = true ∨ .notice .reconnected ∈ l.down → l.stage ≠ .opening

/-! ## What a step does to one connection -/

theorem Link.Resumable.putUp {l : Link} (h : l.Resumable) {m : Up}
    (hm : m = .reconnect ∨ l.stage ≠ .opening) : (l.putUp m).Resumable := by
  unfold Link.putUp
  split
  next => exact h
  next =>
    refine ⟨h.benign, fun hstage m' hm' => ?_, h.through⟩
    rcases List.mem_append.mp hm' with hold | hnew
    · exact h.asks hstage m' hold
    · rw [List.mem_singleton.mp hnew]
      exact hm.resolve_right (not_not_intro hstage)

theorem Link.Resumable.putDown {l : Link} (h : l.Resumable) {m : Down} (hm : m.terminal = false)
    (hthrough : m ≠ .notice .reconnected) : (l.putDown m).Resumable := by
  unfold Link.putDown
  split
  next => exact h
  next =>
    refine ⟨fun m' hm' => ?_, h.asks, fun hon => h.through (hon.imp_right fun hmem => ?_)⟩
    · rcases List.mem_append.mp hm' with hold | hnew
      · exact h.benign m' hold
      · rw [List.mem_singleton.mp hnew]
        exact hm
    · refine (List.mem_append.mp hmem).resolve_right fun hlast => ?_
      exact hthrough (List.mem_singleton.mp hlast).symm

theorem Link.Resumable.pop {l : Link} (h : l.Resumable) {m : Down} {down : List Down}
    (hd : l.down = m :: down) : (l.pop down).Resumable := by
  have hsub : ∀ m' ∈ down, m' ∈ l.down := fun m' hm' => by
    rw [hd]
    exact List.mem_cons_of_mem _ hm'
  exact ⟨fun m' hm' => h.benign m' (hsub m' hm'), h.asks,
    fun hon => h.through (hon.imp_right fun hmem => hsub _ hmem)⟩

/-- A handler that has come further. -/
theorem Link.Resumable.advance {l l' : Link} (h : l.Resumable) (hdown : l'.down = l.down)
    (hstage : l'.stage ≠ .opening) : l'.Resumable :=
  ⟨fun m hm => h.benign m (hdown ▸ hm), fun hopen => absurd hopen hstage, fun _ => hstage⟩

/-- Less to read on the same connection. -/
theorem Link.Resumable.shrink {l l' : Link} (h : l.Resumable) (hdown : ∀ m ∈ l'.down, m ∈ l.down)
    (hup : ∀ m ∈ l'.up, m ∈ l.up) (hwired : l'.wired = l.wired) (hstage : l'.stage = l.stage) :
    l'.Resumable := by
  refine ⟨fun m hm => h.benign m (hdown m hm), fun hopen m hm => ?_, fun hon => ?_⟩
  · exact h.asks (hstage ▸ hopen) m (hup m hm)
  · rw [hstage]
    rw [hwired] at hon
    exact h.through (hon.imp_right fun hmem => hdown _ hmem)

namespace Paired

variable {token : Bytes} {x y : Paired}

/-- Both peers are in their slots, and each has registered its reconnect token at
the relay. -/
def Registered (token : Bytes) (s : Session) : Prop :=
  ∀ r, ∃ p, s.peers r = some p ∧ p.reconnectToken = token

/-- What lets an attempt resume its slot: both tokens are registered, every socket
is in order, and an active one has got past opening. -/
structure Resumable (token : Bytes) (x : Paired) : Prop where
  registered : Registered token x.session
  links : ∀ l ∈ x.links, l.Resumable
  active : ∀ r c, (x.clients r).activeSocket = some c →
    ∃ l, x.links[c]? = some l ∧ l.stage ≠ .opening

/-- The relay handles an attempt after it has handled the drop. -/
def DropSeen (x : Paired) : Event → Prop
  | .read c _ => ∀ l ∈ x.links[c]?, l.stage = .opening → x.session.connected l.role = false
  | _ => True

instance (x : Paired) (e : Event) : Decidable (x.DropSeen e) := by
  unfold DropSeen
  split <;> infer_instance

/-! ## The session keeps the tokens -/

theorem Registered.update {s t : Session} {role : Role} {p : Server.Peer} (h : Registered token s)
    (ht : t.peers = Function.update s.peers role (some p)) (hp : p.reconnectToken = token) :
    Registered token t := by
  intro r
  rw [ht]
  by_cases hr : r = role
  · rw [hr, Function.update_self]
    exact ⟨p, rfl, hp⟩
  · rw [Function.update_of_ne hr]
    exact h r

theorem Registered.markDisconnected {s : Session} (h : Registered token s) (role : Role)
    (now : Time) : Registered token (s.markDisconnected role now).1 := by
  obtain ⟨p, hp, htoken⟩ := h role
  have hmark : (s.markDisconnected role now).1 = { s with
      peers := Function.update s.peers role (some { p with disconnectedAt := some now }) } := by
    rw [Session.markDisconnected, hp]
  rw [hmark]
  exact h.update rfl htoken

/-- A free slot is resumed by the registered token. -/
theorem Registered.reattach {s : Session} (h : Registered token s) (htoken : token ≠ [])
    {role : Role} (hfree : s.connected role = false) (c : ConnId) (ip : String) (now : Time) :
    ∃ t, s.reattach role token c ip now = some t := by
  obtain ⟨p, hp, hsame⟩ := h role
  have hdown : p.connected = false := by
    rw [Session.connected, hp] at hfree
    simpa using hfree
  rw [Session.reattach, hp]
  simp [hdown, hsame, htoken]

theorem Registered.of_reattach {s t : Session} {role : Role} {c : ConnId} {ip : String} {now : Time}
    (h : Registered token s) (ht : s.reattach role token c ip now = some t) :
    Registered token t := by
  obtain ⟨p, hp, hsame⟩ := h role
  rw [Session.reattach, hp] at ht
  dsimp only at ht
  split at ht
  next => cases ht
  next =>
    split at ht
    next => cases ht
    next =>
      obtain rfl := Option.some.inj ht
      exact h.update rfl hsame

/-! ## What a step does to the session -/

/-- One connection changes, and does not go back. -/
theorem Resumable.modify (h : x.Resumable token) (c : ConnId) {f : Link → Link}
    (hf : ∀ l, x.links[c]? = some l → l.Resumable →
      (f l).Resumable ∧ (l.stage ≠ .opening → (f l).stage ≠ .opening)) :
    (x.modify c f).Resumable token := by
  refine ⟨h.registered, fun l hl => ?_, fun r d hd => ?_⟩
  · obtain ⟨i, hi⟩ := List.mem_iff_getElem?.mp hl
    obtain ⟨l', hl', rfl⟩ := Tally.getElem?_modify_eq_some hi
    have hres := h.links l' (List.mem_of_getElem? hl')
    split
    next hc => exact (hf l' (hc ▸ hl') hres).1
    next => exact hres
  · obtain ⟨l, hl, hstage⟩ := h.active r d hd
    refine ⟨if c = d then f l else l, ?_, ?_⟩
    · rw [Paired.modify, List.getElem?_modify, hl]
      rfl
    · split
      next hc => exact (hf l (hc ▸ hl) (h.links l (List.mem_of_getElem? hl))).2 hstage
      next => exact hstage

theorem Resumable.session (h : x.Resumable token) {session : Session}
    (hs : Registered token session) : ({ x with session := session } : Paired).Resumable token :=
  ⟨hs, h.links, h.active⟩

theorem Resumable.setClient (h : x.Resumable token) {role : Role} {client : Client}
    (hsocket : ∀ c, client.activeSocket = some c →
      ∃ l, x.links[c]? = some l ∧ l.stage ≠ .opening) :
    (x.setClient role client).Resumable token := by
  refine ⟨h.registered, h.links, fun r c hc => ?_⟩
  have hc' : (Function.update x.clients role client r).activeSocket = some c := hc
  by_cases hr : r = role
  · rw [hr, Function.update_self] at hc'
    exact hsocket c hc'
  · rw [Function.update_of_ne hr] at hc'
    exact h.active r c hc'

/-- A client with the same socket, or none. -/
theorem Resumable.setSame (h : x.Resumable token) {role : Role} {client : Client}
    (hsocket : client.activeSocket = (x.clients role).activeSocket ∨ client.activeSocket = none) :
    (x.setClient role client).Resumable token := by
  refine h.setClient fun c hc => ?_
  rcases hsocket with hsame | hnone
  · exact h.active role c (hsame ▸ hc)
  · rw [hnone] at hc
    cases hc

theorem resumable_connect (role : Role) (attempt : Nat) : (Link.connect role attempt).Resumable :=
  ⟨by simp [Link.connect], by simp [Link.connect], by simp [Link.connect]⟩

theorem Resumable.append (h : x.Resumable token) {new : List Link}
    (hnew : ∀ l ∈ new, ∃ role attempt, l = Link.connect role attempt) :
    ({ x with links := x.links ++ new } : Paired).Resumable token := by
  refine ⟨h.registered, fun l hl => ?_, fun r c hc => ?_⟩
  · rcases List.mem_append.mp hl with hl | hl
    · exact h.links l hl
    · obtain ⟨role, attempt, rfl⟩ := hnew l hl
      exact resumable_connect role attempt
  · obtain ⟨l, hl, hstage⟩ := h.active r c hc
    refine ⟨l, ?_, hstage⟩
    dsimp only
    rw [List.getElem?_append_left (List.getElem?_eq_some_iff.mp hl).1]
    exact hl

theorem Resumable.shut (h : x.Resumable token) (closes : Option ConnId) :
    (x.closeSocket closes).Resumable token := by
  cases closes with
  | none => exact h
  | some c =>
      refine h.modify c fun l _ hres => ⟨?_, id⟩
      exact hres.shrink (by simp [Link.shut]) (fun _ hm => hm) rfl rfl

theorem stage_putUp (m : Up) (l : Link) : (l.putUp m).stage = l.stage := by
  unfold Link.putUp
  split <;> rfl

/-- A message is put on some connection. -/
theorem Resumable.tell (h : x.Resumable token) (c : ConnId) {m : Down} (hm : m.terminal = false)
    (hthrough : m ≠ .notice .reconnected) : (x.modify c (Link.putDown m)).Resumable token := by
  refine h.modify c fun l _ hres => ⟨hres.putDown hm hthrough, fun hstage => ?_⟩
  unfold Link.putDown
  split <;> exact hstage

theorem Resumable.advance (h : x.Resumable token) (c : ConnId) {f : Link → Link}
    (hf : ∀ l, (f l).down = l.down ∧ (f l).stage ≠ .opening) : (x.modify c f).Resumable token :=
  h.modify c fun l _ hres => ⟨hres.advance (hf l).1 (hf l).2, fun _ => (hf l).2⟩

theorem mem_putDown {m m' : Down} {l : Link} (h : m ∈ (l.putDown m').down) :
    m ∈ l.down ∨ m = m' := by
  unfold Link.putDown at h
  split at h
  next => exact .inl h
  next => exact (List.mem_append.mp h).imp_right List.mem_singleton.mp

theorem Resumable.close (h : x.Resumable token) (c : ConnId) :
    (x.modify c Link.close).Resumable token := by
  refine h.modify c fun l' _ hres => ⟨?_, id⟩
  exact hres.shrink (fun _ hm => hm) (fun _ hm => hm) rfl rfl

theorem Resumable.pop (h : x.Resumable token) {c : ConnId} {l : Link} {m : Down} {down : List Down}
    (hl : x.links[c]? = some l) (hd : l.down = m :: down) :
    (x.modify c (Link.pop down)).Resumable token := by
  refine h.modify c fun l' hl' hres => ⟨?_, id⟩
  obtain rfl := Option.some.inj (hl.symm.trans hl')
  exact hres.pop hd

/-- A listener of `wirePairedSocket` answers. -/
theorem Resumable.answer (h : x.Resumable token) {c : ConnId} {l : Link} {m : Down}
    {down : List Down} (hl : x.links[c]? = some l) (hd : l.down = m :: down)
    (hw : l.wired = true) (answer : Up) :
    (x.modify c fun l => (l.pop down).putUp answer).Resumable token := by
  refine h.modify c fun l' hl' hres => ?_
  obtain rfl := Option.some.inj (hl.symm.trans hl')
  have hstage := hres.through (.inl hw)
  refine ⟨(hres.pop hd).putUp (.inr hstage), fun _ => ?_⟩
  rw [stage_putUp]
  exact hstage

theorem Resumable.popUp (h : x.Resumable token) (c : ConnId) {l : Link} {m : Up} {up : List Up}
    (hu : l.up = m :: up) (hl : x.links[c]? = some l) :
    (x.modify c (Link.popUp up)).Resumable token := by
  refine h.modify c fun l' hl' hres => ⟨?_, id⟩
  obtain rfl := Option.some.inj (hl.symm.trans hl')
  refine hres.shrink (fun _ hm => hm) (fun m' hm => ?_) rfl rfl
  rw [hu]
  exact List.mem_cons_of_mem _ hm

theorem resumable_step (htoken : token ≠ []) {e : Event} (h : x.Resumable token)
    (hg : x.DropSeen e) (hstep : step token x e = some y) : y.Resumable token := by
  cases step_spec hstep with
  | broke c keepUp keepDown l hl hb =>
      refine h.modify c fun l' _ hres => ⟨?_, id⟩
      exact hres.shrink (fun m hm => List.mem_of_mem_take hm) (fun m hm => List.mem_of_mem_take hm)
        rfl rfl
  | opened c l hl hb =>
      refine h.modify c fun l' _ hres => ⟨?_, fun hstage => ?_⟩
      · exact (hres.putUp (.inl rfl)).shrink (fun _ hm => hm) (fun _ hm => hm) rfl rfl
      · exact stage_putUp .reconnect l' ▸ hstage
  | unheard c busy l m down hl hd hgone => exact h.pop hl hd
  | leftHearing c busy l m down hl hd hm =>
      -- nothing on the connection ends the session
      have hbenign := (h.links l (List.mem_of_getElem? hl)).benign m (by rw [hd]; simp)
      rw [terminal_of hm] at hbenign
      cases hbenign
  | leftLosing c l attempt hl hatt hmax =>
      have hclosed := h.close c
      have hset : ((x.modify c Link.close).setClient l.role
          (x.clients l.role).setState.client).Resumable token := hclosed.setSame (.inr rfl)
      exact hset.shut (x.clients l.role).activeSocket
  | ignored c busy l m down hl hd hno => exact h.pop hl hd
  | resumed c busy l down hl hd hatt =>
      have hres := h.links l (List.mem_of_getElem? hl)
      -- a `reconnected` was sent by a handler that is past its first message
      have hstage : l.stage ≠ .opening := hres.through (.inr (by rw [hd]; simp))
      have hset : (x.setClient l.role (resumedClient (x.clients l.role) c)).Resumable token :=
        h.setClient fun d hd' => ⟨l, Option.some.inj hd' ▸ hl, hstage⟩
      refine hset.modify c fun l' hl' hres' => ?_
      obtain rfl := Option.some.inj (hl.symm.trans hl')
      exact ⟨⟨(hres'.pop hd).benign, hres'.asks, fun _ => hstage⟩, id⟩
  | renewed c busy l down hl hd hw =>
      have hset : (x.setClient l.role { x.clients l.role with
          epoch := (x.clients l.role).epoch + 1, swapAwaitingResponse := false }).Resumable token :=
        h.setSame (.inl rfl)
      exact hset.pop hl hd
  | accepted c l down hl hd hw hfree =>
      have hset : (x.setClient l.role (flippedClient (x.clients l.role))).Resumable token :=
        h.setSame (.inl rfl)
      exact hset.answer hl hd hw _
  | refused c busy l down hl hd hw hbusy => exact h.answer hl hd hw _
  | granted c busy l down hl hd hw hawait =>
      have hset : (x.setClient l.role (flippedClient (x.clients l.role))).Resumable token :=
        h.setSame (.inl rfl)
      exact hset.pop hl hd
  | denied c busy l down hl hd hw hawait =>
      have hset : (x.setClient l.role { x.clients l.role with
          swapAwaitingResponse := false }).Resumable token := h.setSame (.inl rfl)
      exact hset.pop hl hd
  | lost c l client new hl hclient hretry hnew =>
      have hset : ((x.modify c Link.close).setClient l.role client).Resumable token :=
        (h.close c).setSame hclient.socket
      exact hset.append hnew
  | retried role client new hclient hnew => exact (h.setSame hclient.socket).append hnew
  | reattached c now l up session hl hu hstage hs =>
      refine (h.session (h.registered.of_reattach hs)).advance c fun l => ?_
      exact ⟨rfl, Stage.noConfusion⟩
  | rejected c now l m up code hl hu hstage hno =>
      have hm := (h.links l (List.mem_of_getElem? hl)).asks hstage m (by rw [hu]; simp)
      -- the slot is free and the token is the registered one, so it cannot be refused
      obtain ⟨session, hs⟩ := h.registered.reattach htoken (hg l hl hstage) c "" now
      rw [hno hm] at hs
      cases hs
  | relayed c now l s up other hl hu hstage hother =>
      have htouch : ({ x with session := x.session.touch now } : Paired).Resumable token :=
        h.session h.registered
      have hread := htouch.popUp c hu hl
      exact hread.tell other rfl Down.noConfusion
  | discarded c now l m up hl hu hstage hno =>
      have htouch : ({ x with session := x.session.touch now } : Paired).Resumable token :=
        h.session h.registered
      exact htouch.popUp c hu hl
  | toldPeer c l other hl hstage hother =>
      have htold : (x.modify c (Link.setStage .notified)).Resumable token :=
        h.advance c fun l => ⟨rfl, Stage.noConfusion⟩
      exact htold.tell other rfl (by decide)
  | toldNobody c l hl hstage hother => exact h.advance c fun l => ⟨rfl, Stage.noConfusion⟩
  | toldSelf c l hl hstage =>
      refine h.modify c fun l' _ hres => ⟨?_, fun _ => Stage.noConfusion⟩
      refine ⟨fun m hm => ?_, fun hopen => Stage.noConfusion hopen, fun _ => Stage.noConfusion⟩
      -- `reconnected` ends nothing, and its handler is through
      rcases mem_putDown hm with hold | rfl
      · exact hres.benign m hold
      · rfl
  | dropped c now l hl hstage =>
      refine (h.session (h.registered.markDisconnected l.role now)).advance c fun l => ?_
      exact ⟨rfl, Stage.noConfusion⟩
  | ended c now l hl hstage => exact h.advance c fun l => ⟨rfl, Stage.noConfusion⟩
  | toldLeave c l other hl hstage =>
      have hdone : (x.modify c (Link.setStage .finished)).Resumable token :=
        h.advance c fun l => ⟨rfl, Stage.noConfusion⟩
      exact hdone.tell other rfl (by decide)
  | leftAlone c l hl hstage => exact h.advance c fun l => ⟨rfl, Stage.noConfusion⟩
  | asked role busy client socket hsocket hclient =>
      have hset : (x.setClient role client).Resumable token := h.setSame hclient.socket
      -- a request goes only to a connection whose handler has read its first message
      obtain ⟨l, hl, hstage⟩ := h.active role socket hsocket
      refine hset.modify socket fun l' hl' hres => ?_
      obtain rfl := Option.some.inj (hl.symm.trans hl')
      exact ⟨hres.putUp (.inr hstage), fun hstage => stage_putUp _ l ▸ hstage⟩
  | clicked role busy client hclient => exact h.setSame hclient.socket
  | timedOut role client hclient => exact h.setSame hclient.socket

/-! ## What follows for an attempt -/

theorem paired_deliver {c : ConnId} {busy : Bool} (h : x.Resumable token)
    (hstep : step token x (.deliver c busy) = some y) (r : Role)
    (hp : (x.clients r).paired = true) : (y.clients r).paired = true := by
  cases step_spec hstep with
  | leftHearing _ _ l m down hl hd hm =>
      have hbenign := (h.links l (List.mem_of_getElem? hl)).benign m (by rw [hd]; simp)
      rw [terminal_of hm] at hbenign
      cases hbenign
  | resumed | renewed | accepted | granted | denied =>
      refine (paired_update ?_ r).trans hp
      rfl
  | unheard | ignored | refused => exact hp

theorem lose_followed {c : ConnId} {l : Link} {attempt : Nat}
    (hstep : step token x (.lose c) = some y) (hl : x.links[c]? = some l)
    (hatt : l.attempt = some attempt) (hp : (x.clients l.role).paired = true)
    (hfew : attempt < Pairing.RECONNECT_MAX_ATTEMPTS) :
    (y.clients l.role).paired = true ∧ ((x.clients l.role).activeSocket = some c ∨
      attempt + 1 ∈ (y.clients l.role).retries) := by
  cases step_spec hstep with
  | leftLosing _ l' attempt' hl' hatt' hmax =>
      obtain rfl := Option.some.inj (hl.symm.trans hl')
      obtain rfl := Option.some.inj (hatt.symm.trans hatt')
      omega
  | lost _ l' client new hl' hclient hretry hnew =>
      obtain rfl := Option.some.inj (hl.symm.trans hl')
      have hself : (Function.update x.clients l.role client) l.role = client :=
        Function.update_self _ _ _
      refine ⟨?_, ?_⟩
      · change (Function.update x.clients l.role client l.role).paired = true
        rw [hself, hclient.paired, hp]
      · change _ ∨ attempt + 1 ∈ (Function.update x.clients l.role client l.role).retries
        rw [hself]
        exact hretry attempt hatt hp

theorem read_attached {c : ConnId} {now : Time} {l : Link} (htoken : token ≠ [])
    (h : x.Resumable token) (hg : x.DropSeen (.read c now))
    (hstep : step token x (.read c now) = some y) (hl : x.links[c]? = some l)
    (hopen : l.stage = .opening) : ∃ l', y.links[c]? = some l' ∧ l'.stage = .attached := by
  cases step_spec hstep with
  | reattached _ _ l' up session hl' hu hstage hs =>
      obtain rfl := Option.some.inj (hl.symm.trans hl')
      exact ⟨l.attach up, Tally.getElem?_modify_self hl _, rfl⟩
  | rejected _ _ l' m up code hl' hu hstage hno =>
      obtain rfl := Option.some.inj (hl.symm.trans hl')
      have hm := (h.links l (List.mem_of_getElem? hl)).asks hstage m (by rw [hu]; simp)
      obtain ⟨session, hs⟩ := h.registered.reattach htoken (hg l hl hstage) c "" now
      rw [hno hm] at hs
      cases hs
  | relayed _ _ l' s up other hl' hu hstage hother =>
      obtain rfl := Option.some.inj (hl.symm.trans hl')
      rw [hopen] at hstage
      cases hstage
  | discarded _ _ l' m up hl' hu hstage hno =>
      obtain rfl := Option.some.inj (hl.symm.trans hl')
      rw [hopen] at hstage
      cases hstage

theorem resumable_init (token : Bytes) (now : Time) : (init token now).Resumable token := by
  refine ⟨fun r => ?_, fun l hl => ?_, fun r c hc => ?_⟩
  · cases r <;> exact ⟨_, rfl, rfl⟩
  · simp only [init, List.mem_cons, List.not_mem_nil, or_false] at hl
    rcases hl with rfl | rfl
    all_goals
      exact ⟨fun _ hm => absurd hm List.not_mem_nil, Stage.noConfusion, fun _ => Stage.noConfusion⟩
  · cases r with
    | host =>
        obtain rfl : 0 = c := Option.some.inj hc
        exact ⟨_, rfl, Stage.noConfusion⟩
    | guest =>
        obtain rfl : 1 = c := Option.some.inj hc
        exact ⟨_, rfl, Stage.noConfusion⟩

/-- **No lock-out.** In every run in which the relay handles no attempt before
the drop it follows, every attempt that the relay reads resumes its slot, no
answer ends the session for its client, and an attempt whose socket closes has
succeeded or is retried, until the last one. -/
theorem attempts_resumed_or_retried (token : Bytes) (htoken : token ≠ []) (now : Time)
    (es : List Event) (hguard : Transition.Guarded (step token) DropSeen (init token now) es)
    (hrun : Transition.run (step token) (init token now) es = some x) :
    (∀ c now' l y, x.DropSeen (.read c now') → step token x (.read c now') = some y →
      x.links[c]? = some l → l.stage = .opening →
        ∃ l', y.links[c]? = some l' ∧ l'.stage = .attached) ∧
    (∀ c busy y, step token x (.deliver c busy) = some y →
      ∀ r, (x.clients r).paired = true → (y.clients r).paired = true) ∧
    ∀ c l attempt y, step token x (.lose c) = some y → x.links[c]? = some l →
      l.attempt = some attempt → (x.clients l.role).paired = true →
      attempt < Pairing.RECONNECT_MAX_ATTEMPTS →
        (y.clients l.role).paired = true ∧
          ((x.clients l.role).activeSocket = some c ∨ attempt + 1 ∈ (y.clients l.role).retries) := by
  have hres : x.Resumable token :=
    hguard.invariant (fun s e t hs hg ht => resumable_step htoken hs hg ht)
      (resumable_init token now) hrun
  refine ⟨fun c now' l y hg hstep hl hopen => ?_, fun c busy y hstep => ?_,
    fun c l attempt y hstep hl hatt hp hfew => ?_⟩
  · exact read_attached htoken hres hg hstep hl hopen
  · exact paired_deliver hres hstep
  · exact lose_followed hstep hl hatt hp hfew

/-! ## A small session -/

/-- The guest's connection drops, the relay sees it, and an attempt is under way. -/
def seenDrop : List Event :=
  [.breaks 1 0 0, .lose 1, .readError 1 1, .notifyLeave 1, .opens 2, .read 2 2, .notifyPeer 2,
    .notifySelf 2]

theorem attempts_resumed_or_retried_seenDrop : ∃ x y,
    Transition.run (step [1]) (init [1] 0) seenDrop = some x ∧
      step [1] x (.deliver 2 false) = some y ∧ (y.clients .guest).paired = true := by
  have hguard : Transition.Guarded (step [1]) DropSeen (init [1] 0) seenDrop := by decide +kernel
  have hrun : (Transition.run (step [1]) (init [1] 0) seenDrop).any (fun x =>
      (step [1] x (.deliver 2 false)).isSome && (x.clients .guest).paired) = true := by
    decide +kernel
  obtain ⟨x, hr, hx⟩ := (Option.any_eq_true _ _).mp hrun
  rw [Bool.and_eq_true] at hx
  obtain ⟨y, hy⟩ := Option.isSome_iff_exists.mp hx.1
  have hall := attempts_resumed_or_retried [1] (by decide) 0 seenDrop hguard hr
  exact ⟨x, y, hr, hy, hall.2.1 2 false y hy .guest hx.2⟩

/-- The guest is back before the relay has seen it go. -/
def earlyAttempt : List Event :=
  [.breaks 1 0 0, .lose 1, .opens 2, .read 2 1, .deliver 2 false]

/-- One attempt, with the registered token and a free peer, and the session is
over for the guest. -/
theorem locked_out_early : ∃ x, Transition.run (step [1]) (init [1] 0) earlyAttempt = some x ∧
    (x.clients .guest).paired = false ∧ x.links.length = 3 ∧
      (x.session.peers .guest).map Server.Peer.reconnectToken = some [1] := by
  have hrun : (Transition.run (step [1]) (init [1] 0) earlyAttempt).any (fun x =>
      decide ((x.clients .guest).paired = false ∧ x.links.length = 3 ∧
        (x.session.peers .guest).map Server.Peer.reconnectToken = some [1])) = true := by
    decide +kernel
  obtain ⟨x, hr, hx⟩ := (Option.any_eq_true _ _).mp hrun
  exact ⟨x, hr, of_decide_eq_true hx⟩

end Paired

end Quicksend
