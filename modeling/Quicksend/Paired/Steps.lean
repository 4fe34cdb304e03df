import Quicksend.Paired
import Quicksend.Lib.Tally

/-!
# What one step of the paired session can do

The inversion of `Paired.step`: one constructor for each way through the
listeners and the handlers.
-/

namespace Quicksend

open Pairing (Client Reaction Signal Notice Down Up)
open Server (Session)

namespace Link

/-- The next message on its way to the client has been dispatched, and `down` is
what remains. -/
def pop (down : List Down) (l : Link) : Link := { l with down := down }

/-- The relay has taken the first message off this socket's way up, and `up` is
what remains. -/
def popUp (up : List Up) (l : Link) : Link := { l with up := up }

/-- The close event of this socket is over; its listeners will not be called
again. -/
def close (l : Link) : Link := { l with closed := true }

/-- The relay has resumed the slot on this connection, and has yet to tell both
sides of it. -/
def attach (up : List Up) (l : Link) : Link := { l with up := up, stage := .attached }

end Link

namespace Paired

variable {token : Bytes} {x y : Paired}

/-- No listener of the socket does anything about this message. -/
def Unheard (client : Client) (l : Link) : Down → Prop
  | .notice .reconnected => l.attempt = none
  | .notice .peerReconnected | .signal .roleSwapRequest => l.wired = false
  | .signal (.roleSwapResponse _) => l.wired = false ∨ client.swapAwaitingResponse = false
  | .notice _ => True

/-- The client after `reconnected` on socket `c`: the socket is active, and the
epoch has gone up by one. -/
def resumedClient (client : Client) (c : ConnId) : Client :=
  { client with
    activeSocket := some c
    epoch := client.epoch + 1
    swapAwaitingResponse := false }

/-- The client after it flipped its transfer role, which also ends its waiting for
an answer. -/
def flippedClient (client : Client) : Client :=
  { client with transferRole := client.transferRole.flip, swapAwaitingResponse := false }

/-- The epoch and the roles are the same in both clients. -/
structure SameRoles (client client' : Client) : Prop where
  paired : client'.paired = client.paired
  epoch : client'.epoch = client.epoch
  transferRole : client'.transferRole = client.transferRole
  socket : client'.activeSocket = client.activeSocket ∨ client'.activeSocket = none

/-- A message on which the client leaves the paired screen. -/
def Terminal (l : Link) : Down → Prop
  | .notice (.sessionEnded _) => l.wired = true
  | .notice (.error _) => l.attempt.isSome = true
  | _ => False

/-- The attempt on socket `c` has succeeded, or the next one is due. -/
def FollowedUp (l : Link) (c : ConnId) (client client' : Client) : Prop :=
  ∀ attempt, l.attempt = some attempt → client.paired = true →
    client.activeSocket = some c ∨ attempt + 1 ∈ client'.retries

/-- All that a step of the paired session can do, one constructor for each outcome
with its guards, so that no proof has to unfold `step`. -/
inductive Steps (token : Bytes) (x : Paired) : Event → Paired → Prop where
  | broke (c : ConnId) (keepUp keepDown : Nat) (l : Link) (hl : x.links[c]? = some l)
      (hb : l.broken = false) :
      Steps token x (.breaks c keepUp keepDown) (x.modify c (Link.break_ keepUp keepDown))
  | opened (c : ConnId) (l : Link) (hl : x.links[c]? = some l) (hb : l.broken = false) :
      Steps token x (.opens c) (x.modify c fun l => { (l.putUp .reconnect) with opened := true })
  | unheard (c : ConnId) (busy : Bool) (l : Link) (m : Down) (down : List Down)
      (hl : x.links[c]? = some l) (hd : l.down = m :: down)
      (hgone : (x.clients l.role).paired = false) :
      Steps token x (.deliver c busy) (x.modify c (Link.pop down))
  | leftHearing (c : ConnId) (busy : Bool) (l : Link) (m : Down) (down : List Down)
      (hl : x.links[c]? = some l) (hd : l.down = m :: down) (hm : Terminal l m) :
      Steps token x (.deliver c busy)
        ((x.modify c (Link.pop down)).react l.role c (x.clients l.role).setState)
  | leftLosing (c : ConnId) (l : Link) (attempt : Nat) (hl : x.links[c]? = some l)
      (hatt : l.attempt = some attempt) (hmax : attempt ≥ Pairing.RECONNECT_MAX_ATTEMPTS) :
      Steps token x (.lose c)
        ((x.modify c Link.close).react l.role c (x.clients l.role).setState)
  | ignored (c : ConnId) (busy : Bool) (l : Link) (m : Down) (down : List Down)
      (hl : x.links[c]? = some l) (hd : l.down = m :: down)
      (hno : Unheard (x.clients l.role) l m) :
      Steps token x (.deliver c busy) (x.modify c (Link.pop down))
  | resumed (c : ConnId) (busy : Bool) (l : Link) (down : List Down) (hl : x.links[c]? = some l)
      (hd : l.down = .notice .reconnected :: down) (hatt : l.attempt.isSome = true) :
      Steps token x (.deliver c busy)
        ((x.setClient l.role (resumedClient (x.clients l.role) c)).modify c
          fun l => { l.pop down with wired := true })
  | renewed (c : ConnId) (busy : Bool) (l : Link) (down : List Down) (hl : x.links[c]? = some l)
      (hd : l.down = .notice .peerReconnected :: down) (hw : l.wired = true) :
      Steps token x (.deliver c busy)
        ((x.setClient l.role { x.clients l.role with
          epoch := (x.clients l.role).epoch + 1, swapAwaitingResponse := false }).modify c
          (Link.pop down))
  | accepted (c : ConnId) (l : Link) (down : List Down) (hl : x.links[c]? = some l)
      (hd : l.down = .signal .roleSwapRequest :: down) (hw : l.wired = true)
      (hfree : (x.clients l.role).swapAwaitingResponse = false) :
      Steps token x (.deliver c false)
        ((x.setClient l.role (flippedClient (x.clients l.role))).modify c
          fun l => (l.pop down).putUp (.signal (.roleSwapResponse true)))
  | refused (c : ConnId) (busy : Bool) (l : Link) (down : List Down) (hl : x.links[c]? = some l)
      (hd : l.down = .signal .roleSwapRequest :: down) (hw : l.wired = true)
      (hbusy : (busy || (x.clients l.role).swapAwaitingResponse) = true) :
      Steps token x (.deliver c busy)
        (x.modify c fun l => (l.pop down).putUp (.signal (.roleSwapResponse false)))
  | granted (c : ConnId) (busy : Bool) (l : Link) (down : List Down) (hl : x.links[c]? = some l)
      (hd : l.down = .signal (.roleSwapResponse true) :: down) (hw : l.wired = true)
      (hawait : (x.clients l.role).swapAwaitingResponse = true) :
      Steps token x (.deliver c busy)
        ((x.setClient l.role (flippedClient (x.clients l.role))).modify c (Link.pop down))
  | denied (c : ConnId) (busy : Bool) (l : Link) (down : List Down) (hl : x.links[c]? = some l)
      (hd : l.down = .signal (.roleSwapResponse false) :: down) (hw : l.wired = true)
      (hawait : (x.clients l.role).swapAwaitingResponse = true) :
      Steps token x (.deliver c busy)
        ((x.setClient l.role { x.clients l.role with swapAwaitingResponse := false }).modify c
          (Link.pop down))
  | lost (c : ConnId) (l : Link) (client : Client) (new : List Link) (hl : x.links[c]? = some l)
      (hclient : SameRoles (x.clients l.role) client)
      (hretry : FollowedUp l c (x.clients l.role) client)
      (hnew : ∀ l' ∈ new, ∃ role attempt, l' = Link.connect role attempt) :
      Steps token x (.lose c)
        { (x.modify c Link.close).setClient l.role client with
          links := (x.modify c Link.close).links ++ new }
  | retried (role : Role) (client : Client) (new : List Link)
      (hclient : SameRoles (x.clients role) client)
      (hnew : ∀ l' ∈ new, ∃ role attempt, l' = Link.connect role attempt) :
      Steps token x (.retry role) { x.setClient role client with links := x.links ++ new }
  | reattached (c : ConnId) (now : Time) (l : Link) (up : List Up) (session : Session)
      (hl : x.links[c]? = some l) (hu : l.up = .reconnect :: up) (hstage : l.stage = .opening)
      (hs : x.session.reattach l.role token c "" now = some session) :
      Steps token x (.read c now)
        ({ x with session := session }.modify c (Link.attach up))
  | rejected (c : ConnId) (now : Time) (l : Link) (m : Up) (up : List Up) (code : String)
      (hl : x.links[c]? = some l) (hu : l.up = m :: up) (hstage : l.stage = .opening)
      (hno : m = .reconnect → x.session.reattach l.role token c "" now = none) :
      Steps token x (.read c now)
        (x.modify c fun l => (l.popUp up).refuse code)
  | relayed (c : ConnId) (now : Time) (l : Link) (s : Signal) (up : List Up) (other : ConnId)
      (hl : x.links[c]? = some l) (hu : l.up = .signal s :: up) (hstage : l.stage = .serving)
      (hother : x.session.connOf l.role.other = some other) :
      Steps token x (.read c now)
        (({ x with session := x.session.touch now }.modify c (Link.popUp up)).modify other
          (Link.putDown (.signal s)))
  | discarded (c : ConnId) (now : Time) (l : Link) (m : Up) (up : List Up)
      (hl : x.links[c]? = some l) (hu : l.up = m :: up) (hstage : l.stage = .serving)
      (hno : m = .reconnect ∨ x.session.connOf l.role.other = none) :
      Steps token x (.read c now) ({ x with session := x.session.touch now }.modify c (Link.popUp up))
  | toldPeer (c : ConnId) (l : Link) (other : ConnId) (hl : x.links[c]? = some l)
      (hstage : l.stage = .attached) (hother : x.session.connOf l.role.other = some other) :
      Steps token x (.notifyPeer c)
        ((x.modify c (Link.setStage .notified)).modify other
          (Link.putDown (.notice .peerReconnected)))
  | toldNobody (c : ConnId) (l : Link) (hl : x.links[c]? = some l) (hstage : l.stage = .attached)
      (hother : x.session.connOf l.role.other = none) :
      Steps token x (.notifyPeer c) (x.modify c (Link.setStage .notified))
  | toldSelf (c : ConnId) (l : Link) (hl : x.links[c]? = some l) (hstage : l.stage = .notified) :
      Steps token x (.notifySelf c)
        (x.modify c fun l => (l.putDown (.notice .reconnected)).setStage .serving)
  | dropped (c : ConnId) (now : Time) (l : Link) (hl : x.links[c]? = some l)
      (hstage : l.stage = .serving) :
      Steps token x (.readError c now)
        ({ x with session := (x.session.markDisconnected l.role now).1 }.modify c
          (Link.setStage (.leaving (x.session.markDisconnected l.role now).2.1)))
  | ended (c : ConnId) (now : Time) (l : Link) (hl : x.links[c]? = some l)
      (hstage : l.stage = .opening) :
      Steps token x (.readError c now) (x.modify c (Link.setStage .finished))
  | toldLeave (c : ConnId) (l : Link) (other : ConnId) (hl : x.links[c]? = some l)
      (hstage : l.stage = .leaving (some other)) :
      Steps token x (.notifyLeave c)
        ((x.modify c (Link.setStage .finished)).modify other
          (Link.putDown (.notice .peerDisconnected)))
  | leftAlone (c : ConnId) (l : Link) (hl : x.links[c]? = some l)
      (hstage : l.stage = .leaving none) :
      Steps token x (.notifyLeave c) (x.modify c (Link.setStage .finished))
  | asked (role : Role) (busy : Bool) (client : Client) (socket : ConnId)
      (hsocket : (x.clients role).activeSocket = some socket)
      (hclient : SameRoles (x.clients role) client) :
      Steps token x (.swapClick role busy)
        ((x.setClient role client).modify socket (Link.putUp (.signal .roleSwapRequest)))
  | clicked (role : Role) (busy : Bool) (client : Client)
      (hclient : SameRoles (x.clients role) client) :
      Steps token x (.swapClick role busy) (x.setClient role client)
  | timedOut (role : Role) (client : Client) (hclient : SameRoles (x.clients role) client) :
      Steps token x (.swapTimer role) (x.setClient role client)

theorem modify_modify (x : Paired) (c : ConnId) (f g : Link → Link) :
    (x.modify c f).modify c g = x.modify c (g ∘ f) := by
  simp only [modify, List.modify_modify_eq]

theorem setClient_self (x : Paired) (role : Role) : x.setClient role (x.clients role) = x := by
  simp only [setClient, Function.update_eq_self]

@[simp] theorem clients_modify (x : Paired) (c : ConnId) (f : Link → Link) :
    (x.modify c f).clients = x.clients := rfl

theorem react_stay (x : Paired) (role : Role) (c : ConnId) :
    x.react role c (x.clients role).stay = x :=
  setClient_self x role

theorem react_reply (x : Paired) (role : Role) (c : ConnId) (client : Client) (s : Signal)
    (rendered : Bool) : x.react role c ⟨client, some s, rendered, none⟩ =
      (x.setClient role client).modify c (Link.putUp (.signal s)) := rfl

theorem clients_react (x : Paired) (role : Role) (c : ConnId) (r : Reaction) :
    (x.react role c r).clients = Function.update x.clients role r.client := by
  obtain ⟨client, reply, rendered, closes⟩ := r
  cases reply <;> cases closes <;> rfl

/-- A listener that leaves the screen. -/
theorem unpaired_react_setState (x : Paired) (role : Role) (c : ConnId) (client : Client) :
    ((x.react role c client.setState).clients role).paired = false := by
  rw [clients_react, Function.update_self]
  rfl

/-! ## Hearing a message -/

section Hear

variable {c : ConnId} {l : Link} {busy : Bool} {m : Down} {down : List Down}

/-- A message that only `wirePairedSocket` listens to. -/
theorem hear_of_stay (hp : (x.clients l.role).paired = true)
    (hstay : (x.clients l.role).onAttemptMessage c m = (x.clients l.role).stay)
    (hm : m ≠ .notice .reconnected) :
    x.hear c l busy m =
      if l.wired then x.react l.role c ((x.clients l.role).onPairedMessage busy m) else x := by
  unfold hear
  rw [hp]
  cases l.attempt with
  | none => simp
  | some attempt => simp [hstay, hm, react_stay]

theorem hear_resumed (hl : x.links[c]? = some l) (hp : (x.clients l.role).paired = true)
    (hatt : l.attempt.isSome = true) :
    (x.modify c (Link.pop down)).hear c l busy (.notice .reconnected) =
      (x.setClient l.role (resumedClient (x.clients l.role) c)).modify c
        fun l => { l.pop down with wired := true } := by
  obtain ⟨attempt, hatt⟩ := Option.isSome_iff_exists.mp hatt
  have hp' : ((x.modify c (Link.pop down)).clients l.role).paired = true := hp
  unfold hear
  rw [hp', hatt]
  cases hw : l.wired with
  | true =>
      have hsame : x.links.modify c (Link.pop down) =
          x.links.modify c fun l => { l.pop down with wired := true } :=
        Tally.modify_congr hl (by simp only [Link.pop, hw])
      have hstay := react_stay ((x.modify c (Link.pop down)).setClient l.role
        (resumedClient (x.clients l.role) c)) l.role c
      refine hstay.trans ?_
      simp only [setClient, modify, hsame]
  | false =>
      exact modify_modify (x.setClient l.role (resumedClient (x.clients l.role) c)) c _ _

/-- A notice about which no listener of the socket does anything. -/
theorem hear_nothing (hp : (x.clients l.role).paired = true) (hatt : l.attempt = none)
    (hstay : (x.clients l.role).onPairedMessage busy m = (x.clients l.role).stay) :
    x.hear c l busy m = x := by
  unfold hear
  rw [hp, hatt]
  simp [hstay, react_stay]

/-- An error on the socket of an attempt. -/
theorem hear_error {code : String} (hp : (x.clients l.role).paired = true)
    (hatt : l.attempt.isSome = true) :
    x.hear c l busy (.notice (.error code)) = x.react l.role c (x.clients l.role).setState := by
  obtain ⟨attempt, hatt⟩ := Option.isSome_iff_exists.mp hatt
  unfold hear
  rw [hp, hatt]
  cases hw : l.wired with
  | true => exact react_stay (x.react l.role c (x.clients l.role).setState) l.role c
  | false => simp [Client.onAttemptMessage]

theorem steps_deliver_notice {n : Notice} (hl : x.links[c]? = some l)
    (hd : l.down = .notice n :: down) (hp : (x.clients l.role).paired = true) :
    Steps token x (.deliver c busy) ((x.modify c (Link.pop down)).hear c l busy (.notice n)) := by
  have hp' : ((x.modify c (Link.pop down)).clients l.role).paired = true := hp
  cases n with
  | reconnected =>
      cases hatt : l.attempt with
      | none =>
          rw [hear_nothing hp' hatt rfl]
          exact .ignored c busy l _ down hl hd hatt
      | some attempt =>
          have hsome : l.attempt.isSome = true := by rw [hatt]; rfl
          rw [hear_resumed hl hp hsome]
          exact .resumed c busy l down hl hd hsome
  | peerReconnected =>
      rw [hear_of_stay hp' rfl (by decide)]
      cases hw : l.wired with
      | true => exact .renewed c busy l down hl hd hw
      | false => exact .ignored c busy l _ down hl hd hw
  | peerDisconnected =>
      rw [hear_of_stay hp' rfl (by decide)]
      have hstay := react_stay (x.modify c (Link.pop down)) l.role c
      cases hw : l.wired with
      | true => exact hstay.symm ▸ .ignored c busy l _ down hl hd trivial
      | false => exact .ignored c busy l _ down hl hd trivial
  | sessionEnded reason =>
      rw [hear_of_stay hp' rfl (by simp)]
      cases hw : l.wired with
      | true => exact .leftHearing c busy l _ down hl hd hw
      | false => exact .ignored c busy l _ down hl hd trivial
  | error code =>
      cases hatt : l.attempt with
      | none =>
          rw [hear_nothing hp' hatt rfl]
          exact .ignored c busy l _ down hl hd trivial
      | some attempt =>
          have hsome : l.attempt.isSome = true := by rw [hatt]; rfl
          rw [hear_error hp' hsome]
          exact .leftHearing c busy l _ down hl hd hsome

theorem steps_deliver_request (hl : x.links[c]? = some l)
    (hd : l.down = .signal .roleSwapRequest :: down) (hw : l.wired = true) :
    Steps token x (.deliver c busy) ((x.modify c (Link.pop down)).react l.role c
      ((x.clients l.role).onPairedMessage busy (.signal .roleSwapRequest))) := by
  rw [Client.onPairedMessage]
  cases hbusy : busy || (x.clients l.role).swapAwaitingResponse with
  | true =>
      have hsame : (x.modify c (Link.pop down)).react l.role c
            ⟨x.clients l.role, some (.roleSwapResponse false), false, none⟩ =
          x.modify c fun l => (l.pop down).putUp (.signal (.roleSwapResponse false)) := by
        rw [react_reply, ← clients_modify x c (Link.pop down), setClient_self, modify_modify]
        rfl
      exact hsame.symm ▸ .refused c busy l down hl hd hw hbusy
  | false =>
      obtain ⟨rfl, hfree⟩ := Bool.or_eq_false_iff.mp hbusy
      have hflip : (x.modify c (Link.pop down)).react l.role c
            ⟨flippedClient (x.clients l.role), some (.roleSwapResponse true), true, none⟩ =
          (x.setClient l.role (flippedClient (x.clients l.role))).modify c
            fun l => (l.pop down).putUp (.signal (.roleSwapResponse true)) := by
        rw [react_reply]
        exact modify_modify (x.setClient l.role _) c _ _
      exact hflip.symm ▸ .accepted c l down hl hd hw hfree

theorem steps_deliver_response {accepted : Bool} (hl : x.links[c]? = some l)
    (hd : l.down = .signal (.roleSwapResponse accepted) :: down) (hw : l.wired = true) :
    Steps token x (.deliver c busy) ((x.modify c (Link.pop down)).react l.role c
      ((x.clients l.role).onPairedMessage busy (.signal (.roleSwapResponse accepted)))) := by
  rw [Client.onPairedMessage]
  cases hawait : (x.clients l.role).swapAwaitingResponse with
  | false =>
      have hstay := react_stay (x.modify c (Link.pop down)) l.role c
      exact hstay.symm ▸ .ignored c busy l _ down hl hd (.inr hawait)
  | true =>
      cases accepted with
      | true => exact .granted c busy l down hl hd hw hawait
      | false => exact .denied c busy l down hl hd hw hawait

theorem steps_deliver_signal {s : Signal} (hl : x.links[c]? = some l)
    (hd : l.down = .signal s :: down) (hp : (x.clients l.role).paired = true) :
    Steps token x (.deliver c busy) ((x.modify c (Link.pop down)).hear c l busy (.signal s)) := by
  have hp' : ((x.modify c (Link.pop down)).clients l.role).paired = true := hp
  rw [hear_of_stay hp' rfl (by simp)]
  cases hw : l.wired with
  | false =>
      refine .ignored c busy l _ down hl hd ?_
      cases s with
      | roleSwapRequest => exact hw
      | roleSwapResponse accepted => exact .inl hw
  | true =>
      cases s with
      | roleSwapRequest => exact steps_deliver_request hl hd hw
      | roleSwapResponse accepted => exact steps_deliver_response hl hd hw

theorem steps_deliver (hl : x.links[c]? = some l) (hd : l.down = m :: down) :
    Steps token x (.deliver c busy) ((x.modify c (Link.pop down)).hear c l busy m) := by
  cases hp : (x.clients l.role).paired with
  | false =>
      have hunpaired : ((x.modify c (Link.pop down)).clients l.role).paired = false := hp
      rw [hear, hunpaired]
      exact .unheard c busy l m down hl hd hp
  | true =>
      cases m with
      | notice n => exact steps_deliver_notice hl hd hp
      | signal s => exact steps_deliver_signal hl hd hp

end Hear

/-! ## Closing, and what follows -/

theorem attemptReconnect_spec (x : Paired) (role : Role) (attempt : Nat) :
    ∃ new, (∀ l' ∈ new, ∃ role attempt, l' = Link.connect role attempt) ∧
      x.attemptReconnect role attempt = { x with links := x.links ++ new } := by
  unfold attemptReconnect
  split
  next =>
    refine ⟨[Link.connect role attempt], fun l' hl' => ?_, rfl⟩
    exact ⟨role, attempt, List.mem_singleton.mp hl'⟩
  next => exact ⟨[], by simp, by simp⟩

/-- The close listener of an attempt only ever changes the retries, or leaves. -/
theorem onAttemptClose_spec (x : Paired) (role : Role) (c : ConnId) (attempt : Nat) :
    (attempt ≥ Pairing.RECONNECT_MAX_ATTEMPTS ∧
        x.react role c ((x.clients role).onAttemptClose c attempt) =
          x.react role c (x.clients role).setState) ∨
      ∃ client, SameRoles (x.clients role) client ∧
        ((x.clients role).paired = true →
          (x.clients role).activeSocket = some c ∨ attempt + 1 ∈ client.retries) ∧
        x.react role c ((x.clients role).onAttemptClose c attempt) = x.setClient role client := by
  unfold Client.onAttemptClose
  split
  next hstay =>
    refine .inr ⟨x.clients role, ⟨rfl, rfl, rfl, .inl rfl⟩, fun hp => .inl ?_, rfl⟩
    rw [hp] at hstay
    simpa using hstay
  next =>
    split
    next hmax => exact .inl ⟨hmax, rfl⟩
    next =>
      refine .inr ⟨{ x.clients role with retries := (x.clients role).retries ++ [attempt + 1] },
        ⟨rfl, rfl, rfl, .inl rfl⟩, fun _ => .inr ?_, rfl⟩
      simp

theorem onPairedClose_sameRoles (client : Client) (c : ConnId) :
    SameRoles client (client.onPairedClose c).1 ∧
      (client.onPairedClose c).1.retries = client.retries := by
  unfold Client.onPairedClose
  split
  next => exact ⟨⟨rfl, rfl, rfl, .inl rfl⟩, rfl⟩
  next => exact ⟨⟨rfl, rfl, rfl, .inr rfl⟩, rfl⟩

theorem pairedLost_spec (x : Paired) (c : ConnId) (role : Role) :
    ∃ client new, SameRoles (x.clients role) client ∧
      client.retries = (x.clients role).retries ∧
      (∀ l' ∈ new, ∃ role attempt, l' = Link.connect role attempt) ∧
      x.pairedLost c role = { x.setClient role client with links := x.links ++ new } := by
  have hsame := onPairedClose_sameRoles (x.clients role) c
  unfold pairedLost
  generalize (x.clients role).onPairedClose c = p at hsame
  obtain ⟨client, attempt⟩ := p
  cases attempt with
  | none => exact ⟨client, [], hsame.1, hsame.2, by simp, by simp [setClient]⟩
  | some attempt =>
      obtain ⟨new, hnew, h⟩ := attemptReconnect_spec (x.setClient role client) role attempt
      exact ⟨client, new, hsame.1, hsame.2, hnew, h⟩

theorem SameRoles.refl (c : Client) : SameRoles c c := ⟨rfl, rfl, rfl, .inl rfl⟩

theorem SameRoles.trans {a b c : Client} (h : SameRoles a b) (h' : SameRoles b c) :
    SameRoles a c := by
  refine ⟨h'.paired.trans h.paired, h'.epoch.trans h.epoch,
    h'.transferRole.trans h.transferRole, ?_⟩
  rcases h'.socket with hsame | hnone
  · rw [hsame]
    exact h.socket
  · exact .inr hnone

/-- The listener of `wirePairedSocket` does nothing off the paired screen. -/
theorem pairedLost_unpaired (x : Paired) (c : ConnId) (role : Role) :
    (x.react role c (x.clients role).setState).pairedLost c role =
      x.react role c (x.clients role).setState := by
  have hgone := unpaired_react_setState x role c (x.clients role)
  unfold pairedLost Client.onPairedClose
  rw [hgone]
  exact setClient_self _ role

theorem attemptLost_spec (x : Paired) (c : ConnId) (l : Link) :
    (∃ attempt, l.attempt = some attempt ∧ attempt ≥ Pairing.RECONNECT_MAX_ATTEMPTS ∧
        x.attemptLost c l = x.react l.role c (x.clients l.role).setState) ∨
      ∃ client, SameRoles (x.clients l.role) client ∧
        FollowedUp l c (x.clients l.role) client ∧
        x.attemptLost c l = x.setClient l.role client := by
  unfold attemptLost FollowedUp
  cases l.attempt with
  | none =>
      refine .inr ⟨x.clients l.role, ⟨rfl, rfl, rfl, .inl rfl⟩, fun _ h => ?_,
        (setClient_self x l.role).symm⟩
      cases h
  | some attempt =>
      rcases onAttemptClose_spec x l.role c attempt with ⟨hmax, h⟩ | ⟨client, hsame, hretry, h⟩
      · exact .inl ⟨attempt, rfl, hmax, h⟩
      · refine .inr ⟨client, hsame, fun attempt' h' => ?_, h⟩
        obtain rfl := Option.some.inj h'
        exact hretry

theorem lost_spec (x : Paired) (c : ConnId) (l : Link) :
    (∃ attempt, l.attempt = some attempt ∧ attempt ≥ Pairing.RECONNECT_MAX_ATTEMPTS ∧
        x.lost c l = x.react l.role c (x.clients l.role).setState) ∨
      ∃ client new, SameRoles (x.clients l.role) client ∧
        FollowedUp l c (x.clients l.role) client ∧
        (∀ l' ∈ new, ∃ role attempt, l' = Link.connect role attempt) ∧
        x.lost c l = { x.setClient l.role client with links := x.links ++ new } := by
  unfold lost
  rcases attemptLost_spec x c l with ⟨attempt, hatt, hmax, h⟩ | ⟨client, hsame, hretry, h⟩
  · refine .inl ⟨attempt, hatt, hmax, ?_⟩
    rw [h]
    cases l.wired with
    | false => rfl
    | true => exact pairedLost_unpaired x c l.role
  · right
    rw [h]
    cases l.wired with
    | false =>
        refine ⟨client, [], hsame, hretry, by simp, ?_⟩
        rw [List.append_nil]
        rfl
    | true =>
        obtain ⟨client', new, hsame', hkeep, hnew, h'⟩ :=
          pairedLost_spec (x.setClient l.role client) c l.role
        have hself : (x.setClient l.role client).clients l.role = client := by
          simp [setClient]
        rw [hself] at hsame' hkeep
        refine ⟨client', new, hsame.trans hsame', ?_, hnew, ?_⟩
        · rw [FollowedUp, hkeep]
          exact hretry
        · rw [if_pos rfl, h']
          simp [setClient]

/-! ## The relay's handlers -/

theorem steps_read {c : ConnId} {l : Link} {m : Up} {up : List Up} {now : Time}
    (hl : x.links[c]? = some l) (hu : l.up = m :: up)
    (hstage : l.stage = .opening ∨ l.stage = .serving) :
    Steps token x (.read c now)
      ((x.modify c (Link.popUp up)).readUp token c l m now) := by
  unfold readUp
  rcases hstage with hstage | hstage
  · rw [hstage]
    cases m with
    | reconnect =>
        dsimp only
        split
        next session hs =>
          have : ({ x.modify c (Link.popUp up) with session := session } : Paired).modify c
              (Link.setStage .attached) = _ := modify_modify { x with session := session } c _ _
          exact this ▸ .reattached c now l up session hl hu hstage hs
        next hs =>
          rw [modify_modify]
          exact .rejected c now l _ up _ hl hu hstage fun _ => hs
    | signal s =>
        dsimp only
        rw [modify_modify]
        exact .rejected c now l _ up _ hl hu hstage Up.noConfusion
  · rw [hstage]
    cases m with
    | reconnect => exact .discarded c now l _ up hl hu hstage (.inl rfl)
    | signal s =>
        dsimp only
        split
        next other hother => exact .relayed c now l s up other hl hu hstage hother
        next hnone => exact .discarded c now l _ up hl hu hstage (.inr hnone)

theorem steps_swapClick (x : Paired) (role : Role) (busy : Bool) :
    Steps token x (.swapClick role busy) (x.requestRoleSwap role busy) := by
  unfold requestRoleSwap Client.requestRoleSwap
  split
  next client socket s h =>
    split at h
    next => cases h
    next =>
      split at h
      next => cases h
      next hsocket =>
        obtain ⟨rfl, hsent⟩ := Prod.mk.inj h
        obtain ⟨rfl, rfl⟩ := Prod.mk.inj (Option.some.inj hsent)
        exact .asked role busy _ _ hsocket ⟨rfl, rfl, rfl, .inl rfl⟩
  next client h =>
    refine .clicked role busy client ?_
    split at h
    next =>
      obtain ⟨rfl, -⟩ := Prod.mk.inj h
      exact ⟨rfl, rfl, rfl, .inl rfl⟩
    next =>
      split at h
      next =>
        obtain ⟨rfl, -⟩ := Prod.mk.inj h
        exact ⟨rfl, rfl, rfl, .inl rfl⟩
      next => cases h

theorem step_spec {e : Event} (h : step token x e = some y) : Steps token x e y := by
  cases e with
  | breaks c keepUp keepDown =>
      unfold step at h
      dsimp only at h
      split at h
      next l hl =>
        split at h
        next => cases h
        next hb =>
          obtain rfl := Option.some.inj h
          exact .broke c keepUp keepDown l hl (by simpa using hb)
      next => cases h
  | opens c =>
      unfold step at h
      dsimp only at h
      split at h
      next l hl =>
        split at h
        next => cases h
        next hb =>
          obtain rfl := Option.some.inj h
          simp only [Bool.or_eq_true, not_or, Bool.not_eq_true] at hb
          exact .opened c l hl hb.2
      next => cases h
  | deliver c busy =>
      unfold step at h
      dsimp only at h
      split at h
      next l hl =>
        split at h
        next m down hd =>
          split at h
          next => cases h
          next =>
            obtain rfl := Option.some.inj h
            exact steps_deliver hl hd
        next => cases h
      next => cases h
  | lose c =>
      unfold step at h
      dsimp only at h
      split at h
      next l hl =>
        split at h
        next =>
          obtain rfl := Option.some.inj h
          -- the last attempt leaves the screen; any other loss sets a timer or opens a socket
          rcases lost_spec (x.modify c Link.close) c l with
            ⟨attempt, hatt, hmax, hlost⟩ | ⟨client, new, hsame, hretry, hnew, hlost⟩
          · rw [show (x.modify c fun l => { l with closed := true }).lost c l = _ from hlost]
            exact .leftLosing c l attempt hl hatt hmax
          · rw [show (x.modify c fun l => { l with closed := true }).lost c l = _ from hlost]
            exact .lost c l client new hl hsame hretry hnew
        next => cases h
      next => cases h
  | retry role =>
      unfold step at h
      dsimp only at h
      split at h
      next attempt retries hr =>
        obtain rfl := Option.some.inj h
        obtain ⟨new, hnew, h⟩ := attemptReconnect_spec
          (x.setClient role { x.clients role with retries := retries }) role attempt
        rw [h]
        exact .retried role _ new ⟨rfl, rfl, rfl, .inl rfl⟩ hnew
      next => cases h
  | read c now =>
      unfold step at h
      dsimp only at h
      split at h
      next l hl =>
        split at h
        next m up hu =>
          split at h
          next hstage =>
            obtain rfl := Option.some.inj h
            exact steps_read hl hu hstage
          next => cases h
        next => cases h
      next => cases h
  | notifyPeer c =>
      unfold step at h
      dsimp only at h
      split at h
      next l hl =>
        split at h
        next hstage =>
          obtain rfl := Option.some.inj h
          split
          next other hother => exact .toldPeer c l other hl hstage hother
          next hnone => exact .toldNobody c l hl hstage hnone
        next => cases h
      next => cases h
  | notifySelf c =>
      unfold step at h
      dsimp only at h
      split at h
      next l hl =>
        split at h
        next hstage =>
          obtain rfl := Option.some.inj h
          exact .toldSelf c l hl hstage
        next => cases h
      next => cases h
  | readError c now =>
      unfold step at h
      dsimp only at h
      split at h
      next l hl =>
        split at h
        next hdead =>
          obtain rfl := Option.some.inj h
          simp only [Bool.and_eq_true, decide_eq_true_eq] at hdead
          -- a handler that served the slot tells the other peer, one that never resumed it does not
          exact .dropped c now l hl hdead.2
        next =>
          split at h
          next hdead =>
            obtain rfl := Option.some.inj h
            simp only [Bool.and_eq_true, decide_eq_true_eq] at hdead
            exact .ended c now l hl hdead.2
          next => cases h
      next => cases h
  | notifyLeave c =>
      unfold step at h
      dsimp only at h
      split at h
      next l hl =>
        split at h
        next other hstage =>
          obtain rfl := Option.some.inj h
          cases other with
          | some other => exact .toldLeave c l other hl hstage
          | none => exact .leftAlone c l hl hstage
        next => cases h
      next => cases h
  | swapClick role busy =>
      unfold step at h
      dsimp only at h
      split at h
      next =>
        obtain rfl := Option.some.inj h
        exact steps_swapClick x role busy
      next => cases h
  | swapTimer role =>
      unfold step at h
      dsimp only at h
      split at h
      next =>
        obtain rfl := Option.some.inj h
        exact .timedOut role _ ⟨rfl, rfl, rfl, .inl rfl⟩
      next => cases h

theorem paired_update {f : Role → Client} {role : Role} {client : Client}
    (h : client.paired = (f role).paired) (r : Role) :
    (Function.update f role client r).paired = (f r).paired := by
  by_cases hrole : r = role
  · rw [hrole, Function.update_self, h]
  · rw [Function.update_of_ne hrole]

theorem paired_of_left {f : Role → Client} {role r : Role} {client : Client}
    (hr : (Function.update f role client.setState.client r).paired = true) :
    (f r).paired = true := by
  by_cases hrole : r = role
  · rw [hrole, Function.update_self] at hr
    cases hr
  · rwa [Function.update_of_ne hrole] at hr

/-- Who is off the paired screen stays off it. -/
theorem paired_of_step {e : Event} (h : step token x e = some y) (role : Role)
    (hy : (y.clients role).paired = true) : (x.clients role).paired = true := by
  cases step_spec h with
  | leftHearing | leftLosing =>
      rw [clients_react] at hy
      exact paired_of_left hy
  | resumed | renewed | accepted | granted | denied =>
      refine (paired_update ?_ role).symm.trans hy
      rfl
  | lost _ _ _ _ _ hsame => exact (paired_update hsame.paired role).symm.trans hy
  | retried _ _ _ hsame => exact (paired_update hsame.paired role).symm.trans hy
  | asked _ _ _ _ _ hsame => exact (paired_update hsame.paired role).symm.trans hy
  | clicked _ _ _ hsame => exact (paired_update hsame.paired role).symm.trans hy
  | timedOut _ _ hsame => exact (paired_update hsame.paired role).symm.trans hy
  | _ => exact hy

end Paired

end Quicksend
