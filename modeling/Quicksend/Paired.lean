import Quicksend.Pairing
import Quicksend.Server.Session

/-!
# Two paired clients and their relay

The clients, their connections and the session at the relay. A connection
carries messages in order both ways; when it breaks, each end still gets what
had arrived. The handler of a reconnecting client resumes the slot, tells the
peer and then its own client, each as a step of its own.
-/

namespace Quicksend

open Pairing (Client Reaction Signal Notice Down Up)
open Server (Session)

/-- How far the relay's handler of a connection has come. `attached` and
`notified` are inside `Hub.Reconnect`, `leaving` inside `HandleDisconnect`. -/
inductive Stage where
  | opening
  | attached
  | notified
  | serving
  | leaving (other : Option ConnId)
  | finished
  deriving DecidableEq

/-- A socket of a client and the relay's connection at its other end: what both
sides know of it and what is on its way. -/
structure Link where
  role : Role
  /-- The attempt that opened the socket; `none` for the one paired on. -/
  attempt : Option Nat
  /-- `wirePairedSocket` has run for it. -/
  wired : Bool
  opened : Bool
  broken : Bool
  /-- Its close event is over. -/
  closed : Bool
  up : List Up
  down : List Down
  stage : Stage
  deriving DecidableEq

namespace Link

/-- The socket that attempt `attempt` opens: not open yet, nothing sent on it, and
unknown to the relay. -/
def connect (role : Role) (attempt : Nat) : Link where
  role := role
  attempt := some attempt
  wired := false
  opened := false
  broken := false
  closed := false
  up := []
  down := []
  stage := .opening

/-- A connection on which the session was paired. -/
def pairing (role : Role) : Link :=
  { connect role 0 with attempt := none, wired := true, opened := true, stage := .serving }

/-- `socket.send`, silently dropped when the connection is gone. -/
def putUp (m : Up) (l : Link) : Link := if l.broken then l else { l with up := l.up ++ [m] }

/-- `conn.Send`: the message is on its way to the client; on a broken connection
the error is only logged. -/
def putDown (m : Down) (l : Link) : Link := if l.broken then l else { l with down := l.down ++ [m] }

/-- The connection dies; what had arrived stays to be read. -/
def break_ (keepUp keepDown : Nat) (l : Link) : Link :=
  { l with broken := true, up := l.up.take keepUp, down := l.down.take keepDown }

/-- `socket.close()`: nothing more is dispatched but the close event. -/
def shut (l : Link) : Link := { l with broken := true, down := [] }

/-- The handler reports an error and returns, which closes the connection. -/
def refuse (code : String) (l : Link) : Link :=
  { l.putDown (.notice (.error code)) with broken := true, up := [], stage := .finished }

/-- The relay's handler of this connection has come to `stage`; the socket and
what is on its way stay as they are. -/
def setStage (stage : Stage) (l : Link) : Link := { l with stage := stage }

end Link

/-- A session after pairing: the clients of both roles, every socket that either
opened, and the session at the relay. -/
structure Paired where
  clients : Role → Client
  links : List Link
  session : Session

namespace Paired

/-- Two clients that have just paired and registered their token. -/
def init (token : Bytes) (now : Time) : Paired where
  clients
    | .host => Client.finalizePaired .host 0
    | .guest => Client.finalizePaired .guest 1
  links := [.pairing .host, .pairing .guest]
  session :=
    { Session.new "" now with
      peers
        | .host => some { conn := 0, ip := "", disconnectedAt := none, reconnectToken := token }
        | .guest => some { conn := 1, ip := "", disconnectedAt := none, reconnectToken := token } }

/-- `deliver` dispatches the next message on a socket, with what `isActive()`
would say; `lose` is the close event of a socket; `retry` a timer of
`attemptReconnect`. `read` is a handler reading the next message or, on a dead
connection, an error. -/
inductive Event where
  | breaks (c : ConnId) (keepUp keepDown : Nat)
  | opens (c : ConnId)
  | deliver (c : ConnId) (busy : Bool)
  | lose (c : ConnId)
  | retry (role : Role)
  | read (c : ConnId) (now : Time)
  | notifyPeer (c : ConnId)
  | notifySelf (c : ConnId)
  | readError (c : ConnId) (now : Time)
  | notifyLeave (c : ConnId)
  | swapClick (role : Role) (busy : Bool)
  | swapTimer (role : Role)
  deriving DecidableEq

/-- Put `client` in the place of the client of this role; the sockets and the
relay stay as they are. -/
def setClient (x : Paired) (role : Role) (client : Client) : Paired :=
  { x with clients := Function.update x.clients role client }

/-- Change socket `c` by `f`; every other socket, the clients and the relay stay
as they are. -/
def modify (x : Paired) (c : ConnId) (f : Link → Link) : Paired :=
  { x with links := x.links.modify c f }

/-- `socket.close()` on the socket a listener wants closed, if there is one. -/
def closeSocket (x : Paired) : Option ConnId → Paired
  | some c => x.modify c Link.shut
  | none => x

/-- What a listener on socket `c` of this role did. -/
def react (x : Paired) (role : Role) (c : ConnId) (r : Reaction) : Paired :=
  let x := x.setClient role r.client
  let x := match r.reply with
    | some s => x.modify c (Link.putUp (.signal s))
    | none => x
  x.closeSocket r.closes

/-- `attemptReconnect`: a new socket while the client is paired. -/
def attemptReconnect (x : Paired) (role : Role) (attempt : Nat) : Paired :=
  if (x.clients role).paired then { x with links := x.links ++ [Link.connect role attempt] } else x

/-- The listeners of a socket hear a message, those of `attemptReconnect` first.
A client that left the screen is out of the session. -/
def hear (x : Paired) (c : ConnId) (l : Link) (busy : Bool) (m : Down) : Paired :=
  if !(x.clients l.role).paired then x
  else
    let x := match l.attempt with
      | some _ => x.react l.role c ((x.clients l.role).onAttemptMessage c m)
      | none => x
    if l.wired then x.react l.role c ((x.clients l.role).onPairedMessage busy m)
    -- the listener added in this dispatch only hears the messages after it
    else if l.attempt.isSome && decide (m = .notice .reconnected) then
      x.modify c fun l => { l with wired := true }
    else x

/-- The close listener of `attemptReconnect`, on a socket that an attempt opened;
the first socket has none. -/
def attemptLost (x : Paired) (c : ConnId) (l : Link) : Paired :=
  match l.attempt with
  | some attempt => x.react l.role c ((x.clients l.role).onAttemptClose c attempt)
  | none => x

/-- The close listener of `wirePairedSocket`: the client may begin to reconnect,
with its first attempt. -/
def pairedLost (x : Paired) (c : ConnId) (role : Role) : Paired :=
  match (x.clients role).onPairedClose c with
  | (client, some attempt) => (x.setClient role client).attemptReconnect role attempt
  | (client, none) => x.setClient role client

/-- The close event of socket `c`: the attempt that opened it hears of it, and so
does the listener of a wired socket. -/
def lost (x : Paired) (c : ConnId) (l : Link) : Paired :=
  let x := x.attemptLost c l
  if l.wired then x.pairedLost c l.role else x

/-- The listener of the swap button: unless the client is busy or waits already,
it asks the other side. -/
def requestRoleSwap (x : Paired) (role : Role) (busy : Bool) : Paired :=
  match (x.clients role).requestRoleSwap busy with
  | (client, some (socket, s)) => (x.setClient role client).modify socket (Link.putUp (.signal s))
  | (client, none) => x.setClient role client

/-- A handler reads a message: the first one resumes the slot, later ones are
relayed. -/
def readUp (x : Paired) (token : Bytes) (c : ConnId) (l : Link) (m : Up) (now : Time) : Paired :=
  match l.stage, m with
  | .opening, .reconnect =>
      match x.session.reattach l.role token c "" now with
      | some session => { x with session := session }.modify c (Link.setStage .attached)
      | none =>
          x.modify c (Link.refuse "invalid_reconnect_token")
  | .opening, .signal _ => x.modify c (Link.refuse "invalid_message")
  | _, .signal s =>
      let x := { x with session := x.session.touch now }
      match x.session.connOf l.role.other with
      | some other => x.modify other (Link.putDown (.signal s))
      | none => x
  | _, .reconnect => { x with session := x.session.touch now }

/-- One event of the paired session: a socket breaks, opens or delivers, the relay
reads or attaches, a timer fires, or a user acts. -/
def step (token : Bytes) (x : Paired) (e : Event) : Option Paired :=
  match e with
  | .breaks c keepUp keepDown =>
      match x.links[c]? with
      | some l => if l.broken then none else some (x.modify c (Link.break_ keepUp keepDown))
      | none => none
  | .opens c =>
      match x.links[c]? with
      | some l =>
          if l.opened || l.broken then none
          else some (x.modify c fun l => { (l.putUp .reconnect) with opened := true })
      | none => none
  | .deliver c busy =>
      match x.links[c]? with
      | some l =>
          match l.down with
          | m :: down =>
              -- nothing is dispatched on a socket after its close event
              if l.closed then none
              else some ((x.modify c fun l => { l with down := down }).hear c l busy m)
          | [] => none
      | none => none
  | .lose c =>
      match x.links[c]? with
      | some l =>
          -- what had arrived is dispatched before the close event
          if l.broken && !l.closed && l.down.isEmpty then
            some ((x.modify c fun l => { l with closed := true }).lost c l)
          else none
      | none => none
  | .retry role =>
      match (x.clients role).retries with
      | attempt :: retries =>
          some ((x.setClient role { x.clients role with retries := retries }).attemptReconnect role
            attempt)
      | [] => none
  | .read c now =>
      match x.links[c]? with
      | some l =>
          match l.up with
          | m :: up =>
              -- a handler that is telling the peers of a drop or a resumption does not read
              if l.stage = .opening ∨ l.stage = .serving then
                some ((x.modify c fun l => { l with up := up }).readUp token c l m now)
              else none
          | [] => none
      | none => none
  | .notifyPeer c =>
      match x.links[c]? with
      | some l =>
          if l.stage = .attached then
            let x := x.modify c (Link.setStage .notified)
            some (match x.session.connOf l.role.other with
              | some other => x.modify other (Link.putDown (.notice .peerReconnected))
              | none => x)
          else none
      | none => none
  | .notifySelf c =>
      match x.links[c]? with
      | some l =>
          if l.stage = .notified then
            some (x.modify c fun l => (l.putDown (.notice .reconnected)).setStage .serving)
          else none
      | none => none
  | .readError c now =>
      match x.links[c]? with
      | some l =>
          -- what had arrived is read before the error
          if l.broken && l.up.isEmpty && decide (l.stage = .serving) then
            let (session, other, _) := x.session.markDisconnected l.role now
            some ({ x with session := session }.modify c (Link.setStage (.leaving other)))
          -- the first message never came, so there is no slot to mark
          else if l.broken && l.up.isEmpty && decide (l.stage = .opening) then
            some (x.modify c (Link.setStage .finished))
          else none
      | none => none
  | .notifyLeave c =>
      match x.links[c]? with
      | some l =>
          match l.stage with
          | .leaving other =>
              let x := x.modify c (Link.setStage .finished)
              some (match other with
                | some other => x.modify other (Link.putDown (.notice .peerDisconnected))
                | none => x)
          | _ => none
      | none => none
  | .swapClick role busy =>
      if (x.clients role).paired then some (x.requestRoleSwap role busy) else none
  | .swapTimer role =>
      if (x.clients role).swapTimers > 0 then
        some (x.setClient role (x.clients role).swapTimeout)
      else none

end Paired

end Quicksend
