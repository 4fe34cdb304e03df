import Quicksend.PairedScreen.Files

/-!
# Two paired screens and their relay

The screens of both clients of a session from the pairing on, while no connection
drops. Each direction has two legs, which keep the order. The relay may at any moment
stop a file as too large: it tells both clients, and drops the chunk frames of the
file that it still gets.
-/

namespace Quicksend

open Pairing (Client)

/-- The paired screen at the end of a pairing flow. -/
def PairedScreen.paired (role : Role) (sessionKey : Bytes) : PairedScreen :=
  { PairedScreen.init with sessionKey := sessionKey }.react
    (Client.finalizePaired role 0).renderPaired

namespace PairedScreen

/-- What a screen does by itself, or its user on it. -/
def Event.isOwn : Event → Bool
  | .swapClick | .swapTimer | .picks _ _ _ | .continues _ _ | .sendFile _ _ | .receiver _ _ => true
  | .pairs _ _ _ | .reconnected _ | .hears _ | .arrives _ _ | .closes _ | .leaves | .derived _ _
    | .adopts _ _ => false

/-- `onFileComplete` was called for this file by one of the receivers that the
screen has had. -/
def completed (x : PairedScreen) (fileId : JSString) : Bool :=
  x.renders.any fun r =>
    match r.handle with
    | some (.receiver ui) => ui.log.contains (.onFileComplete fileId)
    | some (.sender _ _) | none => false

end PairedScreen

/-- What the listeners of a socket hear when this message arrives on it. -/
def Payload.event : Payload → PairedScreen.Event
  | .signal s => .hears (.signal s)
  | .message m => .arrives 0 m

/-- The transfer message that this output puts on a socket; a signal of the
session layer is none. -/
def Output.message? (o : Output) : Option Message :=
  match o.payload with
  | .message m => some m
  | .signal _ => none

/-- The screens of both pages of a session with the relay between them: what is on
each leg, what the relay has stopped, and who sent which transfer message. -/
structure TwoScreens where
  screens : Role → PairedScreen
  /-- From a screen to the relay, and from there to it. -/
  up : Role → List Payload
  down : Role → List Payload
  /-- The files that the relay has stopped. -/
  stopped : List FileId
  /-- The transfer messages that a client has sent, or, without a role, the relay. -/
  log : List (Option Role × Message)

namespace TwoScreens

/-- Both pages are just paired under one session key, and nothing is on its way
between them. -/
def init (sessionKey : Bytes) : TwoScreens where
  screens role := PairedScreen.paired role sessionKey
  up _ := []
  down _ := []
  stopped := []
  log := []

/-- `rendered` is the end of the promise of a render with the `.then` behind it, in
one turn of the event loop; `hears` dispatches the next message on a client's socket;
`relays` lets the relay handle the next message of a client. -/
inductive Event where
  | screen (role : Role) (e : PairedScreen.Event)
  | rendered (role : Role) (i : Nat) (err : Option String) (fileId : FileId)
  | hears (role : Role)
  | relays (role : Role) (drop : Bool)
  | stops (fileId : FileId)

/-- A chunk frame of a file that the relay has stopped. -/
def mayDrop (x : TwoScreens) : Payload → Bool
  | .message (.binary data) => (parseChunkFrame data).any fun frame => x.stopped.contains frame.fileId
  | .message (.text _) | .signal _ => false

/-- Something happens to a screen, and what it puts on its socket goes to the relay. -/
def act (w : WebCrypto) (codec : MetaCodec) (x : TwoScreens) (role : Role)
    (e : PairedScreen.Event) : Option TwoScreens :=
  ((x.screens role).step w codec e).map fun r =>
    { x with
      screens := Function.update x.screens role r.1
      up := Function.update x.up role (x.up role ++ r.2.map Output.payload)
      log := x.log ++ (r.2.filterMap Output.message?).map fun m => (some role, m) }

/-- An event of one screen, one message taken from a leg, or one passed on by the
relay, which may drop it or stop a file. -/
def step (w : WebCrypto) (codec : MetaCodec) (x : TwoScreens) (e : Event) : Option TwoScreens :=
  match e with
  | .screen role e => if e.isOwn then x.act w codec role e else none
  | .rendered role i err fileId =>
      (x.act w codec role (.derived i err)).bind fun x =>
        if ((x.screens role).handle i).isSome then x.act w codec role (.adopts i fileId) else some x
  | .hears role =>
      match x.down role with
      | p :: rest =>
          { x with down := Function.update x.down role rest }.act w codec role p.event
      | [] => none
  | .relays role drop =>
      match x.up role with
      | p :: rest =>
          let x := { x with up := Function.update x.up role rest }
          if drop then if x.mayDrop p then some x else none
          else
            some { x with
              down := Function.update x.down role.other (x.down role.other ++ [p]) }
      | [] => none
  | .stops fileId =>
      let notice := sizeLimitAbortMessage fileId.hex
      some { x with
        stopped := x.stopped ++ [fileId]
        down := fun role => x.down role ++ [.message notice]
        log := x.log ++ [(none, notice)] }

end TwoScreens

end Quicksend
