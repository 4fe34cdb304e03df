import Quicksend.Pairing
import Quicksend.ReceiverTransfer

/-!
# The paired screen and its transfer UI (`pairing.js`, `transfer-ui.js`)

One page's renders of the paired screen, the handles their promises resolve to,
and the `sendFile` calls and receivers behind those. A render is kept for good:
its closures live on after it was detached. A step returns what the page puts
on its sockets.
-/

namespace Quicksend

open Pairing (Client Reaction Signal Down)

/-- `getPairedSession()`, as far as the transfer UI reads it. The paired screen
is only rendered while there is a socket. -/
structure PairedSession where
  socket : ConnId
  sessionKey : Bytes
  epoch : Nat
  transferRole : TransferRole
  deriving DecidableEq

/-- The loop of `sendFiles`: the call it awaits, and the files after it. -/
structure Batch where
  call : Nat
  files : List File

/-- The object `renderTransferUI` resolves to, with the variables its closures
share; a sender is `sending` while it has a batch. -/
inductive Handle where
  | sender (detached : Bool) (batch : Option Batch)
  | receiver (ui : ReceiverTransfer.State)

namespace Handle

/-- `handle.detach()`: a sender batch stops before its next file and a receiver
takes its listener off the socket, so a superseded render stays quiet. -/
def detach : Handle → Handle
  | .sender _ batch => .sender true batch
  | .receiver ui => .receiver { ui with rcv := { ui.rcv with attached := false } }

/-- `handle.isActive()`: the sender is in a batch, or the receiver is in the
middle of a file; a role swap is refused while it holds. -/
def isActive : Handle → Bool
  | .sender _ batch => batch.isSome
  | .receiver ui => ui.ui.receiving

/-- The handle's `detach()` has run: the sender's `detached` flag is up, or the
receiver no longer listens to its socket. -/
def isDetached : Handle → Bool
  | .sender detached _ => detached
  | .receiver ui => !ui.rcv.attached

/-- `handle.sendFiles` is there, which a sender's handle has and a receiver's has
not. -/
def canSend : Handle → Bool
  | .sender _ _ => true
  | .receiver _ => false

end Handle

/-- A call of `renderTransferUI`: the session it was given, its promise, and its
key and handle once it has them. -/
structure Render where
  session : PairedSession
  /-- Its promise is pending, or has resolved and the `.then` has not run. -/
  awaited : Bool
  epochKey : Bytes
  handle : Option Handle

/-- The render of a session just begun: its `deriveEpochKey` is still awaited, so
it has neither the epoch's key nor a handle. -/
def Render.start (session : PairedSession) : Render :=
  { session := session, awaited := true, epochKey := [], handle := none }

/-- A call of `sendFile`, with the render whose loop made it. -/
structure SendCall where
  render : Nat
  socket : ConnId
  args : SendArgs
  state : SendFile.State

/-- The promise of this `sendFile` call has not settled; only a pending call
reacts to its socket or sends on it. -/
def SendCall.pending (k : SendCall) : Bool := !k.state.isSettled

/-- An event dispatched on a socket, as a call with that socket hears it. -/
def SendCall.dispatch (socket : ConnId) (e : SendFile.Event) (k : SendCall) :
    SendCall × List Message :=
  if k.socket = socket then
    match SendFile.step k.args k.state e with
    | some (s, out) => ({ k with state := s }, out)
    | none => (k, [])
  else (k, [])

/-- An event dispatched on a socket, as a receiver on it hears it: neither of
its listeners sends anything. -/
def Render.dispatch (w : WebCrypto) (codec : MetaCodec) (socket : ConnId)
    (e : ReceiverTransfer.Event) (r : Render) : Render :=
  match r.handle with
  | some (.receiver ui) =>
      if r.session.socket = socket then
        match ReceiverTransfer.step { w := w, codec := codec, epochKey := r.epochKey } ui e with
        | some (ui, _) => { r with handle := some (.receiver ui) }
        | none => r
      else r
  | some (.sender _ _) | none => r

/-- One message of the peer as the screen's socket hears it: a signal of the
session layer, or a message of a transfer in progress. -/
inductive Payload where
  | signal (s : Signal)
  | message (m : Message)
  deriving DecidableEq

/-- What the page puts on a socket; `call` is the `sendFile` call it is from. -/
structure Output where
  socket : ConnId
  call : Option Nat
  payload : Payload
  deriving DecidableEq

/-- The paired screen of one page: the client's session state, every render with
its handle, the files picked but not yet sent, the `sendFile` calls and what
became of the sockets. -/
structure PairedScreen where
  client : Client
  sessionKey : Bytes
  renders : List Render
  activeTransferHandle : Option Nat
  pendingSendFiles : Option (List File)
  calls : List SendCall
  /-- The sockets whose `readyState` is no longer `OPEN`. -/
  shut : List ConnId
  /-- The sockets whose close event has been dispatched. -/
  closed : List ConnId

namespace PairedScreen

/-- Another screen than the paired one: no session, no render, no files waiting,
and no call. -/
def init : PairedScreen where
  client :=
    { paired := false, role := .host, epoch := 0, transferRole := .receiver, activeSocket := none,
      swapAwaitingResponse := false, swapTimers := 0, retries := [] }
  sessionKey := []
  renders := []
  activeTransferHandle := none
  pendingSendFiles := none
  calls := []
  shut := []
  closed := []

/-- What happens to the page. `pairs` is the end of a pairing flow, `reconnected`
that of a reconnect attempt, `leaves` any way off the paired screen; `hears` and
`arrives` are messages on a socket, for `wirePairedSocket` and for the transfer.
`derived` settles the `deriveEpochKey` of a render and `adopts` runs its `.then`;
`continues` resumes the loop of `sendFiles` after the call it awaits. The file id
is the one a `sendFile` call that starts will draw. -/
inductive Event where
  | pairs (role : Role) (socket : ConnId) (sessionKey : Bytes)
  | reconnected (socket : ConnId)
  | hears (m : Down)
  | arrives (socket : ConnId) (m : Message)
  | closes (socket : ConnId)
  | leaves
  | swapClick
  | swapTimer
  | derived (i : Nat) (err : Option String)
  | adopts (i : Nat) (fileId : FileId)
  | picks (i : Nat) (files : List File) (fileId : FileId)
  | continues (i : Nat) (fileId : FileId)
  | sendFile (k : Nat) (e : SendFile.Event)
  | receiver (i : Nat) (e : ReceiverTransfer.Event)

section
variable (x : PairedScreen)

/-- `getPairedSession()`: the socket, key, epoch and transfer role that a render
is built with, as long as the page is paired and has a socket. -/
def getPairedSession : Option PairedSession :=
  if x.client.paired then
    x.client.activeSocket.map fun socket =>
      { socket := socket, sessionKey := x.sessionKey, epoch := x.client.epoch
        transferRole := x.client.transferRole }
  else none

/-- The handle that render `i` returned, once its epoch's key has been derived; a
render still awaiting it has none. -/
def handle (i : Nat) : Option Handle := x.renders[i]?.bind Render.handle

/-- `activeTransferHandle && activeTransferHandle.isActive()`: whether a file is
going either way on the screen. -/
def isActive : Bool := (x.activeTransferHandle.bind x.handle).any Handle.isActive

/-- Put `r` in the place of render `i`; the other renders, which may still be
running, keep what they have. -/
def setRender (i : Nat) (r : Render) : PairedScreen := { x with renders := x.renders.set i r }

/-- Store `h` as what render `i` returned, leaving the render's session and its
epoch key as they were. -/
def setHandle (i : Nat) (h : Handle) : PairedScreen :=
  { x with renders := x.renders.modify i fun r => { r with handle := some h } }

/-- The socket's `readyState` is still `OPEN`: what `processFiles` tests before
each file of a batch. -/
def isOpen (socket : ConnId) : Bool := !x.shut.contains socket

/-- `socket.send`, silently dropped unless the socket is open. -/
def put (socket : ConnId) (call : Option Nat) (ms : List Message) : List Output :=
  if x.isOpen socket then ms.map fun m => ⟨socket, call, .message m⟩ else []

/-- `detachActiveTransfer()`: detach the handle that is current, wherever it came
from, and forget that it was current. -/
def detachActiveTransfer : PairedScreen :=
  match x.activeTransferHandle with
  | some i =>
      { x with
        renders := x.renders.modify i fun r => { r with handle := r.handle.map Handle.detach }
        activeTransferHandle := none }
  | none => x

/-- `renderPaired` up to the pending promise: the handle in use is detached, and a
render of the live session begins. -/
def renderPaired : PairedScreen :=
  let x := x.detachActiveTransfer
  match x.getPairedSession with
  | some session => { x with renders := x.renders ++ [Render.start session] }
  | none => x

/-- The promise of a render has resolved to its handle. -/
def adopt (i : Nat) : PairedScreen :=
  { x with
    renders := x.renders.modify i fun r => { r with awaited := false }
    activeTransferHandle := some i }

/-- `cleanupActive`: detach the handle, forget the files that wait, and close the
socket if there is one to close. -/
def cleanupActive (closes : Option ConnId) : PairedScreen :=
  { x.detachActiveTransfer with shut := x.shut ++ closes.toList, pendingSendFiles := none }

/-- What a listener or a button did to the client. -/
def react (r : Reaction) : PairedScreen :=
  let x := { x with client := r.client }
  if r.rendered then x.renderPaired
  else if r.client.paired then x
  else x.cleanupActive r.closes

end

section
variable (w : WebCrypto) (codec : MetaCodec) (x : PairedScreen)

/-- A handle of the render, once its key is derived. -/
def build (r : Render) : Handle :=
  match r.session.transferRole with
  | .sender => .sender false none
  | .receiver =>
      .receiver { ReceiverTransfer.init with
        rcv := { Receiver.init with socketClosed := x.closed.contains r.session.socket } }

/-- The loop of `sendFiles` reaches a file: it calls `sendFile` for it, and awaits
that call before the next one. -/
def sendFile (i : Nat) (r : Render) (file : File) (files : List File) (fileId : FileId) :
    PairedScreen :=
  { x.setHandle i (.sender false (some ⟨x.calls.length, files⟩)) with
    calls := x.calls ++ [{
      render := i
      socket := r.session.socket
      args := { w := w, codec := codec, epochKey := r.epochKey, file := file, fileId := fileId }
      state := { SendFile.init with socketClosed := x.closed.contains r.session.socket } }] }

/-- `processFiles(files)` of render `i`: begin a batch with its first file unless
the render is detached, sends already, or has nothing to send. -/
def sendFiles (i : Nat) (files : List File) (fileId : FileId) : PairedScreen :=
  match x.renders[i]?, files with
  | some r, file :: files =>
      match r.handle with
      | some (.sender false none) => x.sendFile w codec i r file files fileId
      -- a handle that is sending ignores them
      | _ => x
  | _, _ => x

/-- The `onStaleFiles` of `renderPaired`: files picked on a dead render go to the
live sender, or wait for one. -/
def onStaleFiles (files : List File) (fileId : FileId) : PairedScreen :=
  match x.activeTransferHandle, x.getPairedSession with
  | some i, some live =>
      if (x.handle i).any Handle.canSend && x.isOpen live.socket then
        x.sendFiles w codec i files fileId
      else { x with pendingSendFiles := some files }
  | _, _ => { x with pendingSendFiles := some files }

/-- The `.then` of `renderPaired`: `pendingSendFiles` goes to the new handle. -/
def flushPending (i : Nat) (fileId : FileId) : PairedScreen :=
  match x.pendingSendFiles with
  | some files =>
      if (x.handle i).any Handle.canSend then
        { x with pendingSendFiles := none }.sendFiles w codec i files fileId
      else x
  | none => x

/-- The loop of `sendFiles` after a call has settled. -/
def continueBatch (i : Nat) (r : Render) (detached : Bool) (files : List File) (fileId : FileId) :
    PairedScreen :=
  match files with
  | file :: files =>
      if detached then x.setHandle i (.sender detached none)
      else x.sendFile w codec i r file files fileId
  | [] => x.setHandle i (.sender detached none)

end

/-- The messages that `sendFile` calls put on a socket when one event is
dispatched to all of them, in the order of the calls. -/
def putAll (x : PairedScreen) (socket : ConnId) (outs : List (List Message)) : List Output :=
  (outs.mapIdx fun k ms => x.put socket (some k) ms).flatten

/-- A transfer message arrives; only a text one is for `sendFile`. -/
def onMessage (w : WebCrypto) (codec : MetaCodec) (x : PairedScreen) (socket : ConnId)
    (m : Message) : PairedScreen × List Output :=
  let x := { x with renders := x.renders.map (Render.dispatch w codec socket (.message m)) }
  match m with
  | .text env =>
      let calls := x.calls.map (SendCall.dispatch socket (.message env))
      ({ x with calls := calls.map Prod.fst }, x.putAll socket (calls.map Prod.snd))
  | .binary _ => (x, [])

/-- The close event of a socket: first for `wirePairedSocket`, then for the
transfers on it. The attempt to reconnect that begins here ends in `reconnected`
or `leaves`. -/
def onClose (w : WebCrypto) (codec : MetaCodec) (x : PairedScreen) (socket : ConnId) :
    PairedScreen × List Output :=
  let calls := x.calls.map (SendCall.dispatch socket .close)
  let x :=
    { x with
      client := (x.client.onPairedClose socket).1
      shut := x.shut ++ [socket]
      closed := x.closed ++ [socket]
      renders := x.renders.map (Render.dispatch w codec socket .close)
      calls := calls.map Prod.fst }
  (x, x.putAll socket (calls.map Prod.snd))

/-- What the page puts on the socket of a receiver. -/
def receiverOutput (x : PairedScreen) (socket : ConnId) (out : List Receiver.Action) :
    List Output :=
  x.put socket none (out.filterMap fun act =>
    match act with
    | .send m => some m
    | _ => none)

/-- One event of the screen's page, answered by the new screen and what it put on
its socket; `none` where the page cannot get that event now. -/
def step (w : WebCrypto) (codec : MetaCodec) (x : PairedScreen) (e : Event) :
    Option (PairedScreen × List Output) :=
  match e with
  | .pairs role socket sessionKey =>
      if x.client.paired || !x.isOpen socket then none
      else
        -- the timers of an earlier session run on
        let client := { Client.finalizePaired role socket with swapTimers := x.client.swapTimers }
        some ({ x with sessionKey := sessionKey }.react client.renderPaired, [])
  | .reconnected socket =>
      if !x.client.paired || !x.isOpen socket then none
      else some (x.react (x.client.onAttemptMessage socket (.notice .reconnected)), [])
  | .hears m =>
      match x.client.activeSocket with
      | some socket =>
          if !x.client.paired || !x.isOpen socket then none
          else
            let r := x.client.onPairedMessage x.isActive m
            some (x.react r, r.reply.toList.map fun s => ⟨socket, none, .signal s⟩)
      | none => none
  | .arrives socket m => if x.isOpen socket then some (x.onMessage w codec socket m) else none
  | .closes socket => if x.closed.contains socket then none else some (x.onClose w codec socket)
  | .leaves => if x.client.paired then some (x.react x.client.setState, []) else none
  | .swapClick =>
      if x.client.paired then
        let (client, request) := x.client.requestRoleSwap x.isActive
        some ({ x with client := client },
          (request.toList.filter fun r => x.isOpen r.1).map fun r => ⟨r.1, none, .signal r.2⟩)
      else none
  | .swapTimer =>
      if x.client.swapTimers > 0 then some ({ x with client := x.client.swapTimeout }, []) else none
  | .derived i err =>
      match x.renders[i]? with
      | some r =>
          if r.awaited && r.handle.isNone then
            match settle err (deriveEpochKey w r.session.sessionKey r.session.epoch) with
            | .ok key =>
                some (x.setRender i { r with epochKey := key, handle := some (x.build r) }, [])
            | .error _ => some (x.setRender i { r with awaited := false }, [])
          else none
      | none => none
  | .adopts i fileId =>
      match x.renders[i]? with
      | some r =>
          if r.awaited && r.handle.isSome then some ((x.adopt i).flushPending w codec i fileId, [])
          else none
      | none => none
  | .picks i files fileId =>
      match x.renders[i]? with
      | some r =>
          match r.handle with
          | some (.sender detached _) =>
              -- a handle that is detached, or whose socket is gone, hands its files on
              if detached || !x.isOpen r.session.socket then
                some (x.onStaleFiles w codec files fileId, [])
              else some (x.sendFiles w codec i files fileId, [])
          | some (.receiver _) | none => none
      | none => none
  | .continues i fileId =>
      match x.renders[i]? with
      | some r =>
          match r.handle with
          | some (.sender detached (some batch)) =>
              if (x.calls[batch.call]?).any SendCall.pending then none
              else some (x.continueBatch w codec i r detached batch.files fileId, [])
          | some (.sender _ none) | some (.receiver _) | none => none
      | none => none
  | .sendFile k e =>
      match x.calls[k]?, e with
      -- these are dispatched to all the calls on a socket
      | none, _ | _, .message _ | _, .close => none
      | some call, e =>
          (SendFile.step call.args call.state e).map fun r =>
            ({ x with calls := x.calls.set k { call with state := r.1 } },
              x.put call.socket (some k) r.2)
  | .receiver i e =>
      match x.renders[i]?, e with
      -- these are dispatched to all receivers on a socket; `detach` is the page's own doing
      | none, _ | _, .message _ | _, .close | _, .detach => none
      | some r, e =>
          match r.handle with
          | some (.receiver ui) =>
              (ReceiverTransfer.step { w := w, codec := codec, epochKey := r.epochKey } ui e).map
                fun t => (x.setHandle i (.receiver t.1), x.receiverOutput r.session.socket t.2)
          | some (.sender _ _) | none => none

/-- The step without its output, as a transition system. -/
def next (w : WebCrypto) (codec : MetaCodec) (x : PairedScreen) (e : Event) : Option PairedScreen :=
  (x.step w codec e).map Prod.fst

end PairedScreen

end Quicksend
