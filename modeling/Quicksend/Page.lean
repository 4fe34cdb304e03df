import Quicksend.Pairing
import Quicksend.Pake
import Quicksend.Server.Session

/-!
# The screens of one page (`pairing.js`)

The module's variables and whatever may change them: the buttons of the screen
that is shown, the camera, the listeners of every socket the page has opened,
its timers and the promises it waits for. The other end of a socket may say
what it likes, except that it answers a `reconnect` only once it has read it.
Listeners are never removed, so a socket keeps them after the page has moved on.
-/

namespace Quicksend

open Pairing

/-- What the page is given: the exchange's package and HMAC-SHA256. -/
structure Browser where
  lib : PakePackage
  hmac (key message : Bytes) : Bytes

/-- The screens of the pairing page, under the names that `currentState.screen`
has; which buttons there are and what a close means depends on the one that is
shown. -/
inductive Screen where
  | roleSelect
  | codeRoleSelect
  | joinDetected
  | receiverGenerating
  | receiverWaiting
  | senderScanning
  | senderPaste
  | joining
  | codeReceiverGenerating
  | codeReceiverWaiting
  | codeSenderEntry
  | verifying
  | paired
  | error
  | insecureContext
  deriving DecidableEq

/-- `currentState.epoch`: a number, or what JavaScript makes of a missing one. -/
inductive Epoch where
  | undefined
  | nan
  | at (n : Nat)
  deriving DecidableEq

/-- What `currentState.epoch + 1` leaves: an epoch that was never set is
`undefined`, and counting on from there gives `NaN` for good. -/
def Epoch.next : Epoch → Epoch
  | .undefined | .nan => .nan
  | .at n => .at (n + 1)

/-- The object `currentState`, with every field that some screen sets. A render
reads it, and a state that is set by `setState` starts from these defaults. -/
structure CurrentState where
  screen : Screen
  sessionId : Option String := none
  sessionKey : Option Bytes := none
  /-- A pairing code, or the code of an error. -/
  code : Option String := none
  role : Option Role := none
  epoch : Epoch := .undefined
  transferRole : Option TransferRole := none
  reconnectToken : Option Bytes := none
  deriving DecidableEq

/-- What a link or a QR code carries. -/
structure PairingLink where
  sessionId : String
  sessionKey : Bytes
  deriving DecidableEq

/-- What the page says on a socket: its first message, the exchange, and the
messages of a paired session. -/
inductive Sent where
  | createSession
  | createCodeSession
  | join (sessionId : String)
  | joinByCode (code : String)
  | reconnect (sessionId : Option String) (role : Option Role) (token : Bytes)
  | reconnectToken (token : Bytes)
  | pake (m : PakeMessage)
  | roleSwapRequest
  | roleSwapResponse (accepted : Bool)
  | endSession
  deriving DecidableEq

/-- What the page hears on a socket: the relay's notices, and the messages of the
other page that it passes on. -/
inductive Received where
  | sessionCreated (sessionId : String)
  | codeSessionCreated (code : String)
  | paired (sessionId : Option String)
  | reconnected
  | error (code : Option String)
  | pake (m : PakeMessage)
  | peerDisconnected
  | peerReconnected
  | roleSwapRequest
  | roleSwapResponse (accepted : Bool)
  | sessionEnded (reason : Option String)
  deriving DecidableEq

/-- The function that opened a socket, with what its listeners remember. -/
inductive Opener where
  | receiver
  | receiverCode
  | joinByCode (code : String)
  | join (link : PairingLink)
  | reconnect (attempt : Nat) (sessionId : Option String) (role : Option Role) (token : Bytes)
  deriving DecidableEq

/-- The socket was opened by one of the four pairing flows, and not by an attempt
to reconnect, whose listeners are other ones. -/
def Opener.isFlow : Opener → Bool
  | .receiver | .receiverCode | .joinByCode _ | .join _ => true
  | .reconnect .. => false

/-- The `readyState` of a WebSocket. Between `closing` and `closed` messages may
still arrive, but nothing more is sent. -/
inductive ReadyState where
  | connecting
  | opened
  | closing
  | closed
  deriving DecidableEq

/-- How far the relay is with the `reconnect` of a socket; from `accepted` to
`over` the socket is the one in the session's slot. -/
inductive Resuming where
  | unasked
  | asked
  | accepted
  | resumed
  | refused
  | over
  deriving DecidableEq

/-- A WebSocket as the page knows it: who opened it, how often it was wired, what
was sent on it, and how far the relay is with its `reconnect`. -/
structure Socket where
  readyState : ReadyState
  opener : Opener
  /-- How often `wirePairedSocket` was given it. -/
  wired : Nat
  sent : List Sent
  resuming : Resuming
  /-- It was opened before the page last left a screen with `setState`, or by
  an attempt that was. -/
  abandoned : Bool
  deriving DecidableEq

namespace Socket

/-- `connect`: a new socket that is still connecting, unwired, with nothing sent
and nothing asked of the relay. -/
def connect (opener : Opener) (abandoned : Bool) : Socket :=
  { readyState := .connecting, opener := opener, wired := 0, sent := [], resuming := .unasked
    abandoned := abandoned }

/-- The socket is opening or open, so that closing it has an effect; the other two
states are left as they are. -/
def live (s : Socket) : Bool := s.readyState = .connecting || s.readyState = .opened

/-- The relay has the socket in a slot. -/
def held (s : Socket) : Bool := s.resuming = .accepted || s.resuming = .resumed

/-- A closed socket drops what it is given. -/
def send (m : Sent) (s : Socket) : Socket :=
  if s.readyState = .opened then { s with sent := s.sent ++ [m] } else s

/-- `socket.close()`: the close event comes later, and until then messages may
still be heard on the socket. -/
def close (s : Socket) : Socket := if s.live then { s with readyState := .closing } else s

/-- The page leaves the screen for which the socket was opened; nothing happens to
the socket itself, and what it still hears is what the results about left flows
are about. -/
def abandon (s : Socket) : Socket := { s with abandoned := true }

/-- What the open listener sends: the first message of the flow or of the attempt
that opened the socket. -/
def greeting (s : Socket) : Sent :=
  match s.opener with
  | .receiver => .createSession
  | .receiverCode => .createCodeSession
  | .joinByCode code => .joinByCode code
  | .join link => .join link.sessionId
  | .reconnect _ sessionId role token => .reconnect sessionId role token

/-- The open listener: the socket is open and its greeting goes out; a `reconnect`
waits for the answer of the relay from now on. -/
def onOpen (s : Socket) : Socket :=
  let s := send s.greeting { s with readyState := .opened }
  if s.opener.isFlow then s else { s with resuming := .asked }

/-- The close event has been dispatched on the socket, which hears and sends
nothing any more. -/
def onClose (s : Socket) : Socket := { s with readyState := .closed }

/-- The relay has read the `reconnect` of this socket, and has resumed the slot or
refused to. -/
def answer (accepted : Bool) (s : Socket) : Socket :=
  { s with resuming := if accepted then .accepted else .refused }

/-- The relay's end of this socket is gone, so that nothing is held for it any
more. -/
def drop (s : Socket) : Socket := { s with resuming := .over }

/-- `reconnected` and, to an attempt, `error` are answers. -/
def mayHear (s : Socket) : Received → Bool
  | .reconnected => s.resuming = .accepted
  | .error _ => s.opener.isFlow || s.resuming = .refused
  | _ => true

/-- What a message says about the `reconnect` that was asked for on the socket:
`reconnected` answers it, and to an attempt an `error` ends it. -/
def hear (m : Received) (s : Socket) : Socket :=
  match m with
  | .reconnected => { s with resuming := .resumed }
  | .error _ => if s.opener.isFlow then s else s.drop
  | _ => s

end Socket

/-- A running 3-second timer: the attempt it will make. -/
structure Retry where
  attempt : Nat
  abandoned : Bool
  deriving DecidableEq

/-- How far a QR scan is: the camera is being opened, frames are decoded, or the
scan has been stopped for good. -/
inductive ScanStage where
  | starting
  | running
  | stopped
  deriving DecidableEq

/-- One call of `startScanning`, and its variable `cancelled`, which the handler
of the screen sets before `startScanning` has returned its `stop`. -/
structure Scan where
  stage : ScanStage
  cancelled : Bool
  deriving DecidableEq

/-- A running `runPakeExchange`, with what its `then` remembers. -/
structure Exchange (lib : PakePackage) where
  socket : ConnId
  sessionId : Option String
  role : Role
  code : JSString
  seed : Bytes
  pc : Pake.Pc lib

/-- What the exchange hands to `runPakeExchange`; only its own side of the code
and of the randomness is ever read. -/
def Exchange.args (b : Browser) (e : Exchange b.lib) : PakeArgs :=
  { lib := b.lib, hmac := b.hmac, code := fun _ => e.code, seed := fun _ => e.seed }

/-- The module variables of `pairing.js`, and everything that is under way around
them: sockets, scans, exchanges, derivations of tokens, and timers. -/
structure Page (lib : PakePackage) where
  currentState : CurrentState
  activeSocket : Option ConnId
  activeStopScan : Option Nat
  swapAwaitingResponse : Bool
  /-- The running 8-second timers of swap requests. -/
  swapTimers : Nat
  sockets : List Socket
  scans : List Scan
  exchanges : List (Exchange lib)
  /-- The reconnect tokens that are being derived, each for its socket. -/
  derivations : List (ConnId × Bytes)
  retries : List Retry

/-- The context string under which a reconnect token is derived, so that the token
is no other key of the session. -/
def RECONNECT_INFO : Bytes := ascii "quicksend-reconnect"

/-- A key of another length makes the promise reject. -/
def deriveReconnectToken (b : Browser) (sessionKey : Option Bytes) (sessionId : Option String) :
    Option Bytes :=
  match sessionKey with
  | some key =>
      if key.length = 32 then some (b.hmac key (RECONNECT_INFO ++ ascii (sessionId.getD "")))
      else none
  | none => none

/-- The code units of a string that the page holds, as JavaScript hands it to the
PAKE package. -/
def utf16 (s : String) : JSString :=
  s.toList.map fun ch => UInt16.ofNat ch.toNat

namespace Page

section
variable {lib : PakePackage}

/-- The page before anything has happened on it, with the state that it begins
with; `initPairing` says which states those are. -/
def init (start : CurrentState) : Page lib where
  currentState := start
  activeSocket := none
  activeStopScan := none
  swapAwaitingResponse := false
  swapTimers := 0
  sockets := []
  scans := []
  exchanges := []
  derivations := []
  retries := []

/-- `initPairing`: without a secure context the page only says so; otherwise it
starts from a link, or from home. -/
def initPairing (isSecureContext : Bool) (detected : Option PairingLink) : Page lib :=
  init <|
    if !isSecureContext then { screen := .insecureContext }
    else match detected with
      | some link =>
          { screen := .joinDetected, sessionId := some link.sessionId
            sessionKey := some link.sessionKey }
      | none => { screen := .roleSelect }

/-- Something happens to socket `c`, and to nothing else of the page; a socket
that was never opened is left out of it. -/
def modifySocket (x : Page lib) (c : ConnId) (f : Socket → Socket) : Page lib :=
  { x with sockets := x.sockets.modify c f }

/-- `sendEnvelope(socket, type, payload)`: the message goes out on socket `c`, or
is dropped if the socket is not open. -/
def sendEnvelope (x : Page lib) (c : ConnId) (m : Sent) : Page lib :=
  x.modifySocket c (Socket.send m)

/-- Scan `i` comes to another stage; whether it was cancelled stays as it is. -/
def setScan (x : Page lib) (i : Nat) (stage : ScanStage) : Page lib :=
  { x with scans := x.scans.modify i fun scan => { scan with stage := stage } }

/-- The `stop` that `startScanning` returned for scan `i`; stopping a scan twice
changes nothing. -/
def stopScan (x : Page lib) (i : Nat) : Page lib := x.setScan i .stopped

/-- `cancelled` of the scan that the screen shows, the last that was begun. -/
def cancelScan (x : Page lib) : Page lib :=
  { x with scans := x.scans.modify (x.scans.length - 1) fun scan =>
      { scan with cancelled := true } }

/-- `render` as far as it changes the state: the scanning screen begins a scan,
and the paired one forgets an unanswered swap request. -/
def render (x : Page lib) : Page lib :=
  match x.currentState.screen with
  | .senderScanning => { x with scans := x.scans ++ [⟨.starting, false⟩] }
  | .paired => { x with swapAwaitingResponse := false }
  | _ => x

/-- `cleanupActive`: the running scan is stopped and the active socket is closed,
and neither is active any more. -/
def cleanupActive (x : Page lib) : Page lib :=
  let x := match x.activeStopScan with
    | some i => { x.stopScan i with activeStopScan := none }
    | none => x
  match x.activeSocket with
  | some c => { x.modifySocket c Socket.close with activeSocket := none }
  | none => x

/-- All that is still under way is left behind. -/
def abandon (x : Page lib) : Page lib :=
  { x with
    sockets := x.sockets.map Socket.abandon
    retries := x.retries.map fun r => { r with abandoned := true } }

/-- `setState`: the page leaves all that is under way and shows another screen.
What was opened for the screen before may still be heard of. -/
def setState (x : Page lib) (next : CurrentState) : Page lib :=
  { x.cleanupActive.abandon with currentState := next }.render

/-- `currentState` is replaced and rendered, without `setState`: the socket and
the scan of the flow go on under the next screen. -/
def advance (x : Page lib) (next : CurrentState) : Page lib :=
  { x with currentState := next }.render

/-- `setState` with the error screen and a code; every flow that fails ends here,
and so does a session that is over. -/
def showError (x : Page lib) (code : Option String) : Page lib :=
  x.setState { screen := .error, code := code }

/-! ## The four flows -/

/-- `connect`, and the socket becomes the active one. -/
def openFlow (x : Page lib) (opener : Opener) : Page lib :=
  { x with
    sockets := x.sockets ++ [Socket.connect opener false]
    activeSocket := some x.sockets.length }

/-- The receiver generates a link: a socket is opened, which will ask the relay
for a session. -/
def startReceiverFlow (x : Page lib) : Page lib :=
  (x.advance { screen := .receiverGenerating }).openFlow .receiver

/-- The receiver asks for a pairing code: a socket is opened, which will ask the
relay for a session with a code. -/
def startReceiverCodeFlow (x : Page lib) : Page lib :=
  (x.advance { screen := .codeReceiverGenerating }).openFlow .receiverCode

/-- The sender has entered a code: a socket is opened, which will join the session
of the code. -/
def startJoinByCode (x : Page lib) (code : String) : Page lib :=
  (x.advance { screen := .joining }).openFlow (.joinByCode code)

/-- The sender has a link: its session and its key are kept, and a socket is
opened, which will join the session. -/
def startJoin (x : Page lib) (link : PairingLink) : Page lib :=
  ({ x with activeStopScan := none }.advance
    { screen := .joining, sessionId := some link.sessionId
      sessionKey := some link.sessionKey }).openFlow (.join link)

/-- What is done with a decoded QR code; `none` is one that is no link. -/
def onDecode (x : Page lib) : Option PairingLink → Page lib
  | none => x.showError "invalid_qr"
  | some link => x.startJoin link

/-! ## The paired session -/

/-- `wirePairedSocket` adds its listeners to the socket once more; `wired` counts
how many of each the socket has. -/
def wirePairedSocket (x : Page lib) (c : ConnId) : Page lib :=
  x.modifySocket c fun s => { s with wired := s.wired + 1 }

/-- The side that received sends from now on, or the other way round, and the
paired screen is rendered for its new role. -/
def flipTransferRole (x : Page lib) : Page lib :=
  { x with currentState := { x.currentState with
      transferRole := some <|
        if x.currentState.transferRole = some TransferRole.sender then .receiver else .sender }
    }.render

/-- A click on the swap button, with `activeTransferHandle.isActive()`. Without
a socket the send throws, and no timer is set. -/
def requestRoleSwap (x : Page lib) (busy : Bool) : Page lib :=
  if busy || x.swapAwaitingResponse then x
  else match x.activeSocket with
    | none => { x with swapAwaitingResponse := true }
    | some c =>
        { x.sendEnvelope c .roleSwapRequest with
          swapAwaitingResponse := true, swapTimers := x.swapTimers + 1 }

/-- The disconnect button: the relay is told that the session has ended, and the
page goes back to its first screen. -/
def disconnectSession (x : Page lib) : Page lib :=
  (match x.activeSocket with
    | some c => x.sendEnvelope c .endSession
    | none => x).setState { screen := .roleSelect }

/-- `attemptReconnect(attempt)`: a new socket for the attempt, `abandoned` when
the attempt before it was; without a token the error screen. -/
def attemptReconnect (x : Page lib) (attempt : Nat) (abandoned : Bool) : Page lib :=
  if x.currentState.screen ≠ .paired then x
  else match x.currentState.reconnectToken with
    | none => x.showError "connection_lost"
    | some token =>
        let opener := .reconnect attempt x.currentState.sessionId x.currentState.role token
        { x with sockets := x.sockets ++ [Socket.connect opener abandoned] }

/-- The message listeners of `wirePairedSocket`, one for each time the socket
was wired, in turn. A render leaves no active transfer handle to be busy. -/
def onPairedMessage (c : ConnId) (m : Received) : Nat → Bool → Page lib → Page lib
  | 0, _, x => x
  | n + 1, busy, x =>
      match m with
      | .sessionEnded reason =>
          onPairedMessage c m n false (x.showError (some (reason.getD "session_ended")))
      | .peerReconnected =>
          onPairedMessage c m n false { x with currentState := { x.currentState with
            epoch := x.currentState.epoch.next } }.render
      | .roleSwapRequest =>
          let refuses := busy || x.swapAwaitingResponse
          let x := x.sendEnvelope c (.roleSwapResponse !refuses)
          if refuses then onPairedMessage c m n busy x
          else onPairedMessage c m n false x.flipTransferRole
      | .roleSwapResponse accepted =>
          if !x.swapAwaitingResponse then onPairedMessage c m n busy x
          else if accepted then
            onPairedMessage c m n false { x with swapAwaitingResponse := false }.flipTransferRole
          else onPairedMessage c m n busy { x with swapAwaitingResponse := false }
      | .sessionCreated _ | .codeSessionCreated _ | .paired _ | .reconnected | .error _ | .pake _
      | .peerDisconnected => x

/-- The close listeners of `wirePairedSocket`, in turn: each begins an attempt
unless one before it has. -/
def onPairedClose (c : ConnId) : Nat → Page lib → Page lib
  | 0, x => x
  | n + 1, x =>
      if x.currentState.screen ≠ .paired ∨ x.activeSocket ≠ some c then onPairedClose c n x
      else onPairedClose c n ({ x with activeSocket := none }.attemptReconnect 1 false)

/-- The close listener of the function that opened the socket. -/
def onOpenerClose (x : Page lib) (c : ConnId) (s : Socket) : Page lib :=
  match s.opener with
  | .receiver | .receiverCode | .joinByCode _ | .join _ =>
      if x.currentState.screen ≠ .paired ∧ x.currentState.screen ≠ .error then
        x.showError "connection_lost"
      else x
  | .reconnect attempt .. =>
      if x.currentState.screen ≠ .paired ∨ x.activeSocket = some c then x
      else if attempt ≥ RECONNECT_MAX_ATTEMPTS then x.showError "connection_lost"
      else { x with retries := x.retries ++ [⟨attempt + 1, s.abandoned⟩] }

/-- A `pake_msg` or a `pake_confirm` reaches the exchanges of its socket. -/
def onPake (x : Page lib) (c : ConnId) (m : PakeMessage) : Page lib :=
  { x with exchanges := x.exchanges.map fun e =>
      if e.socket = c then { e with pc := Pake.hear e.pc m } else e }

end

section
variable (b : Browser)

/-- `finalizePaired`: the socket is wired, the paired screen begins in epoch 0
with the host as receiver, and the reconnect token is being derived. -/
def finalizePaired (x : Page b.lib) (c : ConnId) (sessionId : Option String)
    (sessionKey : Option Bytes) (role : Role) : Page b.lib :=
  (wirePairedSocket
    { x with
      currentState :=
        { screen := .paired, sessionId := sessionId, sessionKey := sessionKey, role := some role
          epoch := .at 0
          transferRole := some (if role = .host then .receiver else .sender) }
      derivations := x.derivations ++
        ((deriveReconnectToken b sessionKey sessionId).map (Prod.mk c)).toList } c).render

/-- Exchange `i` comes to another suspension point; whose socket, code and
randomness it has stays as it is. -/
def setExchange (x : Page b.lib) (i : Nat) (pc : Pake.Pc b.lib) : Page b.lib :=
  { x with exchanges := x.exchanges.modify i fun e => { e with pc := pc } }

/-- `runPakeExchange` is called for a flow that is paired by a code; it runs on
beside the page until it settles. -/
def runPakeExchange (x : Page b.lib) (c : ConnId) (sessionId : Option String) (role : Role)
    (code : JSString) (seed : Bytes) : Page b.lib :=
  { x with exchanges := x.exchanges ++ [⟨c, sessionId, role, code, seed, .initializing⟩] }

/-- The message listener of the function that opened the socket. `draw` is what
it draws: a session key, or the exchange's randomness. -/
def onOpenerMessage (x : Page b.lib) (c : ConnId) (opener : Opener) (m : Received) (draw : Bytes) :
    Page b.lib :=
  match opener, m with
  | .receiver, .sessionCreated sessionId =>
      x.advance
        { screen := .receiverWaiting, sessionId := some sessionId, sessionKey := some draw }
  | .receiver, .paired _ =>
      x.finalizePaired b c x.currentState.sessionId x.currentState.sessionKey .host
  | .receiverCode, .codeSessionCreated code =>
      x.advance { screen := .codeReceiverWaiting, code := some code }
  | .receiverCode, .paired sessionId =>
      -- A code that is missing reaches the package as text.
      let code := utf16 (x.currentState.code.getD "<undefined>")
      (x.advance { screen := .verifying }).runPakeExchange b c sessionId .host code draw
  | .joinByCode code, .paired sessionId =>
      (x.advance { screen := .verifying }).runPakeExchange b c sessionId .guest (utf16 code) draw
  | .join link, .paired _ =>
      x.finalizePaired b c (some link.sessionId) (some link.sessionKey) .guest
  | .reconnect .., .reconnected =>
      (wirePairedSocket
        { x with
          activeSocket := some c
          currentState := { x.currentState with epoch := x.currentState.epoch.next } } c).render
  | .reconnect .., .error code => x.showError (some (code.getD "connection_lost"))
  | .receiver, .error code | .receiverCode, .error code | .joinByCode _, .error code
  | .join _, .error code => x.showError code
  | _, _ => x

/-- The listeners in the order in which they were added. -/
def onMessage (x : Page b.lib) (c : ConnId) (s : Socket) (m : Received) (draw : Bytes)
    (busy : Bool) : Page b.lib :=
  let x := onPairedMessage c m s.wired busy (x.onOpenerMessage b c s.opener m draw)
  match m with
  | .pake m => x.onPake c m
  | _ => x

/-- The exchange goes on with what it awaited, or with its failure `err`; its
last step is the `then` or the `catch` of the flow. -/
def resumeExchange (x : Page b.lib) (i : Nat) (e : Exchange b.lib) (err : Option String) :
    Option (Page b.lib) :=
  match Pake.resume (e.args b) e.role e.pc with
  | none => none
  | some res =>
      match settle err res with
      | .ok (pc, out) =>
          let x := out.foldl (fun x m => x.sendEnvelope e.socket (.pake m)) (x.setExchange b i pc)
          match pc with
          | .settled (.ok sessionKey) =>
              some (x.finalizePaired b e.socket e.sessionId (some sessionKey) e.role)
          -- every failure of the exchange is shown as a mismatch
          | .settled (.error _) => some (x.showError "code_mismatch")
          | _ => some x
      | .error err => some ((x.setExchange b i (.settled (.error err))).showError "code_mismatch")

end

end Page

/-! ## What may happen -/

/-- The buttons, with what was entered; a text that is no link is `none`. -/
inductive Button where
  | startReceive
  | startSend
  | remoteCodeLink
  | roleReceive
  | roleSend
  | joinDetected
  | joinDetectedCancel
  | enterCode (digits : String)
  | pasteLinkInstead
  | enterLink (link : Option PairingLink)
  | back
  | swapRoles (busy : Bool)
  | disconnect
  | tryAgain
  deriving DecidableEq

namespace Page

/-- What can happen to the page. A click is what the user does; the others are
dispatched on a scan or a socket, settle a promise, or are timers. -/
inductive Event where
  | click (button : Button)
  | cameraDenied (i : Nat)
  | cameraReady (i : Nat) (decoded : Option (Option PairingLink))
  | scanned (i : Nat) (decoded : Option PairingLink)
  | opens (c : ConnId)
  | message (c : ConnId) (m : Received) (draw : Bytes) (busy : Bool)
  | closes (c : ConnId)
  | relayReads (c : ConnId) (accepted : Bool)
  | relayDrops (c : ConnId)
  | pakeResumes (i : Nat) (err : Option String)
  | tokenDerived (i : Nat)
  | retry (i : Nat)
  | swapTimer
  deriving DecidableEq

section
variable {lib : PakePackage}

/-- The buttons of the screen that is shown. -/
def click (x : Page lib) (button : Button) : Option (Page lib) :=
  match x.currentState.screen, button with
  | .roleSelect, .startReceive => some x.startReceiverFlow
  | .roleSelect, .startSend => some (x.advance { screen := .senderScanning })
  | .roleSelect, .remoteCodeLink => some (x.advance { screen := .codeRoleSelect })
  | .codeRoleSelect, .roleReceive => some x.startReceiverCodeFlow
  | .codeRoleSelect, .roleSend => some (x.advance { screen := .codeSenderEntry })
  | .codeRoleSelect, .back => some (x.setState { screen := .roleSelect })
  | .joinDetected, .joinDetected =>
      match x.currentState.sessionId, x.currentState.sessionKey with
      | some sessionId, some sessionKey => some (x.startJoin ⟨sessionId, sessionKey⟩)
      | _, _ => none
  | .joinDetected, .joinDetectedCancel => some (x.setState { screen := .roleSelect })
  | .receiverWaiting, .back => some (x.setState { screen := .roleSelect })
  | .codeReceiverWaiting, .back => some (x.setState { screen := .codeRoleSelect })
  | .codeSenderEntry, .enterCode digits =>
      if digits.length ≠ 6 then some (x.showError "invalid_code")
      else some (x.startJoinByCode digits)
  | .codeSenderEntry, .back => some (x.setState { screen := .codeRoleSelect })
  | .senderScanning, .pasteLinkInstead => some (x.cancelScan.setState { screen := .senderPaste })
  | .senderScanning, .back => some (x.cancelScan.setState { screen := .roleSelect })
  | .senderPaste, .enterLink none => some (x.showError "invalid_link")
  | .senderPaste, .enterLink (some link) => some (x.startJoin link)
  | .senderPaste, .back => some (x.setState { screen := .senderScanning })
  | .paired, .swapRoles busy => some (x.requestRoleSwap busy)
  | .paired, .disconnect => some x.disconnectSession
  | .error, .tryAgain => some (x.setState { screen := .roleSelect })
  | _, _ => none

/-- `startScanning` has returned its `stop`: a screen left meanwhile stops the
camera, any other keeps it for later. -/
def onScanning (x : Page lib) (i : Nat) (cancelled : Bool) : Page lib :=
  if cancelled then x.stopScan i else { x with activeStopScan := some i }

end

variable (b : Browser)

/-- One event and all that runs within its turn of the event loop; `none` where
the event cannot happen in this state. -/
def step (x : Page b.lib) : Event → Option (Page b.lib)
  | .click button => x.click button
  | .cameraDenied i =>
      match x.scans[i]? with
      -- the scan may have been cancelled before the camera was there
      | some ⟨.starting, cancelled⟩ =>
          some (((x.stopScan i).showError "camera_error").onScanning i cancelled)
      | _ => none
  | .cameraReady i decoded =>
      match x.scans[i]? with
      | some ⟨.starting, cancelled⟩ =>
          match decoded with
          | none => some ((x.setScan i .running).onScanning i cancelled)
          | some decoded => some (((x.stopScan i).onDecode decoded).onScanning i cancelled)
      | _ => none
  | .scanned i decoded =>
      match x.scans[i]? with
      | some ⟨.running, _⟩ => some ((x.stopScan i).onDecode decoded)
      | _ => none
  | .opens c =>
      match x.sockets[c]? with
      | some s =>
          if s.readyState = .connecting then some (x.modifySocket c Socket.onOpen) else none
      | none => none
  | .message c m draw busy =>
      match x.sockets[c]? with
      | some s =>
          -- the relay answers a `reconnect` once, and only what it has been asked
          if s.readyState = .opened ∧ s.mayHear m then
            some ((x.modifySocket c (Socket.hear m)).onMessage b c s m draw busy)
          else none
      | none => none
  | .closes c =>
      match x.sockets[c]? with
      | some s =>
          if s.readyState = .closed then none
          -- the opener added its listener before the socket was wired
          else some (onPairedClose c s.wired ((x.modifySocket c Socket.onClose).onOpenerClose c s))
      | none => none
  | .relayReads c accepted =>
      match x.sockets[c]? with
      | some s =>
          if s.resuming = .asked then some (x.modifySocket c (Socket.answer accepted)) else none
      | none => none
  | .relayDrops c =>
      match x.sockets[c]? with
      | some _ => some (x.modifySocket c Socket.drop)
      | none => none
  | .pakeResumes i err =>
      match x.exchanges[i]? with
      | some e => x.resumeExchange b i e err
      | none => none
  | .tokenDerived i =>
      match x.derivations[i]? with
      | some (c, token) =>
          some (({ x with
            derivations := x.derivations.eraseIdx i
            currentState := { x.currentState with reconnectToken := some token } }).sendEnvelope c
              (.reconnectToken token))
      | none => none
  | .retry i =>
      match x.retries[i]? with
      | some r =>
          some ({ x with retries := x.retries.eraseIdx i }.attemptReconnect r.attempt r.abandoned)
      | none => none
  | .swapTimer =>
      if x.swapTimers = 0 then none
      else some { x with swapAwaitingResponse := false, swapTimers := x.swapTimers - 1 }

/-- A browser to evaluate with: the labelling package, and an HMAC that joins key
and text. -/
def labelBrowser : Browser := ⟨Pake.labelPake, fun key message => key ++ message⟩

end Page

end Quicksend
