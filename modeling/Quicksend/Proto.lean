import Quicksend.Wire

/-!
# The control messages of the relay (`messages.go`)

What the relay itself writes on a connection, next to the frames it relays
as they are.
-/

namespace Quicksend

/-- A time or a duration of Go, in nanoseconds; only differences of times matter. -/
abbrev Time := Int

/-- A connection is known by its place in the order in which the connections were
accepted. -/
abbrev ConnId := Nat

/-- The reason of a `session_ended` notice when the other side ended the session
on purpose. -/
def ReasonEndedByPeer : String := "ended_by_peer"

/-- The reason of a `session_ended` notice when the other side dropped and did not
return in time. -/
def ReasonPeerTimeout : String := "peer_timeout"

/-- The reason of a `session_ended` notice when nobody used the session for too
long. -/
def ReasonInactivityTimeout : String := "inactivity_timeout"

/-- The control messages that the relay itself writes, each with the fields of its
payload. -/
inductive Control where
  | sessionCreated (sessionID : String)
  | codeSessionCreated (code : String) (expiresAt : Time)
  | paired (sessionID : String)
  | sessionEnded (reason : String)
  | peerDisconnected
  | reconnected
  | peerReconnected
  | fileAbort (fileID : JSString) (reason : JSString)
  | error (code message : String)
  deriving DecidableEq

/-- What is written on a connection: a message of the relay's own, or bytes of the
other side passed on as they came. -/
inductive Frame where
  | control (m : Control)
  | relayed (binary : Bool) (data : Bytes)
  deriving DecidableEq

/-- What a step of the relay does to connections. -/
inductive Effect where
  | send (conn : ConnId) (frame : Frame)
  | close (conn : ConnId) (reason : String)
  deriving DecidableEq

/-- `sendEnvelope`: write a message of the relay's own, which always marshals, on
this connection. -/
def sendEnvelope (conn : ConnId) (m : Control) : Effect := .send conn (.control m)

/-- Whether this effect closes connection `conn`; writing a frame to it does not. -/
def Effect.closes (conn : ConnId) : Effect → Bool
  | .close c _ => c = conn
  | .send _ _ => false

/-- How the host's role is spelled in a message: the side that began the session. -/
def RoleHostWire : String := "host"

/-- How the guest's role is spelled in a message: the side that joined a session
that was there. -/
def RoleGuestWire : String := "guest"

/-- `parseRole`: exactly the two spellings are read, and any other string stands
for no role. -/
def parseRole (wire : String) : Option Role :=
  if wire = RoleHostWire then some .host
  else if wire = RoleGuestWire then some .guest
  else none

/-- How a role is spelled in the messages of the protocol; `parseRole` reads it
back. -/
def Role.wire : Role → String
  | .host => RoleHostWire
  | .guest => RoleGuestWire

@[simp] theorem parseRole_wire (r : Role) : parseRole r.wire = some r := by
  cases r <;> decide +kernel

/-- The errors of `hub.go` and `handler.go`; the last two carry the text of
the random source's error. -/
inductive BeginError where
  | tooManySessions
  | sessionNotFound
  | sessionFull
  | invalidCode
  | tooManyAttempts
  | invalidReconnectToken
  | invalidMessage
  | noUnusedCode
  | generateSessionID (err : String)
  | generatePairingCode (err : String)
  deriving DecidableEq

/-- `err.Error()`: the text of a refusal, as it goes into the error message. -/
def BeginError.message : BeginError → String
  | .tooManySessions => "too many concurrent sessions for this client"
  | .sessionNotFound => "session not found"
  | .sessionFull => "session already has two peers"
  | .invalidCode => "invalid or expired pairing code"
  | .tooManyAttempts => "too many wrong pairing code attempts"
  | .invalidReconnectToken => "invalid reconnect token, or nothing to reconnect to"
  | .invalidMessage =>
      "first message must be create_session, join, create_code_session, join_by_code, or reconnect"
  | .noUnusedCode => "generate pairing code: could not find an unused pairing code"
  | .generateSessionID err => "generate session id: " ++ err
  | .generatePairingCode err => "generate pairing code: " ++ err

/-- `errCode`: the code of the error message that a refused entry is answered
with, the same for every failure it has no name for. -/
def errCode : BeginError → String
  | .tooManySessions => "too_many_sessions"
  | .sessionNotFound => "session_not_found"
  | .sessionFull => "session_full"
  | .invalidCode => "invalid_code"
  | .tooManyAttempts => "too_many_attempts"
  | .invalidReconnectToken => "invalid_reconnect_token"
  | .invalidMessage | .noUnusedCode | .generateSessionID _ | .generatePairingCode _ =>
      "invalid_message"

end Quicksend
