import Quicksend.Server.Hub

/-!
# The handlers of the relay (`handler.go`)

One handler serves each connection: it begins a session with the first
message, then reads until the session is ended or a read fails. An event of
the relay is one of these, run to completion, or a run of the reaper.
-/

namespace Quicksend.Server

/-- What a digit is worth to `encoding/hex`, in either case. -/
def hexDigit (c : Char) : Option Nat := Hex.value? c.toNat

/-- Two digits at a time; an odd one over, or anything that is no digit, is an
error. -/
def decodeHexChars : List Char → Option Bytes
  | [] => some []
  | [_] => none
  | a :: b :: rest =>
      match hexDigit a, hexDigit b, decodeHexChars rest with
      | some a, some b, some bytes => some (UInt8.ofNat (16 * a + b) :: bytes)
      | _, _, _ => none

/-- `hex.DecodeString`: the bytes that pairs of hexadecimal digits spell; an odd
length or another character is an error. -/
def decodeString (s : String) : Option Bytes := decodeHexChars s.toList

/-- The payload of a `reconnect` message: the session, the role that is claimed
and the token in hexadecimal. -/
structure ReconnectPayload where
  sessionID : String
  role : String
  tokenHex : String
  deriving DecidableEq

/-- The first message of a connection; a payload that does not unmarshal is
`none`. -/
inductive First where
  | binary
  | malformed
  | createSession
  | join (sessionID : Option String)
  | createCodeSession
  | joinByCode (code : Option String)
  | reconnect (payload : Option ReconnectPayload)
  | other
  deriving DecidableEq

/-- What a handler reads later, as `controlType` sorts it. -/
inductive Incoming where
  | endSession
  | reconnectToken (tokenHex : Option String)
  | other (binary : Bool) (data : Bytes)
  deriving DecidableEq

/-- What the random source gives to a handler that begins. -/
structure Draws where
  id : Except String String
  codes : Fin 20 → Except String (Fin 1000000)

/-- `beginSession`: let the first message decide which hub operation seats this
connection; any other first message is refused. -/
def beginSession (h : Hub) (first : First) (ip : String) (conn : ConnId) (now : Time)
    (draws : Draws) : Hub.Begun :=
  match first with
  | .createSession => h.CreateSession ip conn now draws.id
  | .join (some sessionID) => h.JoinSession sessionID ip conn now
  | .createCodeSession => h.CreateCodeSession ip conn now draws.id draws.codes
  | .joinByCode (some code) => h.JoinByCode code ip conn now
  | .reconnect (some payload) =>
      match parseRole payload.role, decodeString payload.tokenHex with
      | some role, some token => h.Reconnect payload.sessionID role token ip conn now
      | _, _ => (h, .error .invalidMessage, [])
  | .binary | .malformed | .join none | .joinByCode none | .reconnect none | .other =>
      (h, .error .invalidMessage, [])

/-- The text of `sendError` for a handler that did not begin. -/
def refusal (first : First) (err : BeginError) : String :=
  match first with
  | .binary => "first message must be text"
  | .malformed => "malformed json"
  | _ => err.message

/-- A connection, and the slot its handler serves while it runs. -/
structure Conn where
  ip : String
  slot : Option Slot
  closed : Bool
  /-- The reaper closed it. -/
  reaped : Bool
  deriving DecidableEq

namespace Conn

/-- A connection whose first message has been handled: it serves a slot, or it was
refused and is closed. -/
def accepted (ip : String) (slot : Option Slot) : Conn :=
  { ip := ip, slot := slot, closed := slot.isNone, reaped := false }

/-- The connection is closed, and it is noted when it was the reaper who closed
it. -/
def shut (reaper : Bool) (c : Conn) : Conn :=
  { c with closed := true, reaped := c.reaped || reaper }

/-- The handler returns; its last deferred call closes the connection. -/
def finish (c : Conn) : Conn := { c with slot := none, closed := true }

end Conn

/-- What carrying out an effect does to the connections: a close closes one, a
frame that is sent changes none. -/
def applyEffect (reaper : Bool) (conns : List Conn) : Effect → List Conn
  | .close conn _ => conns.modify conn (Conn.shut reaper)
  | .send _ _ => conns

/-- The relay: the hub and the connections, by the order in which they came. -/
structure Relay where
  hub : Hub
  conns : List Conn

/-- `drop` is a connection that breaks before its handler reads from it
again, `readError` the end of a handler whose read fails. -/
inductive Event where
  | begin (ip : String) (first : First) (now : Time) (draws : Draws)
  | frame (conn : ConnId) (msg : Incoming) (now : Time)
  | drop (conn : ConnId)
  | readError (conn : ConnId) (now : Time)
  | reap (now : Time) (ids : List String)

namespace Relay

/-- The relay at its start: an empty hub with this configuration, and no
connection yet. -/
def init (cfg : Config) : Relay := { hub := Hub.new cfg, conns := [] }

/-- The slot that a connection's handler serves, from its pairing to its end. -/
def serving (x : Relay) (conn : ConnId) : Option Slot := (x.conns[conn]?).bind Conn.slot

/-- `handleReconnectToken`: a token that does not parse is passed over, any other
is registered for the slot. -/
def handleReconnectToken (h : Hub) (slot : Slot) (tokenHex : Option String) : Hub :=
  match tokenHex.bind decodeString with
  | none => h
  | some token => h.RegisterReconnectToken slot token

/-- A handler reads a message: the end of the session, a token to register, or
something to pass on. -/
def read (x : Relay) (conn : ConnId) (slot : Slot) (msg : Incoming) (now : Time) :
    Relay × List Effect :=
  match msg with
  | .endSession =>
      let (h, effects) := x.hub.EndSession slot
      ({ hub := h, conns := (effects.foldl (applyEffect false) x.conns).modify conn Conn.finish },
        effects ++ [.close conn "connection closed"])
  | .reconnectToken tokenHex => ({ x with hub := handleReconnectToken x.hub slot tokenHex }, [])
  | .other binary data =>
      let (h, effects) := x.hub.Relay slot binary data now
      ({ x with hub := h }, effects)

/-- One event at the relay, answered by the new relay and the frames and closes it
makes: a first message, a later one, the end of a connection, or a round of the
reaper. -/
def step (x : Relay) (e : Event) : Option (Relay × List Effect) :=
  match e with
  | .begin ip first now draws =>
      let conn := x.conns.length
      match beginSession x.hub first ip conn now draws with
      | (h, .ok slot, effects) =>
          some ({ hub := h, conns := x.conns ++ [Conn.accepted ip (some slot)] }, effects)
      | (h, .error err, effects) =>
          some ({ hub := h, conns := x.conns ++ [Conn.accepted ip none] },
            effects ++ [sendEnvelope conn (.error (errCode err) (refusal first err)),
              .close conn "connection closed"])
  | .frame conn msg now => (x.serving conn).map fun slot => x.read conn slot msg now
  | .drop conn =>
      if conn < x.conns.length then
        some ({ x with conns := x.conns.modify conn (Conn.shut false) }, [])
      else none
  | .readError conn now =>
      (x.serving conn).map fun slot =>
        let (h, effects) := x.hub.HandleDisconnect slot now
        ({ hub := h, conns := x.conns.modify conn Conn.finish },
          effects ++ [.close conn "connection closed"])
  | .reap now ids =>
      if ids.Perm x.hub.sessions.keys then
        let (h, effects) := x.hub.ReapOnce now ids
        some ({ hub := h, conns := effects.foldl (applyEffect true) x.conns }, effects)
      else none

/-- The step without its effects, as a transition system. -/
def next (x : Relay) (e : Event) : Option Relay := (x.step e).map Prod.fst

/-! ## Small limits -/

/-- A configuration with small limits, to trace runs with: 100 bytes of a file,
two peers for an address, five guesses. -/
def smallConfig : Config where
  MaxFileSize := 100
  MaxSessionsPerIP := 2
  SessionInactivityTimeout := 300
  ReconnectGracePeriod := 45
  PairingCodeTTL := 300
  MaxPairingAttempts := 5

/-- The random draws of a call whose session id comes out as `id`, and whose
pairing codes are all zero. -/
def drawID (id : String) : Draws := { id := .ok id, codes := fun _ => .ok 0 }

end Relay

end Quicksend.Server
