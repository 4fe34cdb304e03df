import Quicksend.Page
import Quicksend.Server.Texts

/-!
# What the page and the relay say to each other

The texts behind the messages of the page (`pairing.js`), the messages that its
listeners make of a text, and what the relay does with them.
-/

namespace Quicksend

/-- What `pake.init` and `pake.update` return as a message, and the bytes that
reach the package again. -/
def pakeString (message : Bytes) : JSString := Utf16.encode (Urlencoded.decodeUtf8 message)

/-- `TextEncoder.encode` of the `message` string of a `pake_msg`: the bytes that
are handed to `jsUpdate`. -/
def pakeBytes (message : JSString) : Bytes := Utf8.encode (Utf16.decode message)

namespace Sent

/-- The `type` that the page writes into the envelope of this message. -/
def type : Sent → String
  | .createSession => "create_session"
  | .createCodeSession => "create_code_session"
  | .join _ => "join"
  | .joinByCode _ => "join_by_code"
  | .reconnect .. => "reconnect"
  | .reconnectToken _ => "reconnect_token"
  | .pake (.pakeMsg _) => "pake_msg"
  | .pake (.pakeConfirm _) => "pake_confirm"
  | .roleSwapRequest => "role_swap_request"
  | .roleSwapResponse _ => "role_swap_response"
  | .endSession => "end_session"

/-- The `payload` that the page writes into the envelope of this message; null
where it passes none. -/
def payload : Sent → JSValue
  | .createSession | .createCodeSession | .roleSwapRequest | .endSession => .null
  | .join sessionId => .object [("sessionId", .str (js sessionId))]
  | .joinByCode code => .object [("code", .str (js code))]
  | .reconnect sessionId role token =>
      -- what is undefined is not written
      .object ((sessionId.map fun id => ("sessionId", .str (js id))).toList ++
        (role.map fun role => ("role", .str (js role.wire))).toList ++
        [("tokenHex", .str (toHex token))])
  | .reconnectToken token => .object [("tokenHex", .str (toHex token))]
  | .pake (.pakeMsg message) => .object [("message", .str (pakeString message))]
  | .pake (.pakeConfirm tagHex) => .object [("tagHex", .str tagHex)]
  | .roleSwapResponse accepted => .object [("accepted", .bool accepted)]

/-- The bytes that the page sends for this message: its envelope as JSON text in
UTF-8. -/
def text (m : Sent) : Bytes := sendText m.type m.payload

end Sent

namespace JSValue

/-- `env.payload && env.payload[name]`: a property of the payload, or none where
either is missing. -/
def payloadField (env : JSValue) (name : String) : Option JSValue :=
  (env.property "payload").bind fun payload => payload.property name

/-- A string value as the text that it stands for; a value of another kind is
none. -/
def text? (v : JSValue) : Option String := v.string?.map Server.goString

/-- No number here is so small that it would be rounded to zero. -/
def truthy : JSValue → Bool
  | .null => false
  | .bool b => b
  | .num n => (n.lexeme.takeWhile fun c => c ≠ 'e' && c ≠ 'E').any fun c => '1' ≤ c && c ≤ '9'
  | .str s => s ≠ []
  | .arr _ | .obj _ => true

end JSValue

/-- The message that the listeners of the page make of a text; a text of another
type, or without what its listener reads, is none. -/
def readReceived (data : Bytes) : Option Received := do
  let env ← parseEnvelope data
  let type ← (env.property "type").bind JSValue.string?
  let field (name : String) := (env.payloadField name).bind JSValue.text?
  if type = js "session_created" then (field "sessionId").map .sessionCreated
  else if type = js "code_session_created" then (field "code").map .codeSessionCreated
  else if type = js "paired" then some (.paired (field "sessionId"))
  else if type = js "reconnected" then some .reconnected
  else if type = js "error" then some (.error (field "code"))
  else if type = js "pake_msg" then
    ((env.payloadField "message").bind JSValue.string?).map fun message =>
      .pake (.pakeMsg (pakeBytes message))
  else if type = js "pake_confirm" then
    ((env.payloadField "tagHex").bind JSValue.string?).map fun tagHex => .pake (.pakeConfirm tagHex)
  else if type = js "peer_disconnected" then some .peerDisconnected
  else if type = js "peer_reconnected" then some .peerReconnected
  else if type = js "role_swap_request" then some .roleSwapRequest
  else if type = js "role_swap_response" then
    some (.roleSwapResponse (((env.payloadField "accepted").map JSValue.truthy).getD false))
  else if type = js "session_ended" then some (.sessionEnded (field "reason"))
  else none

/-! ## The relay does what the page asked -/

namespace Sent

open Server

/-- What the first message of a connection asks for. -/
def serve (m : Sent) (h : Hub) (ip : String) (conn : ConnId) (now : Time) (draws : Draws) :
    Hub.Begun :=
  match m with
  | .createSession => h.CreateSession ip conn now draws.id
  | .createCodeSession => h.CreateCodeSession ip conn now draws.id draws.codes
  | .join sessionId => h.JoinSession sessionId ip conn now
  | .joinByCode code => h.JoinByCode code ip conn now
  | .reconnect sessionId (some role) token =>
      h.Reconnect (sessionId.getD "") role token ip conn now
  | .reconnect _ none _ | .reconnectToken _ | .pake _ | .roleSwapRequest | .roleSwapResponse _
  | .endSession => (h, .error .invalidMessage, [])

/-- What a later message is to the relay. -/
def incoming (m : Sent) : Incoming :=
  match m with
  | .endSession => .endSession
  | .reconnectToken token => .reconnectToken (some (goString (toHex token)))
  | .createSession | .createCodeSession | .join _ | .joinByCode _ | .reconnect .. | .pake _
  | .roleSwapRequest | .roleSwapResponse _ => .other false m.text

/-- The payloads are flat. -/
theorem depth_payload (m : Sent) : depth m.payload ≤ 1 := by
  cases m with
  | createSession | createCodeSession | roleSwapRequest | endSession => exact Nat.zero_le 1
  | reconnect sessionId role token =>
      exact (depth_object (by cases sessionId <;> cases role <;> simp [depth])).le
  | pake m => cases m <;> exact (depth_object (by simp [depth])).le
  | _ => exact (depth_object (by simp [depth])).le

theorem unmarshalEnvelope_text (m : Sent) :
    unmarshalEnvelope m.text = some ⟨m.type, some m.payload⟩ :=
  unmarshalEnvelope_sendText m.type (m.depth_payload.trans_lt (by decide))

theorem payloadString_single (type name : String) (s : JSString) (hname : name ∈ fieldNames) :
    payloadString ⟨type, some (JSValue.object [(name, .str s)])⟩ name = some (goString s) :=
  payloadString_object type name (some s) hname (by simpa using hname) (by simp)

theorem reconnect_unmarshal (type : String) (sessionId : Option String) (role : Option Role)
    (token : Bytes) :
    ReconnectPayload.unmarshal ⟨type, some (reconnect sessionId role token).payload⟩ =
      some ⟨sessionId.getD "", (role.map Role.wire).getD "", goString (toHex token)⟩ := by
  have hfields : ∀ field ∈ (sessionId.map fun id => ("sessionId", Json.Value.str (js id))).toList ++
      (role.map fun role => ("role", Json.Value.str (js role.wire))).toList ++
      [("tokenHex", Json.Value.str (toHex token))], field.1 ∈ fieldNames := by
    cases sessionId <;> cases role <;> simp [fieldNames]
  have hid := payloadString_object type "sessionId" (sessionId.map js) (by decide) hfields
    (by cases sessionId <;> cases role <;> simp)
  have hrole := payloadString_object type "role" (role.map fun role => js role.wire) (by decide)
    hfields (by cases sessionId <;> cases role <;> simp)
  have htoken := payloadString_object type "tokenHex" (some (toHex token)) (by decide) hfields
    (by cases sessionId <;> cases role <;> simp)
  rw [ReconnectPayload.unmarshal, payload, hid, hrole, htoken]
  cases sessionId <;> cases role <;> simp

theorem beginSession_text (m : Sent) (h : Hub) (ip : String) (conn : ConnId) (now : Time)
    (draws : Draws) :
    beginSession h (readFirst false m.text) ip conn now draws = m.serve h ip conn now draws := by
  rw [readFirst, if_neg Bool.false_ne_true, m.unmarshalEnvelope_text]
  cases m with
  | join sessionId =>
      simp only [type, payload, payloadString_single _ _ _ (by decide : "sessionId" ∈ fieldNames)]
      simp [beginSession, serve]
  | joinByCode code =>
      simp only [type, payload, payloadString_single _ _ _ (by decide : "code" ∈ fieldNames)]
      simp [beginSession, serve]
  | reconnect sessionId role token =>
      simp only [type, reconnect_unmarshal]
      cases role with
      | none =>
          have hrole : parseRole "" = none := by decide
          simp [beginSession, serve, hrole]
      | some role => simp [beginSession, serve, decodeString_toHex]
  | pake m => cases m <;> simp [type, beginSession, serve]
  | _ => simp [type, beginSession, serve]

theorem readIncoming_text (m : Sent) : readIncoming false m.text = m.incoming := by
  rw [readIncoming, if_neg Bool.false_ne_true, controlType, m.unmarshalEnvelope_text]
  cases m with
  | reconnectToken token =>
      simp only [type, payload, Option.bind_some,
        payloadString_single _ _ _ (by decide : "tokenHex" ∈ fieldNames)]
      simp [incoming]
  | pake m => cases m <;> simp [type, incoming]
  | _ => simp [type, incoming]

/-- What the relay does with a message that is not the first. -/
def handle (m : Sent) (x : Relay) (conn : ConnId) (slot : Slot) (now : Time) :
    Relay × List Effect :=
  match m with
  | .endSession => x.read conn slot .endSession now
  | .reconnectToken token => ({ x with hub := x.hub.RegisterReconnectToken slot token }, [])
  | .createSession | .createCodeSession | .join _ | .joinByCode _ | .reconnect .. | .pake _
  | .roleSwapRequest | .roleSwapResponse _ =>
      let (h, effects) := x.hub.Relay slot false m.text now
      ({ x with hub := h }, effects)

/-- **The relay reads what the page means**: from the bytes of a message that
begins a connection it begins the session that the page asked for, with exactly
the id, code, role and token, and from those of a later one it ends the session,
registers the token, or passes on the bytes. -/
theorem relay_reads (m : Sent) :
    (∀ h ip conn now draws,
      beginSession h (readFirst false m.text) ip conn now draws = m.serve h ip conn now draws) ∧
    ∀ (x : Relay) conn slot now,
      x.read conn slot (readIncoming false m.text) now = m.handle x conn slot now := by
  refine ⟨m.beginSession_text, fun x conn slot now => ?_⟩
  rw [m.readIncoming_text]
  cases m with
  | reconnectToken token =>
      simp [incoming, Relay.read, Relay.handleReconnectToken, decodeString_toHex, handle]
  | _ => rfl

end Sent

/-! ## The page hears what the relay and the peer say -/

/-- What a message of the relay is to the page; `file_abort` is for the transfer code. -/
def Control.received : Control → Option Received
  | .sessionCreated sessionID => some (.sessionCreated sessionID)
  | .codeSessionCreated code _ => some (.codeSessionCreated code)
  | .paired sessionID => some (.paired (some sessionID))
  | .sessionEnded reason => some (.sessionEnded (some reason))
  | .peerDisconnected => some .peerDisconnected
  | .reconnected => some .reconnected
  | .peerReconnected => some .peerReconnected
  | .error code _ => some (.error (some code))
  | .fileAbort _ _ => none

/-- What a message of the page is to its peer, when the relay passes it on. -/
def Sent.received : Sent → Option Received
  | .pake m => some (.pake m)
  | .roleSwapRequest => some .roleSwapRequest
  | .roleSwapResponse accepted => some (.roleSwapResponse accepted)
  | .createSession | .createCodeSession | .join _ | .joinByCode _ | .reconnect ..
  | .reconnectToken _ | .endSession => none

/-- The package's bytes are text, as JSON is. -/
def Sent.IsText : Sent → Prop
  | .pake (.pakeMsg message) => ∃ s, message = Utf8.encode s
  | _ => True

theorem pakeBytes_pakeString (s : List Char) : pakeBytes (pakeString (Utf8.encode s)) = Utf8.encode s := by
  rw [pakeBytes, pakeString, Utf8.decodeUtf8_encode, Utf16.decode_encode]

theorem readReceived_marshal (rfc3339 : Time → String) (m : Control) :
    readReceived (m.marshal rfc3339) = m.received := by
  rw [readReceived, Control.parseEnvelope_marshal]
  cases m <;>
    simp [Control.value, Control.wire, Control.received, JSValue.payloadField, JSValue.text?,
      JSValue.property_object]

theorem readReceived_text {m : Sent} (h : m.IsText) : readReceived m.text = m.received := by
  rw [readReceived, Sent.text, parseEnvelope_sendText]
  cases m with
  | pake m =>
      cases m with
      | pakeMsg message =>
          obtain ⟨s, rfl⟩ := h
          simp [Sent.type, Sent.payload, Sent.received, JSValue.payloadField,
            JSValue.property_object, pakeBytes_pakeString]
      | pakeConfirm tagHex =>
          simp [Sent.type, Sent.payload, Sent.received, JSValue.payloadField,
            JSValue.property_object]
  | _ =>
      simp [Sent.type, Sent.payload, Sent.received, JSValue.payloadField, JSValue.property_object,
        JSValue.truthy]

/-- **The page hears what was said**: every message that the relay marshals, and
every message of the peer that the relay passes on, is what the listeners get.
Of the relay's messages `file_abort` is none of theirs; the transfer code reads
its file and its reason. -/
theorem page_hears (rfc3339 : Time → String) :
    (∀ m : Control, readReceived (m.marshal rfc3339) = m.received) ∧
      (∀ m : Sent, m.IsText → readReceived m.text = m.received) ∧
      ∀ fileId : FileId,
        readEnvelope ((Control.fileAbort fileId.hex FileAbortReasonSizeLimit).marshal rfc3339) =
          some (.fileAbort (some ⟨some fileId.hex, some FileAbortReasonSizeLimit⟩)) :=
  ⟨readReceived_marshal rfc3339, fun _ h => readReceived_text h,
    Control.readEnvelope_sizeLimit rfc3339⟩

theorem page_hears_pake :
    readReceived (Sent.text (.pake (.pakeMsg (Utf8.encode ['{', '}'])))) =
      some (.pake (.pakeMsg (Utf8.encode ['{', '}']))) :=
  (page_hears fun _ => "").2.1 _ ⟨['{', '}'], rfl⟩

end Quicksend
