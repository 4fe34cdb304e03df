import Quicksend.Server.Handler
import Quicksend.Texts

/-!
# Text messages at the relay (`handler.go`, `messages.go`)

What `json.Unmarshal` makes of a text message, which of its fields the handler
reads, and the bytes of the relay's own messages. Unmarshalling a struct goes by
the names of its fields without regard to case, keeps what was there on a
`null`, and fails on a value of another type.
-/

namespace Quicksend.Server

/-- What `json.Unmarshal` parses: a JSON value whose strings are still in code
units. -/
abbrev GoValue := Json.Value (List UInt16)

/-- A string of it: a surrogate that is not one of a pair is replaced. -/
def goString (units : List UInt16) : String := String.ofList (Utf16.decode units)

mutual
/-- How deep arrays and objects are nested in a value; a scalar is not nested at
all. -/
def depth : GoValue → Nat
  | .arr elements => depthElements elements + 1
  | .obj fields => depthFields fields + 1
  | .null | .bool _ | .num _ | .str _ => 0

/-- The depth of the deepest element of an array, and 0 for an empty one. -/
def depthElements : List GoValue → Nat
  | [] => 0
  | v :: vs => max (depth v) (depthElements vs)

/-- The depth of the deepest value of an object, and 0 for an object without
fields. -/
def depthFields : List (List UInt16 × GoValue) → Nat
  | [] => 0
  | (_, v) :: fields => max (depth v) (depthFields fields)
end

/-- How deep `encoding/json` lets a text nest before it gives the text up as
malformed. -/
def maxNestingDepth : Nat := 10000

/-- The value that a message spells, if it is valid JSON and not nested too deep. -/
def checkValid (data : Bytes) : Option GoValue :=
  match Json.parse (Utf8.runes data) with
  | some v => if depth v ≤ maxNestingDepth then some v else none
  | none => none

/-- `foldRune`; apart from the letters themselves two characters fold to one. -/
def foldRune (c : Char) : Char :=
  if 'a' ≤ c ∧ c ≤ 'z' then Char.ofNat (c.toNat - 32)
  else if c = Char.ofNat 0x17F then 'S'
  else if c = Char.ofNat 0x212A then 'K'
  else c

/-- A field name with its case folded, as `encoding/json` compares the names of a
text with those of a struct. -/
def foldName (name : String) : List Char := name.toList.map foldRune

/-- The values of the fields that go by a name, in their order. -/
def named (name : String) (fields : List (List UInt16 × GoValue)) : List GoValue :=
  (fields.filter fun field => foldName (goString field.1) = foldName name).map Prod.snd

/-- A field of type `string` in a struct: the last one of that name counts, null
leaves it alone, another kind is an error. -/
def stringField (name : String) (fields : List (List UInt16 × GoValue)) : Option String :=
  (named name fields).foldl (fun acc v =>
    match v with
    | .str s => acc.map fun _ => goString s
    | .null => acc
    | _ => none) (some "")

/-- `proto.Envelope`, as read from a message; without a `payload` in the text
there is none. -/
structure GoEnvelope where
  type : String
  payload : Option GoValue

/-- `json.Unmarshal` into an `Envelope`; null leaves the struct as it was, and any
other value but an object is an error. -/
def unmarshalEnvelope (data : Bytes) : Option GoEnvelope :=
  match checkValid data with
  | some (.obj fields) =>
      (stringField "type" fields).map fun type => ⟨type, (named "payload" fields).getLast?⟩
  | some .null => some ⟨"", none⟩
  | _ => none

/-- `json.Unmarshal` of a payload into a struct, up to its fields: no text is no
valid JSON text. -/
def unmarshalPayload : Option GoValue → Option (List (List UInt16 × GoValue))
  | some (.obj fields) => some fields
  | some .null => some []
  | _ => none

/-- A string field of an envelope's payload; none if the payload is no object or
the field is no string. -/
def payloadString (env : GoEnvelope) (name : String) : Option String :=
  (unmarshalPayload env.payload).bind (stringField name)

/-- `json.Unmarshal` of a `reconnect` payload; a field that is missing reads as
the empty string. -/
def ReconnectPayload.unmarshal (env : GoEnvelope) : Option ReconnectPayload := do
  let sessionID ← payloadString env "sessionId"
  let role ← payloadString env "role"
  let tokenHex ← payloadString env "tokenHex"
  return ⟨sessionID, role, tokenHex⟩

/-- The first message of a connection, as `ServeHTTP` and `beginSession` take it. -/
def readFirst (binary : Bool) (data : Bytes) : First :=
  if binary then .binary
  else
    match unmarshalEnvelope data with
    | none => .malformed
    | some env =>
        if env.type = "create_session" then .createSession
        else if env.type = "join" then .join (payloadString env "sessionId")
        else if env.type = "create_code_session" then .createCodeSession
        else if env.type = "join_by_code" then .joinByCode (payloadString env "code")
        else if env.type = "reconnect" then .reconnect (ReconnectPayload.unmarshal env)
        else .other

/-- `controlType`: the type of a text frame of the peer, or the empty string for
what does not parse. -/
def controlType (data : Bytes) : String := ((unmarshalEnvelope data).map GoEnvelope.type).getD ""

/-- A later message, as the loop of `ServeHTTP` and `handleReconnectToken` take it. -/
def readIncoming (binary : Bool) (data : Bytes) : Incoming :=
  if binary then .other true data
  else if controlType data = "end_session" then .endSession
  else if controlType data = "reconnect_token" then
    .reconnectToken ((unmarshalEnvelope data).bind fun env => payloadString env "tokenHex")
  else .other false data

/-! ## What a browser wrote is read as it was meant -/

@[simp] theorem goString_js (s : String) : goString (js s) = s := by
  rw [goString, js, Utf16.decode_encode, String.ofList_toList]

theorem runes_stringify (v : JSValue) : Utf8.runes (Utf8.encode (stringify v)) = stringify v :=
  Utf8.runes_encode _

theorem checkValid_stringify {v : JSValue} (h : depth v ≤ maxNestingDepth) :
    checkValid (Utf8.encode (stringify v)) = some v := by
  rw [checkValid, runes_stringify, parse_stringify]
  exact if_pos h

/-- The fields of the structs that are unmarshalled, which differ in more than case. -/
def fieldNames : List String := ["type", "payload", "sessionId", "code", "role", "tokenHex"]

theorem foldName_inj : ∀ a ∈ fieldNames, ∀ b ∈ fieldNames, foldName a = foldName b ↔ a = b := by
  decide +kernel

/-- The fields of an object literal, by their names. -/
theorem named_js {name : String} {fields : List (String × JSValue)} (hname : name ∈ fieldNames)
    (hfields : ∀ field ∈ fields, field.1 ∈ fieldNames) :
    named name (fields.map fun field => (js field.1, field.2)) =
      (fields.filter fun field => field.1 = name).map Prod.snd := by
  rw [named, List.filter_map, List.map_map]
  refine congrArg (List.map Prod.snd) (List.filter_congr fun field hfield => ?_)
  simp only [Function.comp_def, goString_js, foldName_inj _ (hfields field hfield) _ hname]

theorem depthFields_js (fields : List (String × JSValue)) :
    depthFields (fields.map fun field => (js field.1, field.2)) =
      (fields.map fun field => depth field.2).foldr max 0 := by
  induction fields with
  | nil => rfl
  | cons field fields ih =>
      rw [List.map_cons, depthFields, ih]
      rfl

/-- A flat object. -/
theorem depth_object {fields : List (String × JSValue)} (h : ∀ field ∈ fields, depth field.2 = 0) :
    depth (JSValue.object fields) = 1 := by
  have hmax : (fields.map fun field => depth field.2).foldr max 0 = 0 := by
    induction fields with
    | nil => rfl
    | cons field fields ih =>
        rw [List.map_cons, List.foldr_cons, h field (by simp),
          ih fun field hfield => h field (by simp [hfield]), Nat.max_self]
  rw [JSValue.object, depth, depthFields_js, hmax]

theorem depth_object_lt {fields : List (String × JSValue)}
    (h : ∀ field ∈ fields, depth field.2 = 0) :
    depth (JSValue.object fields) < maxNestingDepth := by
  rw [depth_object h]
  decide

/-- A message of a browser reaches the relay with its type and its payload. -/
theorem unmarshalEnvelope_sendText (type : String) {payload : JSValue}
    (h : depth payload < maxNestingDepth) :
    unmarshalEnvelope (sendText type payload) = some ⟨type, some payload⟩ := by
  have hdepth : depth (envelope type payload) ≤ maxNestingDepth := by
    rw [envelope, JSValue.object, depth, depthFields_js]
    simp only [List.map_cons, List.map_nil, List.foldr_cons, List.foldr_nil, depth]
    omega
  rw [unmarshalEnvelope, sendText, checkValid_stringify hdepth]
  have hnames : ∀ field ∈ ([("type", .str (js type)), ("payload", payload)] :
      List (String × JSValue)), field.1 ∈ fieldNames := by
    simp [fieldNames]
  simp only [envelope, JSValue.object, stringField, named_js (by decide : "type" ∈ fieldNames) hnames,
    named_js (by decide : "payload" ∈ fieldNames) hnames]
  simp

/-- A string field of the payload, `""` where it is not there. -/
theorem payloadString_object (type name : String) {fields : List (String × JSValue)}
    (s : Option JSString) (hname : name ∈ fieldNames)
    (hfields : ∀ field ∈ fields, field.1 ∈ fieldNames)
    (h : fields.filter (fun field => field.1 = name) = (s.map fun s => (name, .str s)).toList) :
    payloadString ⟨type, some (JSValue.object fields)⟩ name = some ((s.map goString).getD "") := by
  rw [payloadString, JSValue.object, unmarshalPayload, Option.bind_some, stringField,
    named_js hname hfields, h]
  cases s <;> rfl

/-! ## The hex of a browser -/

theorem padStart2_toString16 (b : UInt8) :
    padStart2 (toString16 b) =
      [Quicksend.hexDigit (b.toNat / 16), Quicksend.hexDigit (b.toNat % 16)] := by
  rw [toString16]
  split
  next h =>
    rw [Nat.div_eq_of_lt h, Nat.mod_eq_of_lt h]
    rfl
  next => rfl

theorem hexDigit_decodeUnit {d : Nat} (h : d < 16) :
    Utf16.isHigh (Quicksend.hexDigit d) = false ∧
      hexDigit (Utf16.decodeUnit (Quicksend.hexDigit d)) = some d := by
  have hcode : ∀ d < 16, Utf16.isHigh (Quicksend.hexDigit d) = false ∧
      (Utf16.decodeUnit (Quicksend.hexDigit d)).toNat = Hex.digit d := by decide
  obtain ⟨hhigh, hcode⟩ := hcode d h
  exact ⟨hhigh, by rw [hexDigit, hcode, Hex.value?_digit h]⟩

/-- `hex.DecodeString` undoes `toHex`. -/
theorem decodeString_toHex (bytes : Bytes) : decodeString (goString (toHex bytes)) = some bytes := by
  rw [decodeString, goString, String.toList_ofList]
  induction bytes with
  | nil => rfl
  | cons b bytes ih =>
      have hlt : b.toNat < 256 := b.toNat_lt
      obtain ⟨hhigh, hd⟩ := hexDigit_decodeUnit (show b.toNat / 16 < 16 by omega)
      obtain ⟨hhigh', hd'⟩ := hexDigit_decodeUnit (show b.toNat % 16 < 16 by omega)
      have hb : 16 * (b.toNat / 16) + b.toNat % 16 = b.toNat := Nat.div_add_mod b.toNat 16
      rw [toHex, List.flatMap_cons, padStart2_toString16, List.cons_append, List.cons_append,
        List.nil_append, Utf16.decode_unit hhigh, Utf16.decode_unit hhigh', decodeHexChars, hd, hd']
      rw [toHex] at ih
      rw [ih]
      simp only [hb, UInt8.ofNat_toNat]

theorem toHex_plain (bytes : Bytes) :
    ∀ u ∈ toHex bytes, Utf16.isHigh u = false ∧ Utf16.isLow u = false := by
  have hdigit : ∀ d < 16, Utf16.isHigh (Quicksend.hexDigit d) = false ∧
      Utf16.isLow (Quicksend.hexDigit d) = false := by
    decide
  intro u hu
  obtain ⟨b, -, hu⟩ := List.mem_flatMap.mp hu
  have hlt : b.toNat < 256 := b.toNat_lt
  rw [padStart2_toString16, List.mem_cons, List.mem_singleton] at hu
  obtain rfl | rfl := hu
  · exact hdigit _ (by omega)
  · exact hdigit _ (by omega)

theorem js_goString {s : JSString} (h : ∀ u ∈ s, Utf16.isHigh u = false ∧ Utf16.isLow u = false) :
    js (goString s) = s := by
  rw [js, goString, String.toList_ofList, Utf16.encode_decode_of_plain h]

end Quicksend.Server

/-! ## What the relay writes -/

namespace Quicksend.Control

/-- Type and payload of the relay's messages; `rfc3339` is how a time marshals. -/
def wire (rfc3339 : Time → String) : Control → String × Option (List (String × String))
  | .sessionCreated sessionID => ("session_created", some [("sessionId", sessionID)])
  | .codeSessionCreated code expiresAt =>
      ("code_session_created", some [("code", code), ("expiresAt", rfc3339 expiresAt)])
  | .paired sessionID => ("paired", some [("sessionId", sessionID)])
  | .sessionEnded reason => ("session_ended", some [("reason", reason)])
  | .peerDisconnected => ("peer_disconnected", none)
  | .reconnected => ("reconnected", none)
  | .peerReconnected => ("peer_reconnected", none)
  | .fileAbort fileID reason =>
      -- an empty reason is omitted
      ("file_abort", some (("fileId", Server.goString fileID) ::
        if reason = [] then [] else [("reason", Server.goString reason)]))
  | .error code message => ("error", some [("code", code), ("message", message)])

/-- A struct or an envelope that is marshalled. -/
def struct (fields : List (String × Json.Value (List Char))) : Json.Value (List Char) :=
  .obj (fields.map fun field => (field.1.toList, field.2))

/-- The bytes that `sendEnvelope` and `sendError` send for a message of the
relay's own. -/
def marshal (rfc3339 : Time → String) (m : Control) : Bytes :=
  let payload := (m.wire rfc3339).2.map fun fields =>
    struct (fields.map fun field => (field.1, .str field.2.toList))
  Utf8.encode (Json.write Json.marshalQuoting (struct
    (("type", .str (m.wire rfc3339).1.toList) :: (payload.map (Prod.mk "payload")).toList)))

/-- What a browser makes of these bytes when it parses them as JSON. -/
def value (rfc3339 : Time → String) (m : Control) : JSValue :=
  .object (("type", .str (js (m.wire rfc3339).1)) ::
    ((m.wire rfc3339).2.map fun fields =>
      ("payload", JSValue.object (fields.map fun field => (field.1, .str (js field.2))))).toList)

theorem mapFields_struct (fields : List (String × Json.Value (List Char))) :
    (struct fields).map Utf16.encode =
      JSValue.object (fields.map fun field => (field.1, field.2.map Utf16.encode)) := by
  rw [struct, Json.Value.map, JSValue.object]
  congr 1
  induction fields with
  | nil => rfl
  | cons field fields ih =>
      simp only [List.map_cons, Json.Value.mapFields, ih]
      rfl

theorem parseEnvelope_marshal (rfc3339 : Time → String) (m : Control) :
    parseEnvelope (m.marshal rfc3339) = some (m.value rfc3339) := by
  rw [parseEnvelope, marshal, Utf8.decodeUtf8_encode, Json.parse_write]
  change some ((struct _).map Utf16.encode) = _
  rw [mapFields_struct, value]
  cases (m.wire rfc3339).2 with
  | none => rfl
  | some fields =>
      simp only [Option.map_some, Option.toList_some, List.map_cons, List.map_nil, mapFields_struct,
        List.map_map]
      rfl

/-- The transfer code reads of the relay's `file_abort` the name of the file and
the reason. -/
theorem readEnvelope_sizeLimit (rfc3339 : Time → String) (fileId : FileId) :
    readEnvelope ((Control.fileAbort fileId.hex FileAbortReasonSizeLimit).marshal rfc3339) =
      some (.fileAbort (some ⟨some fileId.hex, some FileAbortReasonSizeLimit⟩)) := by
  have hid : js (Server.goString fileId.hex) = fileId.hex :=
    Server.js_goString (Server.toHex_plain fileId.bytes)
  have hplain : FileAbortReasonSizeLimit.all (fun u => !Utf16.isHigh u && !Utf16.isLow u) = true := by
    decide
  have hreason : js (Server.goString FileAbortReasonSizeLimit) = FileAbortReasonSizeLimit :=
    Server.js_goString fun u hu => by simpa using List.all_eq_true.mp hplain u hu
  have hne : FileAbortReasonSizeLimit ≠ [] := by decide
  rw [readEnvelope, parseEnvelope_marshal]
  simp [value, wire, JSValue.property_object, hid, hreason, hne]

end Quicksend.Control
