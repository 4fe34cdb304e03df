import Quicksend.Lib.Json.Quoting
import Quicksend.Lib.Utf8
import Quicksend.Receiver

/-!
# Text messages in a browser (`ws-client.js`)

What `sendEnvelope` puts on a socket, byte by byte, what `parseEnvelope` makes
of it, and what the transfer code then reads of the properties of a value. A
text that nobody but a peer or the relay wrote is read as it was meant.
-/

namespace Quicksend

/-- A literal of the source, or any text of Lean, as the string of code units that
a page has. -/
def js (s : String) : JSString := Utf16.encode s.toList

@[simp] theorem js_inj {a b : String} : js a = js b ↔ a = b := by
  constructor
  · intro h
    have h := congrArg Utf16.decode h
    rw [js, js, Utf16.decode_encode, Utf16.decode_encode] at h
    exact String.toList_inj.mp h
  · exact congrArg js

/-- What `JSON.parse` returns: a JSON value whose strings are strings of code
units. -/
abbrev JSValue := Json.Value JSString

namespace JSValue

/-- `v[name]`, where `undefined` is `none`; no name that is read here is
inherited from a prototype. Of two fields of one name the last one counts. -/
def property (v : JSValue) (name : String) : Option JSValue :=
  match v with
  | .obj fields => (fields.reverse.find? fun field => field.1 = js name).map Prod.snd
  | _ => none

/-- The string that a value is; every other kind of value is none. -/
def string? : JSValue → Option JSString
  | .str s => some s
  | _ => none

/-- A value that is a number, where it is an integer. -/
def int? : JSValue → Option Int
  | .num n => n.int?
  | _ => none

/-- The value as a natural number; a number that is negative or has a fraction is
none, like any other kind of value. -/
def nat? (v : JSValue) : Option Nat := v.int?.bind Int.toNat?

/-- The field is missing or null: what `?.` and `??` take for the absence of a
value. -/
def nullish : Option JSValue → Bool
  | none | some .null => true
  | some _ => false

/-- An object literal of the source; `undefined` fields are not written. -/
def object (fields : List (String × JSValue)) : JSValue :=
  .obj (fields.map fun field => (js field.1, field.2))

end JSValue

/-- `JSON.stringify`: the text of a value without any white space, its members in
their order. -/
def stringify (v : JSValue) : List Char := Json.write Json.stringifyQuoting v

/-- `new TextDecoder().decode(bytes)`: malformed UTF-8 is replaced, and a byte
order mark at the front is dropped. -/
def textDecode (bytes : Bytes) : List Char :=
  match Urlencoded.decodeUtf8 bytes with
  | [] => []
  | c :: cs => if c = Char.ofNat 0xFEFF then cs else c :: cs

/-- `{ type, payload }`: the object that every text message of the protocol is. -/
def envelope (type : String) (payload : JSValue) : JSValue :=
  .object [("type", .str (js type)), ("payload", payload)]

/-- The bytes of the message that `sendEnvelope(socket, type, payload)` sends. -/
def sendText (type : String) (payload : JSValue) : Bytes :=
  Utf8.encode (stringify (envelope type payload))

/-- `parseEnvelope` of a text message: `JSON.parse` of the text that a socket
hands over; `none` is its null. -/
def parseEnvelope (data : Bytes) : Option JSValue :=
  Json.parse (Urlencoded.decodeUtf8 data)

/-- The message as the transfer code reads it: what has no type that it knows
changes nothing there. An `ackedUpTo` that is no integer is not modelled. -/
def readEnvelope (data : Bytes) : Option Envelope :=
  match parseEnvelope data with
  | none => some .other
  | some env =>
      let payload := env.property "payload"
      let text (name : String) := ((payload.getD .null).property name).bind JSValue.string?
      match (env.property "type").bind JSValue.string? with
      | none => some .other
      | some type =>
          if type = js "file_meta" then
            some (.fileMeta (if JSValue.nullish payload then none
              else some ⟨text "fileId", text "ciphertext"⟩))
          else if type = js "chunk_ack" then
            if JSValue.nullish payload then some (.chunkAck none)
            else (((payload.getD .null).property "ackedUpTo").bind JSValue.int?).map fun index =>
              .chunkAck (some ⟨text "fileId", index⟩)
          else if type = js "file_abort" then
            some (.fileAbort (if JSValue.nullish payload then none
              else some ⟨text "fileId", text "reason"⟩))
          else some .other

/-! ## What the two ends of a transfer write -/

/-- The bytes on the wire of a `file_meta` message: the envelope, with the file's
id and the encrypted metadata in hexadecimal. -/
def fileMetaText (fileId ciphertext : JSString) : Bytes :=
  sendText "file_meta" (.object [("fileId", .str fileId), ("ciphertext", .str ciphertext)])

/-- The bytes on the wire of a `chunk_ack` message, whose number is written in
decimal digits. -/
def chunkAckText (fileId : JSString) (ackedUpTo : Nat) : Bytes :=
  sendText "chunk_ack" (.object [("fileId", .str fileId), ("ackedUpTo", .num (.ofNat ackedUpTo))])

/-- The bytes on the wire of a `file_abort` that a client sends, which gives no
reason. -/
def fileAbortText (fileId : JSString) : Bytes :=
  sendText "file_abort" (.object [("fileId", .str fileId)])

/-- `JSON.stringify({ name, size, mime })` as `sendFile` encrypts it. -/
def FileMeta.text (m : FileMeta) : Bytes :=
  Utf8.encode (stringify (.object [("name", .str m.name), ("size", .num (.ofNat m.size)),
    ("mime", .str m.mime)]))

/-- The properties of the decrypted metadata that `handleFileMeta` passes on, each
of the kind that the sender writes. -/
def readMeta (plaintext : Bytes) : Option FileMeta := do
  let info : JSValue ← Json.parse (textDecode plaintext)
  let name ← (info.property "name").bind JSValue.string?
  let size ← (info.property "size").bind JSValue.nat?
  let mime ← (info.property "mime").bind JSValue.string?
  return ⟨name, size, mime⟩

/-! ## A written text is read back -/

theorem parse_stringify (v : JSValue) : Json.parse (stringify v) = some v := by
  rw [stringify, Json.parse_write]
  exact congrArg some v.map_id

theorem parseEnvelope_stringify (v : JSValue) :
    parseEnvelope (Utf8.encode (stringify v)) = some v := by
  rw [parseEnvelope, Utf8.decodeUtf8_encode, parse_stringify]

/-- No JSON text begins with a byte order mark. -/
theorem textDecode_stringify (v : JSValue) :
    textDecode (Utf8.encode (stringify v)) = stringify v := by
  obtain ⟨c, cs, htext, hstart⟩ := Json.write_head Json.stringifyQuoting v
  have hbom : c ≠ Char.ofNat 0xFEFF := by
    rintro rfl
    cases hstart
  rw [textDecode, Utf8.decodeUtf8_encode, stringify, htext]
  exact if_neg hbom

namespace JSValue

theorem property_object (fields : List (String × JSValue)) (name : String) :
    (object fields).property name =
      (fields.reverse.find? fun field => field.1 = name).map Prod.snd := by
  rw [object, property, ← List.map_reverse, List.find?_map, Option.map_map]
  simp only [Function.comp_def, js_inj]

@[simp] theorem nullish_object (fields : List (String × JSValue)) :
    nullish (some (object fields)) = false := rfl

@[simp] theorem string?_str (s : JSString) : string? (.str s) = some s := rfl

@[simp] theorem int?_ofNat (n : Nat) : int? (.num (.ofNat n)) = some (n : Int) :=
  Json.Number.int?_ofNat n

@[simp] theorem nat?_ofNat (n : Nat) : nat? (.num (.ofNat n)) = some n := by
  rw [nat?, int?_ofNat]
  rfl

end JSValue

theorem parseEnvelope_sendText (type : String) (payload : JSValue) :
    parseEnvelope (sendText type payload) = some (envelope type payload) :=
  parseEnvelope_stringify _

@[simp] theorem envelope_type (type : String) (payload : JSValue) :
    (envelope type payload).property "type" = some (.str (js type)) := by
  rw [envelope, JSValue.property_object]
  rfl

@[simp] theorem envelope_payload (type : String) (payload : JSValue) :
    (envelope type payload).property "payload" = some payload := by
  rw [envelope, JSValue.property_object]
  rfl

/-! ## What the transfer code writes, it reads -/

theorem readEnvelope_fileMetaText (fileId ciphertext : JSString) :
    readEnvelope (fileMetaText fileId ciphertext) =
      some (.fileMeta (some ⟨some fileId, some ciphertext⟩)) := by
  rw [readEnvelope, fileMetaText, parseEnvelope_sendText]
  simp [JSValue.property_object]

theorem readEnvelope_chunkAckText (fileId : JSString) (ackedUpTo : Nat) :
    readEnvelope (chunkAckText fileId ackedUpTo) =
      some (.chunkAck (some ⟨some fileId, ackedUpTo⟩)) := by
  rw [readEnvelope, chunkAckText, parseEnvelope_sendText]
  simp [JSValue.property_object]

theorem readEnvelope_fileAbortText (fileId : JSString) :
    readEnvelope (fileAbortText fileId) = some (.fileAbort (some ⟨some fileId, none⟩)) := by
  rw [readEnvelope, fileAbortText, parseEnvelope_sendText]
  simp [JSValue.property_object]

theorem readMeta_text (m : FileMeta) : readMeta m.text = some m := by
  rw [readMeta, FileMeta.text, textDecode_stringify, parse_stringify]
  simp [JSValue.property_object]

end Quicksend
