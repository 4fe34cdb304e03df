import Quicksend.Crypto

/-!
# What travels on a paired socket

Text messages are JSON envelopes, binary messages are chunk frames. An
envelope is modelled after `parseEnvelope`: its type, and the payload
fields the transfer code reads. Since the relay may write anything, a
payload can be missing (`none`: absent or `null`, reading a field of it
throws) and so can each string field (`none`: not a string).
-/

namespace Quicksend

/-- The two ends of a session: the creator and the one who joined. -/
inductive Role where
  | host
  | guest
  deriving DecidableEq

/-- The peer of a session whom what one of the two sends is for. -/
def Role.other : Role → Role
  | .host => .guest
  | .guest => .host

@[simp] theorem Role.other_other (r : Role) : r.other.other = r := by cases r <;> rfl

@[simp] theorem Role.other_ne (r : Role) : r.other ≠ r := by cases r <;> decide

@[simp] theorem Role.ne_other (r : Role) : r ≠ r.other := by cases r <;> decide

instance Role.decidableForall (p : Role → Prop) [DecidablePred p] : Decidable (∀ r, p r) :=
  decidable_of_iff (p .host ∧ p .guest)
    ⟨fun h r => match r with
      | .host => h.1
      | .guest => h.2, fun h => ⟨h .host, h .guest⟩⟩

theorem Role.eq_or_eq_other (r q : Role) : q = r ∨ q = r.other := by
  cases r <;> cases q <;> decide

/-- What the receiver reads of the payload of `file_meta`; a property that is
missing or no string is `none`. -/
structure FileMetaPayload where
  fileId : Option JSString
  ciphertext : Option JSString
  deriving DecidableEq

/-- What the sender reads of the payload of `chunk_ack`. `ackedUpTo` is taken to
be an integer, which is all that a receiver writes; what a peer that writes
something else causes is not modelled. -/
structure ChunkAckPayload where
  fileId : Option JSString
  ackedUpTo : Int
  deriving DecidableEq

/-- What both ends read of the payload of `file_abort`; only the relay gives a
reason. -/
structure FileAbortPayload where
  fileId : Option JSString
  reason : Option JSString
  deriving DecidableEq

/-- A parsed text message, by its `type`; what the transfer code does not look at
is `other`. -/
inductive Envelope where
  | fileMeta (payload : Option FileMetaPayload)
  | chunkAck (payload : Option ChunkAckPayload)
  | fileAbort (payload : Option FileAbortPayload)
  | other
  deriving DecidableEq

/-- A message on a WebSocket between the two peers: a text that has been parsed,
or a binary frame as it is. -/
inductive Message where
  | text (env : Envelope)
  | binary (data : Bytes)
  deriving DecidableEq

/-! ## The envelopes the two ends of a transfer send -/

/-- The message with which `sendFile` announces a file, its metadata encrypted and
in hex. -/
def fileMetaMessage (fileId ciphertext : JSString) : Message :=
  .text (.fileMeta (some ⟨some fileId, some ciphertext⟩))

/-- The message with which a receiver says up to which chunk of the file it has
written everything. -/
def chunkAckMessage (fileId : JSString) (ackedUpTo : Int) : Message :=
  .text (.chunkAck (some ⟨some fileId, ackedUpTo⟩))

/-- The message with which either end gives up a file, without a reason of its
own. -/
def fileAbortMessage (fileId : JSString) : Message :=
  .text (.fileAbort (some ⟨some fileId, none⟩))

/-- `"size_limit_exceeded"`, the only reason the relay itself gives. -/
def FileAbortReasonSizeLimit : JSString :=
  "size_limit_exceeded".toList.map fun c => UInt16.ofNat c.toNat

/-- The `file_abort` of `Hub.abortOversizedFile`, whose reason tells both sides
that the file is too large. -/
def sizeLimitAbortMessage (fileId : JSString) : Message :=
  .text (.fileAbort (some ⟨some fileId, some FileAbortReasonSizeLimit⟩))

/-! ## Chunk frames -/

/-- How many bytes of a file go in one chunk; only the last one may have fewer. -/
def CHUNK_SIZE : Nat := 256 * 1024

/-- How many chunks the sender may be ahead of the last acknowledgement before it
waits. -/
def WINDOW_SIZE : Int := 8

/-- The first byte of every chunk frame, by which the relay and the receiver know
one. -/
def FRAME_TYPE_CHUNK : UInt8 := 0x01

/-- The fields of a chunk frame behind its type, as `parseChunkFrame` returns
them. -/
structure ChunkFrame where
  fileId : FileId
  index : Nat
  isLast : Bool
  ciphertext : Bytes
  deriving DecidableEq

/-- `buildChunkFrame`: type, last flag, file id, the index in eight bytes, and the
ciphertext behind these 26 bytes. -/
def buildChunkFrame (fileId : FileId) (index : Nat) (isLast : Bool) (ciphertext : Bytes) : Bytes :=
  FRAME_TYPE_CHUNK :: (if isLast then 1 else 0) :: (fileId.bytes ++ beBytes 8 index ++ ciphertext)

/-- `parseChunkFrame`: `null` for what is too short or of another type; of the
flag byte only the lowest bit counts. -/
def parseChunkFrame (buffer : Bytes) : Option ChunkFrame :=
  if h : buffer.length < 26 ∨ buffer.head? ≠ some FRAME_TYPE_CHUNK then none
  else some
    { fileId := ⟨(buffer.drop 2).take 16, by simp only [List.length_take, List.length_drop]; omega⟩
      index := beNat ((buffer.drop 18).take 8)
      isLast := (buffer.getD 1 0).toNat % 2 = 1
      ciphertext := buffer.drop 26 }

/-- The index field has eight bytes. -/
theorem parseChunkFrame_index_lt {buffer : Bytes} {frame : ChunkFrame}
    (h : parseChunkFrame buffer = some frame) : frame.index < 2 ^ 64 := by
  rw [parseChunkFrame] at h
  split at h
  next => cases h
  next =>
    obtain rfl := Option.some.inj h
    refine Nat.lt_of_lt_of_le (beNat_lt _) ?_
    have : ((buffer.drop 18).take 8).length ≤ 8 := List.length_take_le 8 _
    calc 256 ^ ((buffer.drop 18).take 8).length ≤ 256 ^ 8 := Nat.pow_le_pow_right (by decide) this
      _ = 2 ^ 64 := by decide

theorem parseChunkFrame_buildChunkFrame {fileId : FileId} {index : Nat} (hi : index < 2 ^ 64)
    (isLast : Bool) (ciphertext : Bytes) :
    parseChunkFrame (buildChunkFrame fileId index isLast ciphertext)
      = some ⟨fileId, index, isLast, ciphertext⟩ := by
  have hid := fileId.length_eq
  have hidx : (beBytes 8 index).length = 8 := beBytes_length 8 index
  have hfid : (fileId.bytes ++ beBytes 8 index ++ ciphertext).take 16 = fileId.bytes := by
    rw [List.append_assoc, ← hid, List.take_left]
  have hrest : (fileId.bytes ++ beBytes 8 index ++ ciphertext).drop 16
      = beBytes 8 index ++ ciphertext := by
    rw [List.append_assoc, ← hid, List.drop_left]
  have htail : (fileId.bytes ++ beBytes 8 index ++ ciphertext).drop 24 = ciphertext := by
    have : 24 = (fileId.bytes ++ beBytes 8 index).length := by simp [hid, hidx]
    rw [this, List.drop_left]
  have hnum : beNat (beBytes 8 index) = index := by
    rw [beNat_beBytes]
    exact Nat.mod_eq_of_lt hi
  have hlen : ¬ ((buildChunkFrame fileId index isLast ciphertext).length < 26
      ∨ (buildChunkFrame fileId index isLast ciphertext).head? ≠ some FRAME_TYPE_CHUNK) := by
    simp only [buildChunkFrame, List.length_cons, List.length_append, List.head?_cons, hid, hidx,
      ne_eq, not_true_eq_false, or_false]
    omega
  have hidx8 : (beBytes 8 index ++ ciphertext).take 8 = beBytes 8 index :=
    List.take_left' hidx
  rw [parseChunkFrame, dif_neg hlen]
  simp only [buildChunkFrame, List.drop_succ_cons, List.drop_zero, List.getD_cons_succ,
    List.getD_cons_zero, hfid, hrest, htail, hidx8, hnum]
  cases isLast <;> rfl

end Quicksend
