import Quicksend.SendFile.Steps

/-!
# What `sendFile` encrypts and sends

The chunks of a file partition its bytes; every ciphertext a `sendFile` call
puts on the socket comes from one of a fixed set of `encryptChunk` calls.
-/

namespace Quicksend

theorem File.totalChunks_pos (f : File) : 0 < f.totalChunks := by
  unfold File.totalChunks
  omega

/-- Chunk indices stay far below the index reserved for the metadata. -/
theorem File.totalChunks_lt (f : File) : f.totalChunks < METADATA_CHUNK_INDEX := by
  have hsize := f.size_lt
  have hdiv : (f.size + (CHUNK_SIZE - 1)) / CHUNK_SIZE ≤ f.size + (CHUNK_SIZE - 1) :=
    Nat.div_le_self _ _
  simp only [File.totalChunks, File.size, METADATA_CHUNK_INDEX, CHUNK_SIZE] at *
  omega

/-- The chunks reach the end of the file. -/
theorem File.size_le (f : File) : f.size ≤ f.totalChunks * CHUNK_SIZE := by
  simp only [File.totalChunks, CHUNK_SIZE]
  omega

/-- A chunk is a full slice, cut off by the end of the file alone. -/
theorem File.chunk_eq (f : File) (i : Nat) :
    f.chunk i = (f.bytes.drop (i * CHUNK_SIZE)).take CHUNK_SIZE := by
  rw [File.chunk, File.slice, List.take_eq_take_iff, List.length_drop]
  simp only [File.size]
  omega

/-- The first `k` chunks are the first `k * CHUNK_SIZE` bytes. -/
theorem File.chunks_take (f : File) (k : Nat) :
    ((List.range k).map f.chunk).flatten = f.bytes.take (k * CHUNK_SIZE) := by
  induction k with
  | zero => simp
  | succ k ih =>
      rw [List.range_succ, List.map_append, List.flatten_append, ih, List.map_singleton,
        List.flatten_singleton, f.chunk_eq, ← List.take_add, Nat.succ_mul]

/-- All chunks together are the file. -/
theorem File.chunks_flatten (f : File) :
    ((List.range f.totalChunks).map f.chunk).flatten = f.bytes := by
  rw [f.chunks_take, List.take_of_length_le f.size_le]

theorem METADATA_CHUNK_INDEX_lt : METADATA_CHUNK_INDEX < 2 ^ 64 := by decide

/-- The calls of `encryptChunk` that a `sendFile` of `f` makes: index, last
flag and plaintext. -/
inductive HonestCall (codec : MetaCodec) (f : File) : Nat → Bool → Bytes → Prop where
  | metadata : HonestCall codec f METADATA_CHUNK_INDEX true (codec.encode f.toMeta)
  | chunk (i : Nat) (hi : i < f.totalChunks) :
      HonestCall codec f i (i = f.totalChunks - 1) (f.chunk i)

theorem HonestCall.index_lt {codec : MetaCodec} {f : File} {i : Nat} {last : Bool} {p : Bytes}
    (h : HonestCall codec f i last p) : i < 2 ^ 64 := by
  cases h with
  | metadata => exact METADATA_CHUNK_INDEX_lt
  | chunk i hi => exact hi.trans (f.totalChunks_lt.trans METADATA_CHUNK_INDEX_lt)

/-- A call at a chunk's index is that chunk's, not the metadata's. -/
theorem HonestCall.of_index_lt {codec : MetaCodec} {f : File} {i : Nat} {last : Bool} {p : Bytes}
    (h : HonestCall codec f i last p) (hi : i < f.totalChunks) :
    last = decide (i = f.totalChunks - 1) ∧ p = f.chunk i := by
  cases h with
  | metadata => exact absurd (hi.trans f.totalChunks_lt) (lt_irrefl _)
  | chunk => exact ⟨rfl, rfl⟩

/-- A call at the reserved index is the metadata's. -/
theorem HonestCall.of_index_eq {codec : MetaCodec} {f : File} {last : Bool} {p : Bytes}
    (h : HonestCall codec f METADATA_CHUNK_INDEX last p) : p = codec.encode f.toMeta := by
  generalize hi : METADATA_CHUNK_INDEX = i at h
  cases h with
  | metadata => rfl
  | chunk i hlt => exact absurd (hi ▸ hlt.trans f.totalChunks_lt) (lt_irrefl _)

namespace SendFile

variable {a : SendArgs}

/-- The key of the call's file: what `deriveFileKey` gives for its epoch key and
id. -/
def fileKeyOf (a : SendArgs) : Bytes := a.w.hkdf a.epochKey a.fileId.bytes FILE_INFO

theorem WellFormed.fileKey_eq {s : State} (hs : WellFormed a s) (h : s.pc ≠ .derivingKey)
    (h' : s.isSettled = false) : s.fileKey = fileKeyOf a := by
  rcases hs.keyed with hk | hk | hk
  · exact absurd hk h
  · rw [h'] at hk
    cases hk
  · exact (deriveFileKey_eq_ok hk).2.2

/-- The ciphertext of one of the call's own `encryptChunk` calls. -/
def Encrypts (a : SendArgs) (i : Nat) (last : Bool) (p ciphertext : Bytes) : Prop :=
  HonestCall a.codec a.file i last p ∧
    ∃ key, deriveFileKey a.w a.epochKey a.fileId.bytes = .ok key ∧
      encryptChunk a.w key a.fileId.bytes i last p = .ok ciphertext

/-- What a `sendFile` call puts on the socket. -/
inductive Emits (a : SendArgs) : Message → Prop where
  | fileMeta (ciphertext : Bytes)
      (h : Encrypts a METADATA_CHUNK_INDEX true (a.codec.encode a.file.toMeta) ciphertext) :
      Emits a (fileMetaMessage a.fileId.hex (toHex ciphertext))
  | chunk (i : Nat) (hi : i < a.file.totalChunks) (ciphertext : Bytes)
      (h : Encrypts a i (i = a.file.totalChunks - 1) (a.file.chunk i) ciphertext) :
      Emits a (.binary (buildChunkFrame a.fileId i (i = a.file.totalChunks - 1) ciphertext))
  | fileAbort : Emits a (fileAbortMessage a.fileId.hex)

theorem mem_put {s : State} {m m' : Message} (h : m ∈ s.put m') : m = m' := by
  unfold State.put at h
  split at h
  · cases h
  · exact List.mem_singleton.mp h

/-- The loop itself sends only the notice of a cancel. -/
theorem Lands.out_eq {s t : State} {i : Nat} {out : List Message} (h : Lands a s i t out) :
    ∀ m ∈ out, m = fileAbortMessage a.fileId.hex := by
  intro m hm
  cases h with
  | aborted ab hab =>
      split at hm
      · cases hm
      · exact mem_put hm
  | _ => cases hm

theorem Woken.out_eq {s t : State} {out : List Message} (h : Woken a s t out) :
    ∀ m ∈ out, m = fileAbortMessage a.fileId.hex := by
  cases h with
  | asleep | lost => exact fun m hm => by cases hm
  | window _ _ _ _ _ h | acks _ _ _ _ h => exact h.out_eq

theorem throwErr_out {s : State} {err : Failure} {m : Message} (h : m ∈ (throwErr a s err).2) :
    m = fileAbortMessage a.fileId.hex := by
  unfold throwErr at h
  dsimp only at h
  split at h
  · cases h
  · split at h
    · cases h
    · exact mem_put h

theorem Steps.emits {s t : State} {e : Event} {out : List Message} (h : Steps a s e t out)
    (hs : WellFormed a s) : ∀ m ∈ out, Emits a m := by
  intro m hm
  cases h with
  | metaSent hpc ciphertext hc _ _ h =>
      rcases List.mem_append.mp hm with hm | hm
      · obtain rfl := mem_put hm
        have hk := hs.keyed
        simp only [hpc, State.isSettled, reduceCtorEq, Bool.false_eq_true, false_or] at hk
        exact .fileMeta ciphertext ⟨.metadata, _, hk, hc⟩
      · exact h.out_eq m hm ▸ .fileAbort
  | chunkSent i p hpc ciphertext hc _ _ h =>
      rcases List.mem_append.mp hm with hm | hm
      · obtain rfl := mem_put hm
        obtain ⟨hi, rfl⟩ : i < a.file.totalChunks ∧ p = a.file.chunk i := by
          have hindex := hs.index
          rwa [hpc] at hindex
        have hk := hs.keyed_of_listening (by simp [State.listening, hpc])
        exact .chunk i hi ciphertext ⟨.chunk i hi, _, hk, hc⟩
      · exact h.out_eq m hm ▸ .fileAbort
  | failed => exact throwErr_out hm ▸ .fileAbort
  | heard _ _ _ _ _ _ _ h => exact h.out_eq m hm ▸ .fileAbort
  | _ => cases hm

end SendFile

end Quicksend
