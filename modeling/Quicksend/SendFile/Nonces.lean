import Quicksend.SendFile.Emits
import Mathlib.Data.List.Nodup

/-!
# No nonce is used twice

The `sendFile` calls of a session, begun by either peer under the key of any
epoch, each at its own pace and each cut short anywhere. Every call of AES-GCM
that they make is logged, with the key, the nonce, the associated data and the
plaintext that it is handed. A call encrypts the metadata once and each chunk at
most once, in order; with distinct file keys that is once for each key and
nonce.

The log is tied to the code twice: `encryptChunk` is the logged call put to the
cipher (`encryptChunk_eq`), and a step asks the cipher for nothing that is not in
the log (`Sound.step_eq`): any cipher that agrees on the logged calls gives the
same step.
-/

namespace Quicksend

/-- All that one call of AES-GCM encryption is handed: the key, the
initialisation vector, the additional data and the plaintext. -/
structure GcmCall where
  key : Bytes
  iv : Bytes
  aad : Bytes
  plaintext : Bytes
  deriving DecidableEq

/-- What the cipher answers to a call, which is its ciphertext with the tag
behind it. -/
def GcmCall.run (w : WebCrypto) (c : GcmCall) : Bytes :=
  w.aesGcmEncrypt c.key c.iv c.aad c.plaintext

/-- The call of AES-GCM that `encryptChunk` makes with these arguments, behind
its two length checks; by `encryptChunk_eq` its result is what the cipher answers
to it. -/
def gcmCall (fileKey fileID : Bytes) (chunkIndex : Nat) (last : Bool) (plaintext : Bytes) :
    Except String GcmCall := do
  assertLength fileID 16 "fileID"
  assertLength fileKey 32 "fileKey"
  return ⟨fileKey, chunkNonce chunkIndex, chunkAAD fileID chunkIndex last, plaintext⟩

theorem encryptChunk_eq (w : WebCrypto) (fileKey fileID : Bytes) (chunkIndex : Nat) (last : Bool)
    (plaintext : Bytes) : encryptChunk w fileKey fileID chunkIndex last plaintext =
      (gcmCall fileKey fileID chunkIndex last plaintext).map (GcmCall.run w) := by
  rw [encryptChunk, gcmCall]
  cases assertLength fileID 16 "fileID" with
  | error => rfl
  | ok =>
      cases assertLength fileKey 32 "fileKey" with
      | error => rfl
      | ok => rfl

theorem gcmCall_ok {fileKey : Bytes} (h : fileKey.length = 32) (id : FileId) (chunkIndex : Nat)
    (last : Bool) (plaintext : Bytes) : gcmCall fileKey id.bytes chunkIndex last plaintext =
      .ok ⟨fileKey, chunkNonce chunkIndex, chunkAAD id.bytes chunkIndex last, plaintext⟩ := by
  rw [gcmCall, assertLength_ok id.length_eq, assertLength_ok h]
  rfl

namespace SendFile

/-- A call of AES-GCM that a `sendFile` call has made, for its metadata or for
the chunk with this index. -/
inductive EncryptCall where
  | metadata (call : GcmCall)
  | chunk (index : Nat) (call : GcmCall)
  deriving DecidableEq

/-- What the cipher was handed by the call: key, nonce, associated data and
plaintext. -/
def EncryptCall.call : EncryptCall → GcmCall
  | .metadata call | .chunk _ call => call

/-- The call is the one of the metadata, and no chunk's. -/
def EncryptCall.isMetadata : EncryptCall → Bool
  | .metadata _ => true
  | .chunk _ _ => false

/-- The calls of AES-GCM that a step makes: behind the key derivation the one for
the metadata, and behind the read of a slice the one for the chunk. None is made
where `encryptChunk` throws at its length checks. -/
def encryptCalls (a : SendArgs) (e : Event) (t : State) : List EncryptCall :=
  match e with
  | .keyDerived _ =>
      match t.pc with
      | .encryptingMeta =>
          (gcmCall t.fileKey a.fileId.bytes METADATA_CHUNK_INDEX true
            (a.codec.encode a.file.toMeta)).toOption.toList.map .metadata
      | _ => []
  | .sliceRead _ =>
      match t.pc with
      | .encryptingChunk index plaintext =>
          (gcmCall t.fileKey a.fileId.bytes index (index = a.file.totalChunks - 1)
            plaintext).toOption.toList.map (.chunk index)
      | _ => []
  | _ => []

variable {a : SendArgs} {s t : State} {e : Event} {out : List Message}

theorem encryptCalls_settled {o : Outcome} (h : t.pc = .settled o) (e : Event) :
    encryptCalls a e t = [] := by
  cases e <;> simp [encryptCalls, h]

theorem encryptCalls_heard (h : concerns a e) (t : State) : encryptCalls a e t = [] := by
  cases e <;> first | rfl | exact h.elim

/-- The cipher call for a file's metadata, under the index that no chunk can have. -/
def metadataCall (a : SendArgs) : GcmCall :=
  ⟨fileKeyOf a, chunkNonce METADATA_CHUNK_INDEX,
    chunkAAD a.fileId.bytes METADATA_CHUNK_INDEX true, a.codec.encode a.file.toMeta⟩

/-- The call for chunk `i` of a file. -/
def chunkCall (a : SendArgs) (i : Nat) : GcmCall :=
  ⟨fileKeyOf a, chunkNonce i, chunkAAD a.fileId.bytes i (i = a.file.totalChunks - 1),
    a.file.chunk i⟩

theorem gcmCall_metadata (a : SendArgs) :
    gcmCall (fileKeyOf a) a.fileId.bytes METADATA_CHUNK_INDEX true
      (a.codec.encode a.file.toMeta) = .ok (metadataCall a) :=
  gcmCall_ok (a.w.hkdf_length _ _ _) a.fileId _ _ _

theorem gcmCall_chunk (a : SendArgs) (i : Nat) :
    gcmCall (fileKeyOf a) a.fileId.bytes i (i = a.file.totalChunks - 1) (a.file.chunk i) =
      .ok (chunkCall a i) :=
  gcmCall_ok (a.w.hkdf_length _ _ _) a.fileId _ _ _

/-- The calls for the metadata and for the first `k` chunks, in the order in
which the loop makes them. -/
def callsUpTo (a : SendArgs) (k : Nat) : List EncryptCall :=
  .metadata (metadataCall a) :: (List.range k).map fun i => .chunk i (chunkCall a i)

theorem callsUpTo_succ (a : SendArgs) (k : Nat) :
    callsUpTo a (k + 1) = callsUpTo a k ++ [.chunk k (chunkCall a k)] := by
  rw [callsUpTo, List.range_succ, List.map_append, callsUpTo]
  rfl

theorem metadata_mem_callsUpTo (a : SendArgs) (k : Nat) :
    .metadata (metadataCall a) ∈ callsUpTo a k :=
  List.mem_cons_self

theorem chunk_mem_callsUpTo (a : SendArgs) {i k : Nat} (h : i < k) :
    .chunk i (chunkCall a i) ∈ callsUpTo a k :=
  List.mem_cons_of_mem _ (List.mem_map.mpr ⟨i, List.mem_range.mpr h, rfl⟩)

/-- What a call has encrypted when it is suspended here. -/
def Logged (a : SendArgs) (log : List EncryptCall) : Pc → Prop
  | .derivingKey => log = []
  | .encryptingMeta => log = callsUpTo a 0
  | .windowWait i | .readingSlice i => log = callsUpTo a i
  | .encryptingChunk i _ => log = callsUpTo a (i + 1)
  | .ackWait => log = callsUpTo a a.file.totalChunks
  | .settled _ => log = [] ∨ ∃ k ≤ a.file.totalChunks, log = callsUpTo a k

theorem Lands.logged {i : Nat} (h : Lands a s i t out) (hi : i ≤ a.file.totalChunks) :
    Logged a (callsUpTo a i) t.pc := by
  cases h with
  | window | reading => rfl
  | acks hle => exact congrArg _ (Nat.le_antisymm hi hle)
  | resolved | aborted => exact .inr ⟨i, hi, rfl⟩

theorem Woken.logged {log : List EncryptCall} (h : Woken a s t out) (hs : WellFormed a s)
    (hlog : Logged a log s.pc) : Logged a log t.pc := by
  cases h with
  | asleep => exact hlog
  | lost hw =>
      cases hpc : s.pc with
      | windowWait i =>
          have hi := hs.index
          rw [hpc] at hlog hi
          exact .inr ⟨i, Nat.le_of_lt hi, hlog⟩
      | ackWait =>
          rw [hpc] at hlog
          exact .inr ⟨_, Nat.le_refl _, hlog⟩
      | _ => simp [State.waiting, hpc] at hw
  | window i hpc _ _ _ h =>
      have hi := hs.index
      rw [hpc] at hlog hi
      obtain rfl := hlog
      exact h.logged (Nat.le_of_lt hi)
  | acks hpc _ _ _ h =>
      rw [hpc] at hlog
      obtain rfl := hlog
      exact h.logged (Nat.le_refl _)

/-- **The step lemma**: the log follows the loop. -/
theorem Steps.logged {log : List EncryptCall} (h : Steps a s e t out) (hs : WellFormed a s)
    (hlog : Logged a log s.pc) : Logged a (log ++ encryptCalls a e t) t.pc := by
  cases h with
  | keyDerived hpc key hk =>
      rw [hpc] at hlog
      obtain rfl := hlog
      obtain rfl := (deriveFileKey_eq_ok hk).2.2
      change (gcmCall (fileKeyOf a) a.fileId.bytes METADATA_CHUNK_INDEX true
        (a.codec.encode a.file.toMeta)).toOption.toList.map .metadata = callsUpTo a 0
      rw [gcmCall_metadata]
      rfl
  | keyFailed hpc =>
      rw [hpc] at hlog
      exact .inl (by rw [hlog]; rfl)
  | metaSent hpc _ _ _ _ h =>
      rw [hpc] at hlog
      obtain rfl := hlog
      exact (List.append_nil _).symm ▸ h.logged (Nat.zero_le _)
  | metaFailed hpc =>
      rw [hpc] at hlog
      exact .inr ⟨0, Nat.zero_le _, by rw [hlog]; rfl⟩
  | sliceRead i hpc =>
      have hkey := hs.fileKey_eq (by simp [hpc]) (by simp [State.isSettled, hpc])
      rw [hpc] at hlog
      obtain rfl := hlog
      change callsUpTo a i ++ (gcmCall s.fileKey a.fileId.bytes i (i = a.file.totalChunks - 1)
        (a.file.chunk i)).toOption.toList.map (.chunk i) = callsUpTo a (i + 1)
      rw [hkey, gcmCall_chunk, callsUpTo_succ]
      rfl
  | chunkSent i _ hpc _ _ _ _ h =>
      have hi := hs.index
      rw [hpc] at hlog hi
      obtain rfl := hlog
      exact (List.append_nil _).symm ▸ h.logged hi.1
  | failed e msg hpc =>
      have hi := hs.index
      rw [encryptCalls_settled rfl, List.append_nil]
      cases hs : s.pc with
      | readingSlice i =>
          rw [hs] at hlog hi
          exact .inr ⟨i, Nat.le_of_lt hi, hlog⟩
      | encryptingChunk i p =>
          rw [hs] at hlog hi
          exact .inr ⟨i + 1, hi.1, hlog⟩
      | _ => simp [State.listening, State.waiting, hs] at hpc
  | heard e hl hc _ _ _ _ h =>
      rw [encryptCalls_heard hc, List.append_nil]
      exact h.logged (noted_wellFormed hs e) (by rwa [noted_pc])
  | ignored | closedUnheard | abortUnheard => exact (List.append_nil _).symm ▸ hlog

/-- A call that has encrypted something has encrypted under its file's key. -/
theorem Logged.eq_calls {log : List EncryptCall} {pc : Pc} (h : Logged a log pc)
    (hindex : IndexOk a pc) :
    log = [] ∨ ∃ k ≤ a.file.totalChunks, log = callsUpTo a k := by
  cases pc with
  | derivingKey => exact .inl h
  | encryptingMeta => exact .inr ⟨0, Nat.zero_le _, h⟩
  | windowWait i | readingSlice i => exact .inr ⟨i, Nat.le_of_lt hindex, h⟩
  | encryptingChunk i p => exact .inr ⟨i + 1, hindex.1, h⟩
  | ackWait => exact .inr ⟨_, Nat.le_refl _, h⟩
  | settled => exact h

/-- The reserved index has a nonce of its own. -/
theorem metadata_nonce_ne {k : Nat} {f : File} (hk : k < f.totalChunks) :
    chunkNonce METADATA_CHUNK_INDEX ≠ chunkNonce k := by
  intro h
  have hlt := hk.trans f.totalChunks_lt
  have heq := chunkNonce_inj METADATA_CHUNK_INDEX_lt (hlt.trans METADATA_CHUNK_INDEX_lt) h
  omega

/-- The nonces of one call's file are distinct. -/
theorem nodup_callsUpTo {k : Nat} (hk : k ≤ a.file.totalChunks) :
    ((callsUpTo a k).map fun e => e.call.iv).Nodup := by
  rw [callsUpTo, List.map_cons, List.map_map, List.nodup_cons]
  constructor
  · intro hmem
    obtain ⟨i, hi, heq⟩ := List.mem_map.mp hmem
    exact metadata_nonce_ne ((List.mem_range.mp hi).trans_le hk) heq.symm
  · refine List.Nodup.map_on (fun i hi j hj heq => ?_) List.nodup_range
    have hlt {i : Nat} (hi : i ∈ List.range k) : i < 2 ^ 64 :=
      (((List.mem_range.mp hi).trans_le hk).trans a.file.totalChunks_lt).trans
        METADATA_CHUNK_INDEX_lt
    exact chunkNonce_inj (hlt hi) (hlt hj) heq

theorem key_of_mem_callsUpTo {k : Nat} {e : EncryptCall} (h : e ∈ callsUpTo a k) :
    e.call.key = fileKeyOf a := by
  rcases List.mem_cons.mp h with rfl | h
  · rfl
  · obtain ⟨i, -, rfl⟩ := List.mem_map.mp h
    rfl

/-! ## A step asks for nothing else -/

/-- Two Web Cryptos that derive the same keys and answer alike to the calls in
the log; on every other call of the cipher they may differ. -/
structure AgreeOn (log : List EncryptCall) (w w' : WebCrypto) : Prop where
  hkdf : w'.hkdf = w.hkdf
  run : ∀ e ∈ log, e.call.run w' = e.call.run w

theorem deriveFileKey_congr {w w' : WebCrypto} (h : w'.hkdf = w.hkdf) (epochKey fileID : Bytes) :
    deriveFileKey w' epochKey fileID = deriveFileKey w epochKey fileID := by
  rw [deriveFileKey, deriveFileKey, h]

variable {w' : WebCrypto} {log : List EncryptCall}

/-- The encryption of the metadata, where the call awaits it. -/
theorem encryptChunk_metadata_congr (hs : WellFormed a s) (hlog : Logged a log s.pc)
    (hpc : s.pc = .encryptingMeta) (h : AgreeOn log a.w w') :
    encryptChunk w' s.fileKey a.fileId.bytes METADATA_CHUNK_INDEX true
        (a.codec.encode a.file.toMeta) =
      encryptChunk a.w s.fileKey a.fileId.bytes METADATA_CHUNK_INDEX true
        (a.codec.encode a.file.toMeta) := by
  have hkey := hs.fileKey_eq (by simp [hpc]) (by simp [State.isSettled, hpc])
  rw [hpc] at hlog
  obtain rfl := hlog
  have hrun := h.run _ (metadata_mem_callsUpTo a 0)
  rw [encryptChunk_eq, encryptChunk_eq, hkey, gcmCall_metadata]
  exact congrArg Except.ok hrun

/-- The encryption of a chunk, where the call awaits it. -/
theorem encryptChunk_chunk_congr {i : Nat} {p : Bytes} (hs : WellFormed a s)
    (hlog : Logged a log s.pc) (hpc : s.pc = .encryptingChunk i p) (h : AgreeOn log a.w w') :
    encryptChunk w' s.fileKey a.fileId.bytes i (i = a.file.totalChunks - 1) p =
      encryptChunk a.w s.fileKey a.fileId.bytes i (i = a.file.totalChunks - 1) p := by
  have hkey := hs.fileKey_eq (by simp [hpc]) (by simp [State.isSettled, hpc])
  have hindex := hs.index
  rw [hpc] at hlog hindex
  obtain rfl := hlog
  obtain rfl := hindex.2
  have hrun := h.run _ (chunk_mem_callsUpTo a i.lt_succ_self)
  rw [encryptChunk_eq, encryptChunk_eq, hkey, gcmCall_chunk]
  exact congrArg Except.ok hrun

/-- **A step asks for nothing else**: over a cipher that agrees on the logged
calls, every event does the same and puts the same on the socket. -/
theorem step_congr (hs : WellFormed a s) (hlog : Logged a log s.pc) (h : AgreeOn log a.w w')
    (e : Event) : step { a with w := w' } s e = step a s e := by
  cases e with
  | keyDerived err =>
      cases hpc : s.pc with
      | derivingKey => simp only [step, hpc, onKeyDerived, deriveFileKey_congr h.hkdf]
      | _ => simp only [step, hpc]
  | metaEncrypted err =>
      cases hpc : s.pc with
      | encryptingMeta =>
          simp only [step, hpc, onMetaEncrypted, encryptChunk_metadata_congr hs hlog hpc h]
          rfl
      | _ => simp only [step, hpc]
  | chunkEncrypted err =>
      cases hpc : s.pc with
      | encryptingChunk i p =>
          simp only [step, hpc, onChunkEncrypted, encryptChunk_chunk_congr hs hlog hpc h]
          rfl
      | _ => simp only [step, hpc]
  | sliceRead err =>
      cases hpc : s.pc with
      | readingSlice i =>
          simp only [step, hpc]
          rfl
      | _ => simp only [step, hpc]
  | message | close | signalAbort => rfl

end SendFile

/-! ## The calls of a session -/

namespace Sends

open SendFile (EncryptCall encryptCalls)

/-- One `sendFile` call, with the `encryptChunk` calls that it has made. -/
structure Sending where
  args : SendArgs
  state : SendFile.State
  encrypted : List EncryptCall

/-- `send`: one of the peers sends a file in some epoch, under the id that it
draws. `event`: something happens to call `n`. -/
inductive Event where
  | send (epoch : Nat) (file : File) (fileId : FileId)
  | event (n : Nat) (e : SendFile.Event)

section
variable (w : WebCrypto) (codec : MetaCodec) (sessionKey : Bytes)

/-- A call begins in some epoch of the session, or one of the calls takes a step,
which puts the cipher calls it makes on its log. -/
def step (x : List Sending) : Event → Option (List Sending)
  | .send epoch file fileId =>
      match deriveEpochKey w sessionKey epoch with
      | .error _ => none
      | .ok epochKey => some (x ++ [⟨⟨w, codec, epochKey, file, fileId⟩, SendFile.init, []⟩])
  | .event n e =>
      match x[n]? with
      | none => none
      | some c => (SendFile.step c.args c.state e).map fun r =>
          x.set n ⟨c.args, r.1, c.encrypted ++ encryptCalls c.args e r.1⟩

end

variable {w : WebCrypto} {codec : MetaCodec} {sessionKey : Bytes}

/-- A call of the session, with its log. -/
structure Sound (w : WebCrypto) (c : Sending) : Prop where
  crypto : c.args.w = w
  wellFormed : SendFile.WellFormed c.args c.state
  logged : SendFile.Logged c.args c.encrypted c.state.pc

theorem step_sound (x : List Sending) (e : Event) (y : List Sending) (hx : ∀ c ∈ x, Sound w c)
    (h : step w codec sessionKey x e = some y) : ∀ c ∈ y, Sound w c := by
  cases e with
  | send epoch file fileId =>
      rw [step] at h
      split at h
      next => cases h
      next epochKey _ =>
        obtain rfl := Option.some.inj h
        intro c hc
        rcases List.mem_append.mp hc with hc | hc
        · exact hx c hc
        · obtain rfl := List.mem_singleton.mp hc
          exact ⟨rfl, .init _, rfl⟩
  | event n e =>
      rw [step] at h
      split at h
      next => cases h
      next c hn =>
        obtain ⟨⟨t, out⟩, hr, rfl⟩ := Option.map_eq_some_iff.mp h
        have hc := hx c (List.mem_of_getElem? hn)
        have hst := SendFile.step_spec hc.wellFormed hr
        intro d hd
        rcases List.mem_or_eq_of_mem_set hd with hd | rfl
        · exact hx d hd
        · exact ⟨hc.crypto, hst.wellFormed hc.wellFormed, hst.logged hc.wellFormed hc.logged⟩

theorem run_sound {x : List Sending} {es : List Event}
    (h : Transition.run (step w codec sessionKey) [] es = some x) : ∀ c ∈ x, Sound w c :=
  Transition.invariant (I := fun x : List Sending => ∀ c ∈ x, Sound w c) step_sound
    (fun _ h => absurd h List.not_mem_nil) h

/-- The key and the nonce of every call of AES-GCM that the session has made. -/
def used (x : List Sending) : List (Bytes × Bytes) :=
  x.flatMap fun c => c.encrypted.map fun e => (e.call.key, e.call.iv)

/-- HKDF is injective on the input keys and salts of these calls. On all of them
it cannot be, with outputs of 32 bytes. -/
def InjectiveOn (w : WebCrypto) (x : List Sending) : Prop :=
  ∀ c ∈ x, ∀ d ∈ x, w.hkdf c.args.epochKey c.args.fileId.bytes FILE_INFO =
    w.hkdf d.args.epochKey d.args.fileId.bytes FILE_INFO →
      c.args.epochKey = d.args.epochKey ∧ c.args.fileId = d.args.fileId

instance (w : WebCrypto) (x : List Sending) : Decidable (InjectiveOn w x) :=
  inferInstanceAs (Decidable (∀ c ∈ x, ∀ d ∈ x, _ → _))

theorem Sound.eq_calls {c : Sending} (h : Sound w c) :
    c.encrypted = [] ∨ ∃ k ≤ c.args.file.totalChunks,
      c.encrypted = SendFile.callsUpTo c.args k :=
  h.logged.eq_calls h.wellFormed.index

theorem Sound.key_eq {c : Sending} (h : Sound w c) {e : EncryptCall} (he : e ∈ c.encrypted) :
    e.call.key = w.hkdf c.args.epochKey c.args.fileId.bytes FILE_INFO := by
  rcases h.eq_calls with hc | ⟨k, -, hc⟩
  · rw [hc] at he
    cases he
  · rw [SendFile.key_of_mem_callsUpTo (hc ▸ he), SendFile.fileKeyOf, h.crypto]

/-- The nonces of one call are distinct. -/
theorem Sound.nodup {c : Sending} (h : Sound w c) :
    (c.encrypted.map fun e => (e.call.key, e.call.iv)).Nodup := by
  rcases h.eq_calls with hc | ⟨k, hk, hc⟩
  · rw [hc]
    exact List.nodup_nil
  · have hmap : (c.encrypted.map fun e => (e.call.key, e.call.iv)).map Prod.snd =
        c.encrypted.map fun e => e.call.iv := List.map_map
    have hnonces := SendFile.nodup_callsUpTo hk
    exact .of_map Prod.snd (by rwa [hmap, hc])

/-- A chunk is never encrypted under the nonce of the metadata. -/
theorem Sound.nonce_ne {c d : Sending} (h : Sound w c) (h' : Sound w d) {e e' : EncryptCall}
    (he : e ∈ c.encrypted) (he' : e' ∈ d.encrypted) (hm : e.isMetadata = true)
    (hm' : e'.isMetadata = false) : e.call.iv ≠ e'.call.iv := by
  have hmeta : e.call.iv = chunkNonce METADATA_CHUNK_INDEX := by
    rcases h.eq_calls with hc | ⟨k, -, hc⟩
    · rw [hc] at he
      cases he
    · rw [hc] at he
      rcases List.mem_cons.mp he with rfl | he
      · rfl
      · obtain ⟨i, -, rfl⟩ := List.mem_map.mp he
        cases hm
  rw [hmeta]
  rcases h'.eq_calls with hc | ⟨k, hk, hc⟩
  · rw [hc] at he'
    cases he'
  · rw [hc] at he'
    rcases List.mem_cons.mp he' with rfl | he'
    · cases hm'
    · obtain ⟨i, hi, rfl⟩ := List.mem_map.mp he'
      exact SendFile.metadata_nonce_ne ((List.mem_range.mp hi).trans_le hk)

/-- **No nonce is used twice**: in any run of a session with distinct file ids,
no two calls of AES-GCM have the same key and nonce, and the nonce of a file's
metadata is that of no chunk under any key. The log that says so is what the
cipher is asked: over any other Web Crypto that agrees with this one on the
logged calls of a `sendFile` call, whatever can happen to it next does the same. -/
theorem nonces_distinct {x : List Sending} {es : List Event}
    (hrun : Transition.run (step w codec sessionKey) [] es = some x)
    (hids : (x.map (·.args.fileId)).Nodup) (hinj : InjectiveOn w x) :
    (used x).Nodup ∧
      (∀ c ∈ x, ∀ d ∈ x, ∀ e ∈ c.encrypted, ∀ e' ∈ d.encrypted,
        e.isMetadata = true → e'.isMetadata = false → e.call.iv ≠ e'.call.iv) ∧
      ∀ c ∈ x, ∀ w', SendFile.AgreeOn c.encrypted w w' → ∀ e,
        SendFile.step { c.args with w := w' } c.state e = SendFile.step c.args c.state e := by
  have hsound := run_sound hrun
  refine ⟨List.nodup_flatMap.mpr ⟨fun c hc => (hsound c hc).nodup, ?_⟩, ?_, ?_⟩
  · rw [List.Nodup, List.pairwise_map] at hids
    refine hids.imp_of_mem fun {c d} hc hd hne p hp hp' => ?_
    obtain ⟨e, he, rfl⟩ := List.mem_map.mp hp
    obtain ⟨e', he', heq⟩ := List.mem_map.mp hp'
    have hkeys : w.hkdf c.args.epochKey c.args.fileId.bytes FILE_INFO =
        w.hkdf d.args.epochKey d.args.fileId.bytes FILE_INFO :=
      calc w.hkdf c.args.epochKey c.args.fileId.bytes FILE_INFO
          = e.call.key := ((hsound c hc).key_eq he).symm
        _ = e'.call.key := (Prod.mk.inj heq).1.symm
        _ = w.hkdf d.args.epochKey d.args.fileId.bytes FILE_INFO := (hsound d hd).key_eq he'
    exact hne (hinj c hc d hd hkeys).2
  · intro c hc d hd e he e' he'
    exact (hsound c hc).nonce_ne (hsound d hd) he he'
  · intro c hc w' hagree e
    have hw := hsound c hc
    exact SendFile.step_congr hw.wellFormed hw.logged (hw.crypto ▸ hagree) e

/-! ## A file that is cancelled and sent again -/

/-- A file is begun in epoch 0 and cancelled, and sent again in epoch 1 before
the first call has settled. -/
def resentEvents : List Event :=
  [.send 0 SendFile.tinyArgs.file SendFile.tinyArgs.fileId, .event 0 (.keyDerived none),
    .event 0 (.metaEncrypted none), .event 0 (.sliceRead none), .event 0 .signalAbort,
    .send 1 SendFile.tinyArgs.file SendFile.tinyOtherId, .event 1 (.keyDerived none),
    .event 0 (.chunkEncrypted none), .event 1 (.metaEncrypted none), .event 1 (.sliceRead none),
    .event 1 (.chunkEncrypted none)]

/-- A cipher that errs on every call under the nonce of chunk 1, which a file of
one byte never asks for. -/
def otherCrypto : WebCrypto where
  hkdf := labelCrypto.hkdf
  hkdf_length := labelCrypto.hkdf_length
  aesGcmEncrypt key iv aad plaintext :=
    if iv = chunkNonce 1 then plaintext else labelCrypto.aesGcmEncrypt key iv aad plaintext
  aesGcmDecrypt key iv aad ciphertext :=
    if iv = chunkNonce 1 then some ciphertext else labelCrypto.aesGcmDecrypt key iv aad ciphertext
  decrypt_encrypt key iv aad plaintext := by
    by_cases h : iv = chunkNonce 1
    · rw [if_pos h, if_pos h]
    · rw [if_neg h, if_neg h, labelCrypto.decrypt_encrypt]

theorem nonces_distinct_resent : ∃ x,
    Transition.run (step labelCrypto SendFile.tinyArgs.codec (List.replicate 32 0)) []
      resentEvents = some x ∧ (used x).length = 4 ∧ (used x).Nodup ∧
      ∀ c ∈ x, ∀ e, SendFile.step { c.args with w := otherCrypto } c.state e =
        SendFile.step c.args c.state e := by
  have hrun : (Transition.run (step labelCrypto SendFile.tinyArgs.codec (List.replicate 32 0)) []
      resentEvents).any (fun x => (x.map (·.args.fileId)).Nodup ∧ InjectiveOn labelCrypto x ∧
        (used x).length = 4 ∧ ∀ c ∈ x, ∀ e ∈ c.encrypted,
          e.call.run otherCrypto = e.call.run labelCrypto) = true := by
    decide +kernel
  obtain ⟨x, hx, h⟩ := (Option.any_eq_true _ _).mp hrun
  obtain ⟨hids, hinj, hlen, hagree⟩ := of_decide_eq_true h
  obtain ⟨hnodup, -, hstep⟩ := nonces_distinct hx hids hinj
  exact ⟨x, hx, hlen, hnodup, fun c hc => hstep c hc otherCrypto ⟨rfl, hagree c hc⟩⟩

end Sends

end Quicksend
