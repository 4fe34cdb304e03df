import Quicksend.Bytes

/-!
# Key derivation and chunk encryption (`crypto.js`)

Web Crypto itself is a parameter: `WebCrypto` is HKDF-SHA-256 and
AES-256-GCM as functions on byte strings, with the two facts of their
documentation the development relies on (the length of the derived bits,
and that decrypting an encryption under the same key, nonce and
associated data gives the plaintext back). That a ciphertext cannot be
forged is not a property of the functions; the results that need it state
it about the messages an attacker delivers (`Quicksend.Integrity`).
-/

namespace Quicksend

/-- The functions of the browser's Web Crypto that this module calls, with what it
relies on: the length of a key, and that decryption undoes encryption. -/
structure WebCrypto where
  hkdf : (ikm salt info : Bytes) → Bytes
  hkdf_length : ∀ ikm salt info, (hkdf ikm salt info).length = 32
  aesGcmEncrypt : (key iv aad plaintext : Bytes) → Bytes
  /-- `none` is the `OperationError` of a tag that does not verify. -/
  aesGcmDecrypt : (key iv aad ciphertext : Bytes) → Option Bytes
  decrypt_encrypt : ∀ key iv aad plaintext,
    aesGcmDecrypt key iv aad (aesGcmEncrypt key iv aad plaintext) = some plaintext

/-- The 16 random bytes that name one `sendFile` call's file. -/
structure FileId where
  bytes : Bytes
  length_eq : bytes.length = 16
  deriving DecidableEq

theorem FileId.ext {a b : FileId} (h : a.bytes = b.bytes) : a = b := by
  cases a
  cases b
  cases h
  rfl

/-- The string `sendFile` and `attachReceiver` compare file ids by. -/
def FileId.hex (id : FileId) : JSString := toHex id.bytes

theorem FileId.hex_inj {a b : FileId} (h : a.hex = b.hex) : a = b :=
  FileId.ext (toHex_inj h)

/-- The reserved index under which a file's metadata is encrypted. -/
def METADATA_CHUNK_INDEX : Nat := 0xffffffffffffffff

/-- ASCII text as bytes (`TextEncoder` on the fixed context strings). -/
def ascii (s : String) : Bytes := s.toList.map fun c => UInt8.ofNat c.toNat

/-- The label in HKDF's `info` that sets the key of an epoch apart from every
other derived key. -/
def EPOCH_INFO : Bytes := ascii "quicksend-epoch-v1"

/-- The label in HKDF's `info` that sets the key of a file apart from the key of
its epoch. -/
def FILE_INFO : Bytes := ascii "quicksend-v1"

/-- What the promise of an operation settles with, when it may also fail as
`err` says. -/
def settle {α : Type} (err : Option String) (r : Except String α) : Except String α :=
  match err with
  | some e => .error e
  | none => r

/-- `assertLength`: a byte string of the wrong length is refused, by a message
that names the argument and both lengths. -/
def assertLength (bytes : Bytes) (expected : Nat) (name : String) : Except String Unit :=
  if bytes.length ≠ expected then
    .error (name ++ " must be " ++ toString expected ++ " bytes, got " ++ toString bytes.length)
  else .ok ()

/-- `deriveEpochKey`: HKDF over the session key, salted by the epoch as four
big-endian bytes. -/
def deriveEpochKey (w : WebCrypto) (sessionKey : Bytes) (epoch : Nat) : Except String Bytes := do
  assertLength sessionKey 32 "sessionKey"
  return w.hkdf sessionKey (beBytes 4 epoch) EPOCH_INFO

/-- `deriveFileKey`: HKDF over the epoch's key, salted by the 16 bytes of the
file's id. -/
def deriveFileKey (w : WebCrypto) (epochKey fileID : Bytes) : Except String Bytes := do
  assertLength epochKey 32 "epochKey"
  assertLength fileID 16 "fileID"
  return w.hkdf epochKey fileID FILE_INFO

/-- `chunkNonce`: four zero bytes and the chunk's index as eight big-endian ones,
twelve bytes in all. -/
def chunkNonce (chunkIndex : Nat) : Bytes :=
  [0, 0, 0, 0] ++ beBytes 8 chunkIndex

/-- `chunkAAD`: the file's id, the chunk's index and the last flag, which the tag
of a chunk vouches for. -/
def chunkAAD (fileID : Bytes) (chunkIndex : Nat) (last : Bool) : Bytes :=
  fileID ++ beBytes 8 chunkIndex ++ [if last then 1 else 0]

/-- `encryptChunk`: AES-GCM under the file's key, with the nonce of the index and
the associated data of the chunk. -/
def encryptChunk (w : WebCrypto) (fileKey fileID : Bytes) (chunkIndex : Nat) (last : Bool)
    (plaintext : Bytes) : Except String Bytes := do
  assertLength fileID 16 "fileID"
  assertLength fileKey 32 "fileKey"
  return w.aesGcmEncrypt fileKey (chunkNonce chunkIndex) (chunkAAD fileID chunkIndex last) plaintext

/-- `decryptChunk`: the reverse of `encryptChunk`; a tag that does not verify is
thrown as Web Crypto throws it. -/
def decryptChunk (w : WebCrypto) (fileKey fileID : Bytes) (chunkIndex : Nat) (last : Bool)
    (ciphertext : Bytes) : Except String Bytes := do
  assertLength fileID 16 "fileID"
  assertLength fileKey 32 "fileKey"
  match w.aesGcmDecrypt fileKey (chunkNonce chunkIndex) (chunkAAD fileID chunkIndex last)
      ciphertext with
  | some plaintext => return plaintext
  | none => throw "OperationError"

/-! ## What the length checks leave -/

theorem assertLength_ok {bytes : Bytes} {expected : Nat} (h : bytes.length = expected)
    (name : String) : assertLength bytes expected name = .ok () := by
  simp [assertLength, h]

/-- `deriveFileKey` succeeds on 32-byte epoch keys and 16-byte ids, and its
result is again a key. -/
theorem deriveFileKey_ok (w : WebCrypto) {epochKey : Bytes} (h : epochKey.length = 32)
    (id : FileId) :
    deriveFileKey w epochKey id.bytes = .ok (w.hkdf epochKey id.bytes FILE_INFO) := by
  rw [deriveFileKey, assertLength_ok h, assertLength_ok id.length_eq]
  rfl

theorem deriveFileKey_error (w : WebCrypto) {epochKey : Bytes} (h : epochKey.length ≠ 32)
    (fileID : Bytes) : ∃ e, deriveFileKey w epochKey fileID = .error e := by
  rw [deriveFileKey, assertLength, if_pos h]
  exact ⟨_, rfl⟩

/-- What a successful `deriveFileKey` says about its arguments. -/
theorem deriveFileKey_eq_ok {w : WebCrypto} {epochKey fileID key : Bytes}
    (h : deriveFileKey w epochKey fileID = .ok key) :
    epochKey.length = 32 ∧ fileID.length = 16 ∧ key = w.hkdf epochKey fileID FILE_INFO := by
  by_cases he : epochKey.length = 32
  · by_cases hf : fileID.length = 16
    · rw [deriveFileKey, assertLength_ok he, assertLength_ok hf] at h
      exact ⟨he, hf, (Except.ok.inj h).symm⟩
    · rw [deriveFileKey, assertLength_ok he, assertLength, if_pos hf] at h
      cases h
  · obtain ⟨e, herr⟩ := deriveFileKey_error w he fileID
    rw [herr] at h
    cases h

theorem encryptChunk_ok (w : WebCrypto) {fileKey : Bytes} (h : fileKey.length = 32)
    (id : FileId) (chunkIndex : Nat) (last : Bool) (plaintext : Bytes) :
    encryptChunk w fileKey id.bytes chunkIndex last plaintext
      = .ok (w.aesGcmEncrypt fileKey (chunkNonce chunkIndex) (chunkAAD id.bytes chunkIndex last)
          plaintext) := by
  rw [encryptChunk, assertLength_ok id.length_eq, assertLength_ok h]
  rfl

/-- What `decryptChunk` opens, AES-GCM opened under the chunk's nonce and
associated data. -/
theorem decryptChunk_eq_ok {w : WebCrypto} {fileKey fileID : Bytes} {chunkIndex : Nat}
    {last : Bool} {ciphertext plaintext : Bytes}
    (h : decryptChunk w fileKey fileID chunkIndex last ciphertext = .ok plaintext) :
    w.aesGcmDecrypt fileKey (chunkNonce chunkIndex) (chunkAAD fileID chunkIndex last) ciphertext
      = some plaintext := by
  by_cases hf : fileID.length = 16
  · by_cases hk : fileKey.length = 32
    · rw [decryptChunk, assertLength_ok hf, assertLength_ok hk] at h
      change (match w.aesGcmDecrypt fileKey (chunkNonce chunkIndex)
        (chunkAAD fileID chunkIndex last) ciphertext with
        | some plaintext => Except.ok plaintext
        | none => Except.error "OperationError") = .ok plaintext at h
      split at h
      next p hp => rw [hp, Except.ok.inj h]
      next => cases h
    · rw [decryptChunk, assertLength_ok hf, assertLength, if_pos hk] at h
      cases h
  · rw [decryptChunk, assertLength, if_pos hf] at h
    cases h

/-- A chunk opens under the parameters it was made with. -/
theorem decryptChunk_encryptChunk {w : WebCrypto} {fileKey fileID : Bytes} {chunkIndex : Nat}
    {last : Bool} {plaintext ciphertext : Bytes}
    (h : encryptChunk w fileKey fileID chunkIndex last plaintext = .ok ciphertext) :
    decryptChunk w fileKey fileID chunkIndex last ciphertext = .ok plaintext := by
  by_cases hf : fileID.length = 16
  · by_cases hk : fileKey.length = 32
    · rw [encryptChunk, assertLength_ok hf, assertLength_ok hk] at h
      rw [decryptChunk, assertLength_ok hf, assertLength_ok hk, ← Except.ok.inj h]
      change (match w.aesGcmDecrypt _ _ _ (w.aesGcmEncrypt _ _ _ _) with
        | some plaintext => Except.ok plaintext
        | none => Except.error "OperationError") = .ok plaintext
      rw [w.decrypt_encrypt]
    · rw [encryptChunk, assertLength_ok hf, assertLength, if_pos hk] at h
      cases h
  · rw [encryptChunk, assertLength, if_pos hf] at h
    cases h

/-! ## Nonces and associated data tell chunks apart -/

theorem chunkNonce_inj {i j : Nat} (hi : i < 2 ^ 64) (hj : j < 2 ^ 64)
    (h : chunkNonce i = chunkNonce j) : i = j :=
  beBytes_inj hi hj (List.append_cancel_left h)

theorem chunkAAD_inj {id id' : FileId} {i j : Nat} {last last' : Bool}
    (hi : i < 2 ^ 64) (hj : j < 2 ^ 64)
    (h : chunkAAD id.bytes i last = chunkAAD id'.bytes j last') :
    id = id' ∧ i = j ∧ last = last' := by
  simp only [chunkAAD, List.append_assoc] at h
  obtain ⟨hid, hrest⟩ := List.append_inj h (by rw [id.length_eq, id'.length_eq])
  obtain ⟨hidx, hlast⟩ := List.append_inj hrest (by simp)
  refine ⟨FileId.ext hid, beBytes_inj hi hj hidx, ?_⟩
  cases last <;> cases last' <;> simp_all

/-! ## An instance to evaluate with -/

/-- A cipher that writes key, nonce and associated data in front of the
plaintext and checks them on the way back. It keeps no secret; it lets the
transfer code be run on concrete inputs. -/
def labelCrypto : WebCrypto where
  hkdf _ salt _ := (salt ++ List.replicate 32 0).take 32
  hkdf_length _ _ _ := by simp
  aesGcmEncrypt key iv aad plaintext := key ++ iv ++ aad ++ plaintext
  aesGcmDecrypt key iv aad ciphertext :=
    if ciphertext.take (key ++ iv ++ aad).length = key ++ iv ++ aad then
      some (ciphertext.drop (key ++ iv ++ aad).length)
    else none
  decrypt_encrypt key iv aad plaintext := by
    simp only [List.take_left, List.drop_left, if_true]

end Quicksend
