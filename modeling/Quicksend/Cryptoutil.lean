import Quicksend.Crypto
import Quicksend.Lib.Utf16

/-!
# The other implementation of the scheme (`cryptoutil.go`)

The relay's repository has the scheme a second time, in Go. Here it stands next
to the browser's, over the same primitives, with the bytes that each of them
writes.
-/

namespace Quicksend

/-- `binary.BigEndian.PutUint32`: the four bytes of the number, cut out by shifts,
the highest first. -/
def putUint32 (v : UInt32) : Bytes :=
  [(v >>> 24).toUInt8, (v >>> 16).toUInt8, (v >>> 8).toUInt8, v.toUInt8]

/-- `binary.BigEndian.PutUint64`: the eight bytes of the number, cut out by
shifts, the highest first. -/
def putUint64 (v : UInt64) : Bytes :=
  [(v >>> 56).toUInt8, (v >>> 48).toUInt8, (v >>> 40).toUInt8, (v >>> 32).toUInt8,
    (v >>> 24).toUInt8, (v >>> 16).toUInt8, (v >>> 8).toUInt8, v.toUInt8]

/-- The UTF-8 bytes of a text: what a Go string holds. -/
def utf8 (s : List Char) : Bytes := s.flatMap String.utf8EncodeChar

namespace Cryptoutil

/-- The length of every key that is derived or used here, in bytes: those of
AES-256. -/
def KeySize : Nat := 32

/-- The length of a file id in bytes, the same that the browser draws and the
frames carry. -/
def FileIDSize : Nat := 16

/-- The context string of epoch keys, which is `EPOCH_INFO` in the browser. -/
def epochInfo : String := "quicksend-epoch-v1"

/-- The context string of file keys, which is `FILE_INFO` in the browser. -/
def fileInfo : String := "quicksend-v1"

/-- The context string of reconnect tokens, which is `RECONNECT_INFO` in the
browser. -/
def reconnectInfo : String := "quicksend-reconnect"

/-- `checkLen`: an argument of another length is an error that names it and says
both lengths, as `assertLength` throws one. -/
def checkLen (bytes : Bytes) (size : Nat) (name : String) : Except String Unit :=
  if bytes.length ≠ size then
    .error ("cryptoutil: " ++ name ++ " must be " ++ toString size ++ " bytes, got " ++
      toString bytes.length)
  else .ok ()

/-- `hkdf.Key(sha256.New, ...)` for a key of `KeySize`: the primitive of Web
Crypto, with Go's string as `info`. -/
def hkdfKey (w : WebCrypto) (secret salt : Bytes) (info : String) : Bytes :=
  w.hkdf secret salt (utf8 info.toList)

/-- `DeriveEpochKey`: the key of an epoch from that of the session, with the epoch
number in four bytes as salt. -/
def DeriveEpochKey (w : WebCrypto) (sessionKey : Bytes) (epoch : UInt32) : Except String Bytes := do
  checkLen sessionKey KeySize "sessionKey"
  return hkdfKey w sessionKey (putUint32 epoch) epochInfo

/-- `DeriveFileKey`: the key of a file from that of its epoch, with the id of the
file as salt. -/
def DeriveFileKey (w : WebCrypto) (epochKey fileID : Bytes) : Except String Bytes := do
  checkLen epochKey KeySize "epochKey"
  checkLen fileID FileIDSize "fileID"
  return hkdfKey w epochKey fileID fileInfo

/-- `chunkNonce`: four zero bytes and the index of the chunk in eight, which makes
the twelve that GCM takes. -/
def chunkNonce (chunkIndex : UInt64) : Bytes :=
  List.replicate 4 0 ++ putUint64 chunkIndex

/-- `chunkAAD`: what a chunk is bound to besides its nonce, which is the id of its
file, its index, and whether it is the last. -/
def chunkAAD (fileID : Bytes) (chunkIndex : UInt64) (last : Bool) : Bytes :=
  let aad := fileID ++ putUint64 chunkIndex
  if last then aad ++ [1] else aad ++ [0]

/-- `newGCM`: a key of this size makes a cipher. -/
def newGCM (key : Bytes) : Except String Unit := checkLen key KeySize "key"

/-- `EncryptChunk`: the key is checked where the cipher is made from it, and so
before the id of the file. -/
def EncryptChunk (w : WebCrypto) (fileKey fileID : Bytes) (chunkIndex : UInt64) (last : Bool)
    (plaintext : Bytes) : Except String Bytes := do
  newGCM fileKey
  checkLen fileID FileIDSize "fileID"
  return w.aesGcmEncrypt fileKey (chunkNonce chunkIndex) (chunkAAD fileID chunkIndex last) plaintext

/-- `DecryptChunk`: the plaintext, or the error of the Go standard library where
the tag does not verify. -/
def DecryptChunk (w : WebCrypto) (fileKey fileID : Bytes) (chunkIndex : UInt64) (last : Bool)
    (ciphertext : Bytes) : Except String Bytes := do
  newGCM fileKey
  checkLen fileID FileIDSize "fileID"
  match w.aesGcmDecrypt fileKey (chunkNonce chunkIndex) (chunkAAD fileID chunkIndex last)
      ciphertext with
  | some plaintext => return plaintext
  | none => throw "cipher: message authentication failed"

/-- `DeriveReconnectToken`: HMAC-SHA256 over the context string and the session
id, under the key of the session. -/
def DeriveReconnectToken (hmac : (key message : Bytes) → Bytes) (sessionKey sessionID : Bytes) :
    Except String Bytes := do
  checkLen sessionKey KeySize "sessionKey"
  return hmac sessionKey (utf8 reconnectInfo.toList ++ sessionID)

end Cryptoutil

namespace Crypto

/-- The context string of `deriveReconnectToken`, as the browser encodes it. -/
def RECONNECT_INFO : Bytes := ascii "quicksend-reconnect"

/-- `new TextEncoder().encode(s)`: UTF-8, where a surrogate without its partner
becomes U+FFFD. -/
def textEncode (s : JSString) : Bytes := utf8 (Utf16.decode s)

/-- `deriveReconnectToken` of `pairing.js`, on a session id as JavaScript has it,
unpaired surrogates included. -/
def deriveReconnectToken (hmac : (key message : Bytes) → Bytes) (sessionKey : Bytes)
    (sessionId : JSString) : Except String Bytes := do
  assertLength sessionKey 32 "sessionKey"
  return hmac sessionKey (RECONNECT_INFO ++ textEncode sessionId)

end Crypto

/-! ## The same bytes -/

theorem putUint32_eq (v : UInt32) : putUint32 v = beBytes 4 v.toNat := by
  have hbyte : ∀ k n : UInt32, k.toNat < 32 → (n >>> k).toUInt8 = UInt8.ofNat (n.toNat / 2 ^ k.toNat) := by
    intro k n hk
    apply UInt8.toNat_inj.mp
    rw [UInt32.toNat_toUInt8, UInt32.toNat_shiftRight, Nat.mod_eq_of_lt hk,
      Nat.shiftRight_eq_div_pow, UInt8.toNat_ofNat']
  have hlow : v.toUInt8 = UInt8.ofNat (v.toNat / 256 ^ 0) := by
    apply UInt8.toNat_inj.mp
    rw [UInt32.toNat_toUInt8, UInt8.toNat_ofNat', Nat.pow_zero, Nat.div_one]
  rw [putUint32, hbyte 24 v (by decide), hbyte 16 v (by decide), hbyte 8 v (by decide), hlow]
  rfl

theorem putUint64_eq (v : UInt64) : putUint64 v = beBytes 8 v.toNat := by
  have hbyte : ∀ k n : UInt64, k.toNat < 64 → (n >>> k).toUInt8 = UInt8.ofNat (n.toNat / 2 ^ k.toNat) := by
    intro k n hk
    apply UInt8.toNat_inj.mp
    rw [UInt64.toNat_toUInt8, UInt64.toNat_shiftRight, Nat.mod_eq_of_lt hk,
      Nat.shiftRight_eq_div_pow, UInt8.toNat_ofNat']
  have hlow : v.toUInt8 = UInt8.ofNat (v.toNat / 256 ^ 0) := by
    apply UInt8.toNat_inj.mp
    rw [UInt64.toNat_toUInt8, UInt8.toNat_ofNat', Nat.pow_zero, Nat.div_one]
  rw [putUint64, hbyte 56 v (by decide), hbyte 48 v (by decide), hbyte 40 v (by decide),
    hbyte 32 v (by decide), hbyte 24 v (by decide), hbyte 16 v (by decide), hbyte 8 v (by decide), hlow]
  rfl

theorem chunkNonce_eq (i : UInt64) : Cryptoutil.chunkNonce i = chunkNonce i.toNat := by
  rw [Cryptoutil.chunkNonce, chunkNonce, putUint64_eq]
  rfl

theorem chunkAAD_eq (fileID : Bytes) (i : UInt64) (last : Bool) :
    Cryptoutil.chunkAAD fileID i last = chunkAAD fileID i.toNat last := by
  rw [Cryptoutil.chunkAAD, chunkAAD, putUint64_eq]
  cases last <;> rfl

theorem epochInfo_eq : utf8 Cryptoutil.epochInfo.toList = EPOCH_INFO := by decide +kernel

theorem fileInfo_eq : utf8 Cryptoutil.fileInfo.toList = FILE_INFO := by decide +kernel

theorem reconnectInfo_eq : utf8 Cryptoutil.reconnectInfo.toList = Crypto.RECONNECT_INFO := by
  decide +kernel

/-! ## The same failures -/

/-- The same bytes, or a failure of both. -/
def Agree (js go : Except String Bytes) : Prop := js.toOption = go.toOption

theorem toOption_assertLength (bytes : Bytes) (expected : Nat) (name : String)
    (k : Unit → Except String Bytes) :
    (assertLength bytes expected name >>= k).toOption =
      if bytes.length = expected then (k ()).toOption else none := by
  by_cases h : bytes.length = expected
  · rw [assertLength_ok h, if_pos h]
    rfl
  · rw [assertLength, if_pos h, if_neg h]
    rfl

theorem toOption_checkLen (bytes : Bytes) (size : Nat) (name : String)
    (k : Unit → Except String Bytes) :
    (Cryptoutil.checkLen bytes size name >>= k).toOption =
      if bytes.length = size then (k ()).toOption else none := by
  by_cases h : bytes.length = size
  · rw [Cryptoutil.checkLen, if_neg (not_not.mpr h), if_pos h]
    rfl
  · rw [Cryptoutil.checkLen, if_pos h, if_neg h]
    rfl

section

variable (w : WebCrypto)

theorem deriveEpochKey_agree (sessionKey : Bytes) (epoch : UInt32) :
    Agree (deriveEpochKey w sessionKey epoch.toNat)
      (Cryptoutil.DeriveEpochKey w sessionKey epoch) := by
  rw [Agree, deriveEpochKey, Cryptoutil.DeriveEpochKey, toOption_assertLength, toOption_checkLen,
    Cryptoutil.hkdfKey, epochInfo_eq, putUint32_eq]
  rfl

theorem deriveFileKey_agree (epochKey fileID : Bytes) :
    Agree (deriveFileKey w epochKey fileID) (Cryptoutil.DeriveFileKey w epochKey fileID) := by
  rw [Agree, deriveFileKey, Cryptoutil.DeriveFileKey, toOption_assertLength, toOption_assertLength,
    toOption_checkLen, toOption_checkLen, Cryptoutil.hkdfKey, fileInfo_eq]
  rfl

theorem encryptChunk_toOption (fileKey fileID : Bytes) (i : Nat) (last : Bool) (plaintext : Bytes) :
    (encryptChunk w fileKey fileID i last plaintext).toOption =
      if fileID.length = 16 ∧ fileKey.length = 32 then
        some (w.aesGcmEncrypt fileKey (chunkNonce i) (chunkAAD fileID i last) plaintext)
      else none := by
  rw [encryptChunk, toOption_assertLength, toOption_assertLength]
  by_cases hf : fileID.length = 16 <;> by_cases hk : fileKey.length = 32 <;>
    simp [hf, hk, pure, Except.pure, Except.toOption]

theorem decryptChunk_toOption (fileKey fileID : Bytes) (i : Nat) (last : Bool)
    (ciphertext : Bytes) : (decryptChunk w fileKey fileID i last ciphertext).toOption =
      if fileID.length = 16 ∧ fileKey.length = 32 then
        w.aesGcmDecrypt fileKey (chunkNonce i) (chunkAAD fileID i last) ciphertext
      else none := by
  rw [decryptChunk, toOption_assertLength, toOption_assertLength]
  by_cases hf : fileID.length = 16 <;> by_cases hk : fileKey.length = 32 <;> simp only [hf, hk,
    if_true, if_false, and_self, and_true, and_false]
  cases w.aesGcmDecrypt fileKey (chunkNonce i) (chunkAAD fileID i last) ciphertext <;> rfl

/-- The lengths are checked in the other order. -/
theorem encryptChunk_agree (fileKey fileID : Bytes) (i : UInt64) (last : Bool) (plaintext : Bytes) :
    Agree (encryptChunk w fileKey fileID i.toNat last plaintext)
      (Cryptoutil.EncryptChunk w fileKey fileID i last plaintext) := by
  rw [Agree, encryptChunk_toOption, Cryptoutil.EncryptChunk, Cryptoutil.newGCM, toOption_checkLen,
    toOption_checkLen, chunkNonce_eq, chunkAAD_eq]
  change _ = if fileKey.length = 32 then if fileID.length = 16 then _ else none else none
  by_cases hf : fileID.length = 16 <;> by_cases hk : fileKey.length = 32 <;> simp only [hf, hk,
    if_true, if_false, and_self, and_true, and_false]
  rfl

theorem decryptChunk_agree (fileKey fileID : Bytes) (i : UInt64) (last : Bool)
    (ciphertext : Bytes) : Agree (decryptChunk w fileKey fileID i.toNat last ciphertext)
      (Cryptoutil.DecryptChunk w fileKey fileID i last ciphertext) := by
  rw [Agree, decryptChunk_toOption, Cryptoutil.DecryptChunk, Cryptoutil.newGCM, toOption_checkLen,
    toOption_checkLen, chunkNonce_eq, chunkAAD_eq]
  change _ = if fileKey.length = 32 then if fileID.length = 16 then _ else none else none
  by_cases hf : fileID.length = 16 <;> by_cases hk : fileKey.length = 32 <;> simp only [hf, hk,
    if_true, if_false, and_self, and_true, and_false]
  cases w.aesGcmDecrypt fileKey (chunkNonce i.toNat) (chunkAAD fileID i.toNat last) ciphertext <;>
    rfl

end

/-- `sessionId` is a text: its UTF-16 code units in the browser, its UTF-8 bytes
in Go. -/
theorem deriveReconnectToken_agree (hmac : (key message : Bytes) → Bytes) (sessionKey : Bytes)
    (sessionId : List Char) :
    Agree (Crypto.deriveReconnectToken hmac sessionKey (Utf16.encode sessionId))
      (Cryptoutil.DeriveReconnectToken hmac sessionKey (utf8 sessionId)) := by
  rw [Agree, Crypto.deriveReconnectToken, Cryptoutil.DeriveReconnectToken, toOption_assertLength,
    toOption_checkLen, Crypto.textEncode, Utf16.decode_encode, reconnectInfo_eq]
  rfl

/-! ## A chunk opens as what it was sealed as -/

/-- What was sealed opens under the same nonce and associated data only. -/
def WebCrypto.OpensOnlySealed (w : WebCrypto) : Prop :=
  ∀ key iv aad iv' aad' plaintext opened,
    w.aesGcmDecrypt key iv' aad' (w.aesGcmEncrypt key iv aad plaintext) = some opened →
      iv' = iv ∧ aad' = aad

theorem decryptChunk_sealed {w : WebCrypto} (hopens : w.OpensOnlySealed)
    {fileKey fileID fileID' plaintext ciphertext : Bytes} {i j : UInt64} {last last' : Bool}
    (hsealed : encryptChunk w fileKey fileID i.toNat last plaintext = .ok ciphertext) :
    (decryptChunk w fileKey fileID' j.toNat last' ciphertext).toOption =
      if fileID' = fileID ∧ j = i ∧ last' = last then some plaintext else none := by
  have henc := encryptChunk_toOption w fileKey fileID i.toNat last plaintext
  rw [hsealed] at henc
  by_cases hlen : fileID.length = 16 ∧ fileKey.length = 32
  · rw [if_pos hlen] at henc
    obtain rfl := Option.some.inj henc
    rw [decryptChunk_toOption]
    by_cases hsame : fileID' = fileID ∧ j = i ∧ last' = last
    · obtain ⟨rfl, rfl, rfl⟩ := hsame
      rw [if_pos hlen, if_pos ⟨rfl, rfl, rfl⟩]
      exact w.decrypt_encrypt ..
    · rw [if_neg hsame]
      by_cases hlen' : fileID'.length = 16 ∧ fileKey.length = 32
      · rw [if_pos hlen', Option.eq_none_iff_forall_ne_some]
        intro opened hopened
        obtain ⟨hnonce, haad⟩ := hopens _ _ _ _ _ _ _ hopened
        have haad' : chunkAAD (⟨fileID', hlen'.1⟩ : FileId).bytes j.toNat last' =
            chunkAAD (⟨fileID, hlen.1⟩ : FileId).bytes i.toNat last := haad
        obtain ⟨hid, hidx, hlast⟩ := chunkAAD_inj j.toNat_lt i.toNat_lt haad'
        exact hsame ⟨congrArg FileId.bytes hid, UInt64.toNat_inj.mp hidx, hlast⟩
      · rw [if_neg hlen']
  · rw [if_neg hlen] at henc
    cases henc

/-- **The two implementations agree** on every input, and a chunk decrypts under
the id, the index and the flag it was encrypted with and no others. -/
theorem implementations_agree (w : WebCrypto) (hmac : (key message : Bytes) → Bytes)
    (hopens : w.OpensOnlySealed) :
    (∀ sessionKey epoch, Agree (deriveEpochKey w sessionKey (UInt32.toNat epoch))
      (Cryptoutil.DeriveEpochKey w sessionKey epoch)) ∧
    (∀ epochKey fileID, Agree (deriveFileKey w epochKey fileID)
      (Cryptoutil.DeriveFileKey w epochKey fileID)) ∧
    (∀ fileKey fileID i last plaintext,
      Agree (encryptChunk w fileKey fileID (UInt64.toNat i) last plaintext)
        (Cryptoutil.EncryptChunk w fileKey fileID i last plaintext)) ∧
    (∀ fileKey fileID i last ciphertext,
      Agree (decryptChunk w fileKey fileID (UInt64.toNat i) last ciphertext)
        (Cryptoutil.DecryptChunk w fileKey fileID i last ciphertext)) ∧
    (∀ sessionKey sessionId,
      Agree (Crypto.deriveReconnectToken hmac sessionKey (Utf16.encode sessionId))
        (Cryptoutil.DeriveReconnectToken hmac sessionKey (utf8 sessionId))) ∧
    ∀ fileKey fileID fileID' i j last last' plaintext ciphertext,
      encryptChunk w fileKey fileID (UInt64.toNat i) last plaintext = .ok ciphertext →
        (decryptChunk w fileKey fileID' (UInt64.toNat j) last' ciphertext).toOption =
          if fileID' = fileID ∧ j = i ∧ last' = last then some plaintext else none :=
  ⟨deriveEpochKey_agree w, deriveFileKey_agree w, encryptChunk_agree w, decryptChunk_agree w,
    deriveReconnectToken_agree hmac, fun _ _ _ _ _ _ _ _ _ => decryptChunk_sealed hopens⟩

/-! ## A cipher that opens only what it sealed -/

/-- A byte string with its end marked, so that two of them can be joined and still
be told apart. -/
def delimited (bs : Bytes) : Bytes := bs.flatMap (fun b => [1, b]) ++ [0]

theorem delimited_inj {a b x y : Bytes} (h : delimited a ++ x = delimited b ++ y) :
    a = b ∧ x = y := by
  induction a generalizing b with
  | nil =>
      cases b with
      | nil => exact ⟨rfl, (List.cons.inj h).2⟩
      | cons c b => exact absurd (List.cons.inj h).1 (by decide)
  | cons c a ih =>
      cases b with
      | nil => exact absurd (List.cons.inj h).1 (by decide)
      | cons d b =>
          obtain ⟨hcd, hrest⟩ := List.cons.inj (List.cons.inj h).2
          obtain ⟨hab, hxy⟩ := ih hrest
          exact ⟨by rw [hcd, hab], hxy⟩

/-- What is sealed is marked with key, nonce and associated data. -/
def mark (key iv aad : Bytes) : Bytes := delimited key ++ (delimited iv ++ delimited aad)

/-- A cipher that hides nothing: it marks the plaintext with key, nonce and
associated data, and checks the mark on the way back. Another one than
`labelCrypto`, as it tells lengths apart. -/
def markingCrypto : WebCrypto where
  hkdf _ salt _ := (List.replicate 32 0 ++ salt).take 32
  hkdf_length _ _ _ := by simp
  aesGcmEncrypt key iv aad plaintext := mark key iv aad ++ plaintext
  aesGcmDecrypt key iv aad ciphertext :=
    if ciphertext.take (mark key iv aad).length = mark key iv aad then
      some (ciphertext.drop (mark key iv aad).length)
    else none
  decrypt_encrypt key iv aad plaintext := by
    simp only [List.take_left, List.drop_left, if_true]

theorem markingCrypto_opensOnlySealed : markingCrypto.OpensOnlySealed := by
  intro key iv aad iv' aad' plaintext opened hopened
  change (if (mark key iv aad ++ plaintext).take _ = mark key iv' aad' then _ else none) = _
    at hopened
  split at hopened
  next hprefix =>
    obtain ⟨rest, hrest⟩ : mark key iv' aad' <+: mark key iv aad ++ plaintext :=
      hprefix ▸ List.take_prefix ..
    simp only [mark, List.append_assoc] at hrest
    obtain ⟨-, hrest⟩ := delimited_inj hrest
    obtain ⟨hiv, hrest⟩ := delimited_inj hrest
    exact ⟨hiv, (delimited_inj hrest).1⟩
  next => cases hopened

theorem implementations_agree_marking :
    Agree (deriveEpochKey markingCrypto (List.replicate 32 7) (UInt32.toNat 3))
      (Cryptoutil.DeriveEpochKey markingCrypto (List.replicate 32 7) 3) ∧
    (decryptChunk markingCrypto (List.replicate 32 7) (List.replicate 16 1) (UInt64.toNat 5) false
      (mark (List.replicate 32 7) (chunkNonce (UInt64.toNat 5))
        (chunkAAD (List.replicate 16 1) (UInt64.toNat 5) true) ++ [9])).toOption = none := by
  obtain ⟨hepoch, -, -, -, -, hopen⟩ :=
    implementations_agree markingCrypto (fun key message => key ++ message)
      markingCrypto_opensOnlySealed
  refine ⟨hepoch _ 3, ?_⟩
  rw [hopen (List.replicate 32 7) (List.replicate 16 1) (List.replicate 16 1) 5 5 true false [9]
    (mark (List.replicate 32 7) (chunkNonce (UInt64.toNat 5))
      (chunkAAD (List.replicate 16 1) (UInt64.toNat 5) true) ++ [9]) rfl]
  exact if_neg (by decide)

end Quicksend
