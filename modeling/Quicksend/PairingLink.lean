import Quicksend.Base64url
import Quicksend.Cryptoutil
import Quicksend.Lib.Urlencoded
import Mathlib.Tactic.FinCases

/-!
# Pairing links (`buildPairingURL`, `parsePairingText`)

The link carries the session id and the session key in its fragment. `URL` and
`URLSearchParams` follow their standards, as far as the two functions use them.
-/

namespace Quicksend

open Crypto (textEncode)

/-! ## `URL` -/

/-- What is before the first `c`, and what is after it, if there is one. -/
def cutAt (c : UInt16) : JSString → JSString × Option JSString
  | [] => ([], none)
  | u :: s => if u = c then ([], some s) else (u :: (cutAt c s).1, (cutAt c s).2)

/-- A URL, as far as its parts are looked at. -/
structure URL where
  /-- The scheme, the credentials, the host, the port and the path, serialised. -/
  base : JSString
  query : Option JSString
  fragment : Option JSString

namespace URL

/-- `new URL(location.href)`: what is parsed is a serialised URL, so its parts stay as
they are. -/
def parse (href : JSString) : URL :=
  let (rest, fragment) := cutAt 35 href
  let (base, query) := cutAt 63 rest
  { base := base, query := query, fragment := fragment }

/-- The URL as one string again: the part before the query, then the query and the
fragment behind their marks. -/
def toString (url : URL) : JSString :=
  url.base ++ ((url.query.map (63 :: ·)).getD [] ++ (url.fragment.map (35 :: ·)).getD [])

/-- The fragment percent-encode set, of UTF-8 bytes: no byte above ASCII stays. -/
def inFragmentSet (b : UInt8) : Bool :=
  b < 0x20 || 0x7E < b || b ∈ ([0x20, 0x22, 0x3C, 0x3E, 0x60] : List UInt8)

/-- The hexadecimal digit of a nibble in upper case, as percent-encoding writes
it. -/
def upperHexDigit (d : Nat) : UInt16 :=
  if d < 10 then UInt16.ofNat (48 + d) else UInt16.ofNat (55 + d)

/-- A byte as a percent sign and the two upper-case hexadecimal digits of its
value. -/
def percentEncode (b : UInt8) : JSString :=
  [37, upperHexDigit (b.toNat / 16), upperHexDigit (b.toNat % 16)]

/-- The characters that the URL parser removes wherever they stand: tab, line feed
and carriage return. -/
def isTabOrNewline (c : UInt16) : Bool := c = 9 || c = 10 || c = 13

/-- The fragment state of the URL parser: tabs and line ends go, and what may not
stand there is percent-encoded. -/
def parseFragment (input : JSString) : JSString :=
  (textEncode (input.filter fun c => !isTabOrNewline c)).flatMap fun b =>
    if inFragmentSet b then percentEncode b else [UInt16.ofNat b.toNat]

/-- The setter of `hash`: the empty string takes the fragment off, and a leading
hash mark is not part of it. -/
def setHash (url : URL) (value : JSString) : URL :=
  match value with
  | [] => { url with fragment := none }
  | c :: rest =>
      { url with fragment := some (parseFragment (if c = 35 then rest else c :: rest)) }

/-- `url.search = ""`: the query is taken off, its question mark included. -/
def clearSearch (url : URL) : URL := { url with query := none }

end URL

/-! ## `URLSearchParams` -/

/-- `new URLSearchParams(init)`: a leading question mark is dropped, and the rest
is read as urlencoded pairs. -/
def URLSearchParams (init : JSString) : List (JSString × JSString) :=
  let init :=
    match init with
    | 63 :: rest => rest
    | _ => init
  (Urlencoded.parse (textEncode init)).map fun p => (Utf16.encode p.1, Utf16.encode p.2)

/-- `params.get(name)`: the value of the first pair of that name; `none` is the
null of the source. -/
def paramsGet (params : List (JSString × JSString)) (name : JSString) : Option JSString :=
  (params.find? fun p => p.1 = name).map Prod.snd

/-! ## The links -/

/-- The length that the session key of a pairing link must have once it is
decoded. -/
def SESSION_KEY_BYTES : Nat := 32

/-- `newSessionID`, as a function of the random bytes that it draws: their base64
for URLs. -/
def newSessionID (buf : Bytes) : JSString := RawURLEncoding buf

/-- `s=${sessionId}&k=${key}`: the fragment of a pairing link, put together
without any escaping. -/
def pairingHash (sessionId key : JSString) : JSString :=
  [115, 61] ++ (sessionId ++ ([38, 107, 61] ++ key))

/-- `buildPairingURL`: the page's own address with the session id and key in its
fragment and its query taken off. -/
def buildPairingURL (href sessionId : JSString) (sessionKey : Bytes) : Option JSString :=
  (Base64url.encode sessionKey).map fun key =>
    (((URL.parse href).setHash (pairingHash sessionId key)).clearSearch).toString

/-- `String.prototype.trim`: white space and line ends are removed from both ends
and nowhere else. -/
def trim (s : JSString) : JSString := (s.dropWhile isStrWhiteSpace).rdropWhile isStrWhiteSpace

/-- `parsePairingText` from the parameters on: both must be there, and the key
must decode to 32 bytes. -/
def parsePairingParams (params : List (JSString × JSString)) : Option (JSString × Bytes) :=
  match paramsGet params [115], paramsGet params [107] with
  | some sessionId, some keyStr =>
      if sessionId = [] ∨ keyStr = [] then none
      else
        match Base64url.decode keyStr with
        | some sessionKey =>
            if sessionKey.length ≠ SESSION_KEY_BYTES then none else some (sessionId, sessionKey)
        | none => none
  | _, _ => none

/-- `parsePairingText`: what follows the first hash mark, or the whole text where
there is none, is read as the parameters. -/
def parsePairingText (text : JSString) : Option (JSString × Bytes) :=
  let hash := trim text
  parsePairingParams (URLSearchParams ((cutAt 35 hash).2.getD hash))

/-! ## ASCII text -/

theorem utf8_ascii : ∀ n < 128, String.utf8EncodeChar (Char.ofNat n) = [UInt8.ofNat n] := by decide

theorem utf16_ascii : ∀ n < 128, Utf16.encodeChar (Char.ofNat n) = [UInt16.ofNat n] := by decide

theorem decodeUnit_ascii {c : UInt16} (hc : c < 128) :
    Utf16.isHigh c = false ∧ Utf16.decodeUnit c = Char.ofNat c.toNat := by
  have hlt : c.toNat < 128 := hc
  have hhigh : Utf16.isHigh c = false := by
    simp only [Utf16.isHigh, Bool.and_eq_false_iff, decide_eq_false_iff_not]
    omega
  have hlow : Utf16.isLow c = false := by
    simp only [Utf16.isLow, Bool.and_eq_false_iff, decide_eq_false_iff_not]
    omega
  refine ⟨hhigh, ?_⟩
  rw [Utf16.decodeUnit, hhigh, hlow, Bool.or_self, if_neg Bool.false_ne_true]

theorem textEncode_ascii {s : JSString} (h : ∀ c ∈ s, c < 128) :
    textEncode s = s.map fun c => UInt8.ofNat c.toNat := by
  induction s with
  | nil => rfl
  | cons c s ih =>
      have hc : c.toNat < 128 := h c (by simp)
      obtain ⟨hhigh, hunit⟩ := decodeUnit_ascii (h c (by simp))
      rw [textEncode, Utf16.decode_unit hhigh, hunit, utf8, List.flatMap_cons, utf8_ascii _ hc]
      exact congrArg (UInt8.ofNat c.toNat :: ·) (ih fun c hc => h c (by simp [hc]))

/-- ASCII text as bytes, read as characters and written as code units again. -/
theorem encode_text {s : JSString} (h : ∀ c ∈ s, c < 128) :
    Utf16.encode (Urlencoded.text (s.map fun c => UInt8.ofNat c.toNat)) = s := by
  induction s with
  | nil => rfl
  | cons c s ih =>
      have hc : c.toNat < 128 := h c (by simp)
      have hbyte : (UInt8.ofNat c.toNat).toNat = c.toNat :=
        UInt8.toNat_ofNat_of_lt' (lt_trans hc (by decide))
      rw [List.map_cons, Urlencoded.text, List.map_cons, Utf16.encode, List.flatMap_cons, hbyte,
        utf16_ascii _ hc, UInt16.ofNat_toNat]
      exact congrArg (c :: ·) (ih fun c hc => h c (by simp [hc]))

/-! ## What a link is made of -/

/-- A code unit that is neither changed in a fragment nor looked for in one. -/
def Kept (c : UInt16) : Prop :=
  c < 128 ∧ c ≠ 35 ∧ isStrWhiteSpace c = false ∧ URL.isTabOrNewline c = false ∧
    URL.inFragmentSet (UInt8.ofNat c.toNat) = false

instance (c : UInt16) : Decidable (Kept c) := inferInstanceAs (Decidable (_ ∧ _))

theorem kept_url : ∀ n < 64, Kept (Base64.url n) := by decide

theorem plain_url : ∀ n < 64, Urlencoded.Plain (UInt8.ofNat (Base64.url n).toNat) := by decide

theorem url_ascii : ∀ n < 64, Base64.url n < 128 := by decide

theorem forall_rawURLEncoding {p : UInt16 → Prop} (h : ∀ n < 64, p (Base64.url n)) (src : Bytes) :
    ∀ c ∈ RawURLEncoding src, p c := by
  intro c hc
  obtain ⟨n, hn, rfl⟩ := List.mem_map.mp hc
  exact h n (Base64.sextets_lt src n hn)

theorem kept_pairingHash (id key : Bytes) :
    ∀ c ∈ pairingHash (RawURLEncoding id) (RawURLEncoding key), Kept c := by
  intro c hc
  rw [pairingHash, List.mem_append, List.mem_append, List.mem_append] at hc
  have fixed : ∀ c ∈ ([115, 61] : JSString) ++ [38, 107, 61], Kept c := by
    intro c hc
    fin_cases hc <;> decide
  rcases hc with hc | hc | hc | hc
  · exact fixed c (List.mem_append_left _ hc)
  · exact forall_rawURLEncoding kept_url id c hc
  · exact fixed c (List.mem_append_right _ hc)
  · exact forall_rawURLEncoding kept_url key c hc

theorem parseFragment_kept {s : JSString} (h : ∀ c ∈ s, Kept c) : URL.parseFragment s = s := by
  have hfilter : s.filter (fun c => !URL.isTabOrNewline c) = s :=
    List.filter_eq_self.mpr fun c hc => by rw [(h c hc).2.2.2.1, Bool.not_false]
  rw [URL.parseFragment, hfilter, textEncode_ascii fun c hc => (h c hc).1, List.flatMap_map]
  have hunit : ∀ c ∈ s, (if URL.inFragmentSet (UInt8.ofNat c.toNat) then
      URL.percentEncode (UInt8.ofNat c.toNat) else [UInt16.ofNat (UInt8.ofNat c.toNat).toNat]) =
        [c] := by
    intro c hc
    obtain ⟨hlt, -, -, -, hset⟩ := h c hc
    rw [hset, if_neg Bool.false_ne_true,
      UInt8.toNat_ofNat_of_lt' (lt_trans (show c.toNat < 128 from hlt) (by decide)),
      UInt16.ofNat_toNat]
  rw [List.flatMap_congr hunit, List.flatMap_singleton']

/-! ## Cutting and trimming -/

theorem cutAt_append {c : UInt16} {s rest : JSString} (h : c ∉ s) :
    cutAt c (s ++ c :: rest) = (s, some rest) := by
  induction s with
  | nil => simp [cutAt]
  | cons u s ih =>
      have hu : u ≠ c := fun heq => h (heq ▸ List.mem_cons_self)
      rw [List.cons_append, cutAt, if_neg hu, ih fun hmem => h (List.mem_cons_of_mem _ hmem)]

theorem cutAt_of_not_mem {c : UInt16} {s : JSString} (h : c ∉ s) : (cutAt c s).2 = none := by
  induction s with
  | nil => rfl
  | cons u s ih =>
      have hu : u ≠ c := fun heq => h (heq ▸ List.mem_cons_self)
      rw [cutAt, if_neg hu]
      exact ih fun hmem => h (List.mem_cons_of_mem _ hmem)

theorem not_mem_cutAt (c : UInt16) (s : JSString) : c ∉ (cutAt c s).1 := by
  induction s with
  | nil => simp [cutAt]
  | cons u s ih =>
      rw [cutAt]
      split
      next => simp
      next hu => simp [Ne.symm hu, ih]

theorem dropWhile_append_cons {p : UInt16 → Bool} {c : UInt16} (hc : p c = false)
    (s tail : JSString) : (s ++ c :: tail).dropWhile p = s.dropWhile p ++ c :: tail := by
  induction s with
  | nil => simp [hc]
  | cons u s ih =>
      cases hu : p u with
      | true => simpa [hu] using ih
      | false => simp [hu]

theorem rdropWhile_append {p : UInt16 → Bool} {s ws : JSString} (hws : ∀ u ∈ ws, p u = true)
    (hs : ∀ hne : s ≠ [], p (s.getLast hne) = false) : (s ++ ws).rdropWhile p = s := by
  induction ws using List.reverseRecOn with
  | nil =>
      rw [List.append_nil, List.rdropWhile_eq_self_iff]
      exact fun hne => by simp [hs hne]
  | append_singleton ws u ih =>
      rw [← List.append_assoc, List.rdropWhile_concat_pos _ _ _ (hws u (by simp))]
      exact ih fun u hu => hws u (by simp [hu])

/-- White space around a text is dropped; what the text begins with may be white
space too. -/
theorem trim_append {ws ws' s tail : JSString} {c : UInt16}
    (hws : ∀ u ∈ ws', isStrWhiteSpace u = true) (hc : isStrWhiteSpace c = false)
    (htail : ∀ u ∈ tail, isStrWhiteSpace u = false) :
    trim (ws ++ (s ++ c :: tail) ++ ws') = (ws ++ s).dropWhile isStrWhiteSpace ++ c :: tail := by
  have hshape : ws ++ (s ++ c :: tail) ++ ws' = (ws ++ s) ++ c :: (tail ++ ws') := by simp
  rw [trim, hshape, dropWhile_append_cons hc, ← List.cons_append, ← List.append_assoc]
  refine rdropWhile_append hws fun hne => ?_
  rw [List.getLast_append_of_ne_nil hne (by simp)]
  rcases List.mem_cons.mp (List.getLast_mem (l := c :: tail) (by simp)) with heq | hmem
  · rw [heq]
    exact hc
  · exact htail _ hmem

/-! ## The round trip -/

theorem plain_rawURLEncoding (src : Bytes) :
    ∀ b ∈ (RawURLEncoding src).map (fun c => UInt8.ofNat c.toNat), Urlencoded.Plain b := by
  intro b hb
  obtain ⟨c, hc, rfl⟩ := List.mem_map.mp hb
  exact forall_rawURLEncoding (p := fun c => Urlencoded.Plain (UInt8.ofNat c.toNat)) plain_url src c hc

theorem ascii_rawURLEncoding (src : Bytes) : ∀ c ∈ RawURLEncoding src, c < 128 :=
  forall_rawURLEncoding url_ascii src

/-- What was encoded comes out of the parameters as it went in. -/
theorem params_pairingHash (id key : Bytes) :
    URLSearchParams (pairingHash (RawURLEncoding id) (RawURLEncoding key)) =
      [([115], RawURLEncoding id), ([107], RawURLEncoding key)] := by
  have hbytes : textEncode (pairingHash (RawURLEncoding id) (RawURLEncoding key)) =
      ([115] ++ 61 :: (RawURLEncoding id).map fun c => UInt8.ofNat c.toNat) ++
        38 :: ([107] ++ 61 :: (RawURLEncoding key).map fun c => UInt8.ofNat c.toNat) := by
    rw [textEncode_ascii fun c hc => (kept_pairingHash id key c hc).1, pairingHash]
    simp
  have hs : ∀ b ∈ ([115] : Bytes), Urlencoded.Plain b := List.forall_mem_singleton.mpr (by decide)
  have hk : ∀ b ∈ ([107] : Bytes), Urlencoded.Plain b := List.forall_mem_singleton.mpr (by decide)
  have htext (src : Bytes) := encode_text (ascii_rawURLEncoding src)
  change (Urlencoded.parse (textEncode (pairingHash _ _))).map _ = _
  rw [hbytes, Urlencoded.parse_cons hs (plain_rawURLEncoding id),
    Urlencoded.parse_pair hk (plain_rawURLEncoding key), List.map_cons, List.map_cons,
    List.map_nil, htext, htext]
  rfl

theorem rawURLEncoding_ne_nil {src : Bytes} (h : src ≠ []) : RawURLEncoding src ≠ [] := by
  intro hnil
  have hlen := congrArg List.length hnil
  have hpos : 0 < src.length := List.length_pos_of_ne_nil h
  rw [RawURLEncoding, List.length_map, Base64.sextets_length, List.length_nil] at hlen
  omega

theorem parsePairingParams_pairingHash {id key : Bytes} (hid : id ≠ [])
    (hkey : key.length = SESSION_KEY_BYTES) :
    parsePairingParams (URLSearchParams (pairingHash (RawURLEncoding id) (RawURLEncoding key))) =
      some (RawURLEncoding id, key) := by
  have hne : key ≠ [] := List.ne_nil_of_length_pos (by rw [hkey]; decide)
  have hs : paramsGet [([115], RawURLEncoding id), ([107], RawURLEncoding key)] [115] =
      some (RawURLEncoding id) := by simp [paramsGet]
  have hk : paramsGet [([115], RawURLEncoding id), ([107], RawURLEncoding key)] [107] =
      some (RawURLEncoding key) := by simp [paramsGet]
  rw [params_pairingHash, parsePairingParams, hs, hk]
  simp only [rawURLEncoding_ne_nil hid, rawURLEncoding_ne_nil hne, or_self, if_false,
    decode_rawURLEncoding, hkey, ne_eq, not_true_eq_false]

/-- The fragment is found behind the first `#`, or is the whole text. -/
theorem parsePairingText_of_hash {ws ws' before fragment : JSString}
    (hws : ∀ u ∈ ws, isStrWhiteSpace u = true) (hws' : ∀ u ∈ ws', isStrWhiteSpace u = true)
    (hbefore : 35 ∉ before) (hkept : ∀ c ∈ fragment, Kept c) :
    parsePairingText (ws ++ (before ++ 35 :: fragment) ++ ws') =
      parsePairingParams (URLSearchParams fragment) := by
  have hmem : 35 ∉ (ws ++ before).dropWhile isStrWhiteSpace := by
    intro hmem
    rcases List.mem_append.mp ((List.dropWhile_sublist _).mem hmem) with hmem | hmem
    · exact absurd (hws 35 hmem) (by decide)
    · exact hbefore hmem
  change parsePairingParams (URLSearchParams ((cutAt 35 (trim _)).2.getD (trim _))) = _
  rw [trim_append hws' (by decide) fun u hu => (hkept u hu).2.2.1, cutAt_append hmem]
  rfl

theorem parsePairingText_of_fragment {ws ws' fragment : JSString} {c : UInt16}
    (hws : ∀ u ∈ ws, isStrWhiteSpace u = true) (hws' : ∀ u ∈ ws', isStrWhiteSpace u = true)
    (hkept : ∀ u ∈ c :: fragment, Kept u) :
    parsePairingText (ws ++ (c :: fragment) ++ ws') =
      parsePairingParams (URLSearchParams (c :: fragment)) := by
  have htrim : trim (ws ++ (c :: fragment) ++ ws') = c :: fragment := by
    have hkeep : trim (ws ++ ([] ++ c :: fragment) ++ ws') =
        (ws ++ []).dropWhile isStrWhiteSpace ++ c :: fragment :=
      trim_append hws' (hkept c (by simp)).2.2.1
        fun u hu => (hkept u (List.mem_cons_of_mem c hu)).2.2.1
    have hdrop : (ws ++ []).dropWhile isStrWhiteSpace = [] := by
      rw [List.append_nil]
      exact List.dropWhile_eq_nil_iff.mpr hws
    rwa [hdrop, List.nil_append] at hkeep
  have hmem : 35 ∉ c :: fragment := fun hmem => (hkept 35 hmem).2.1 rfl
  change parsePairingParams (URLSearchParams ((cutAt 35 (trim _)).2.getD (trim _))) = _
  rw [htrim, cutAt_of_not_mem hmem]
  rfl

/-- The link of a page: what is before its fragment has no `#`. -/
theorem buildPairingURL_eq (href : JSString) (id key : Bytes) :
    ∃ before, 35 ∉ before ∧ buildPairingURL href (RawURLEncoding id) key =
      some (before ++ 35 :: pairingHash (RawURLEncoding id) (RawURLEncoding key)) := by
  have hsub (c : UInt16) (s : JSString) : (cutAt c s).1 ⊆ s := by
    induction s with
    | nil => simp [cutAt]
    | cons u s ih =>
        rw [cutAt]
        split
        next => simp
        next => exact List.cons_subset_cons u ih
  refine ⟨(cutAt 63 (cutAt 35 href).1).1, fun hmem => not_mem_cutAt 35 href (hsub _ _ hmem), ?_⟩
  have hfragment := parseFragment_kept (kept_pairingHash id key)
  rw [buildPairingURL, encode_eq, Option.map_some]
  refine congrArg some ?_
  change _ ++ ([] ++ 35 :: URL.parseFragment (pairingHash _ _)) = _
  rw [hfragment]
  rfl

/-- What is accepted has a session id and a key. -/
theorem parsePairingText_accepts {text sessionId : JSString} {sessionKey : Bytes}
    (h : parsePairingText text = some (sessionId, sessionKey)) :
    sessionId ≠ [] ∧ sessionKey.length = SESSION_KEY_BYTES := by
  change parsePairingParams _ = _ at h
  unfold parsePairingParams at h
  split at h
  next =>
    split at h
    next => cases h
    next hne =>
      split at h
      next =>
        split at h
        next => cases h
        next hlen =>
          obtain ⟨rfl, rfl⟩ := Prod.mk.inj (Option.some.inj h)
          exact ⟨fun hnil => hne (.inl hnil), not_not.mp hlen⟩
      next => cases h
  next => cases h

/-- What `encode` writes goes through the parameters as it is. -/
theorem paramsGet_encode (bytes : Bytes) :
    paramsGet (URLSearchParams ([107, 61] ++ RawURLEncoding bytes)) [107] =
      some (RawURLEncoding bytes) := by
  have hascii : ∀ c ∈ ([107, 61] : JSString) ++ RawURLEncoding bytes, c < 128 := by
    intro c hc
    rcases List.mem_append.mp hc with hc | hc
    · fin_cases hc <;> decide
    · exact ascii_rawURLEncoding bytes c hc
  have hk : ∀ b ∈ ([107] : Bytes), Urlencoded.Plain b := List.forall_mem_singleton.mpr (by decide)
  have hbytes : textEncode ([107, 61] ++ RawURLEncoding bytes) =
      [107] ++ 61 :: (RawURLEncoding bytes).map fun c => UInt8.ofNat c.toNat := by
    rw [textEncode_ascii hascii]
    rfl
  have hparams : URLSearchParams ([107, 61] ++ RawURLEncoding bytes) =
      [([107], RawURLEncoding bytes)] := by
    change (Urlencoded.parse (textEncode ([107, 61] ++ _))).map _ = _
    rw [hbytes, Urlencoded.parse_pair hk (plain_rawURLEncoding bytes), List.map_cons,
      List.map_nil, encode_text (ascii_rawURLEncoding bytes)]
    rfl
  rw [hparams]
  simp [paramsGet]

/-- **Pairing links round-trip**, on every page; so does every byte string through
`encode` and `decode`; and what is accepted is well formed. -/
theorem pairingLink_roundTrip (href : JSString) (buf sessionKey : Bytes) (hbuf : buf.length = 16)
    (hkey : sessionKey.length = SESSION_KEY_BYTES) :
    (∃ url fragment, buildPairingURL href (newSessionID buf) sessionKey = some url ∧
      (cutAt 35 url).2 = some fragment ∧
      ∀ text ∈ [url, 35 :: fragment, fragment], ∀ ws ws' : JSString,
        (∀ u ∈ ws, isStrWhiteSpace u = true) → (∀ u ∈ ws', isStrWhiteSpace u = true) →
        parsePairingText (ws ++ text ++ ws') = some (newSessionID buf, sessionKey)) ∧
    (∀ bytes, ∃ s, Base64url.encode bytes = some s ∧ Base64url.decode s = some bytes ∧
      (∀ c ∈ s, Base64.isUrl c = true) ∧
      paramsGet (URLSearchParams ([107, 61] ++ s)) [107] = some s) ∧
    ∀ text sessionId key, parsePairingText text = some (sessionId, key) →
      sessionId ≠ [] ∧ key.length = SESSION_KEY_BYTES := by
  refine ⟨?_, fun bytes => ?_, fun text sessionId key => parsePairingText_accepts⟩
  · obtain ⟨before, hbefore, hurl⟩ := buildPairingURL_eq href buf sessionKey
    have hne : buf ≠ [] := List.ne_nil_of_length_pos (by rw [hbuf]; decide)
    have hparams := parsePairingParams_pairingHash hne hkey
    have hkept := kept_pairingHash buf sessionKey
    refine ⟨_, _, hurl, by rw [cutAt_append hbefore], fun text htext ws ws' hws hws' => ?_⟩
    simp only [List.mem_cons, List.not_mem_nil, or_false] at htext
    rcases htext with rfl | rfl | rfl
    · rw [parsePairingText_of_hash hws hws' hbefore hkept]
      exact hparams
    · rw [← List.nil_append (35 :: _), parsePairingText_of_hash hws hws' (by simp) hkept]
      exact hparams
    · exact (parsePairingText_of_fragment hws hws' hkept).trans hparams
  · exact ⟨RawURLEncoding bytes, encode_eq bytes, decode_rawURLEncoding bytes,
      forall_rawURLEncoding Base64.isUrl_url bytes, paramsGet_encode bytes⟩

/-- On a page with a query and a fragment of its own; the link is pasted with a line
break behind it. -/
theorem pairingLink_roundTrip_tiny : ∃ url,
    buildPairingURL [104, 58, 47, 47, 113, 47, 63, 97, 35, 98]
        (newSessionID (List.replicate 16 255)) (List.replicate 32 251) = some url ∧
      url.take 8 = [104, 58, 47, 47, 113, 47, 35, 115] ∧
      parsePairingText ([32] ++ url ++ [10]) =
        some (newSessionID (List.replicate 16 255), List.replicate 32 251) := by
  obtain ⟨⟨url, fragment, hurl, -, hparse⟩, -⟩ :=
    pairingLink_roundTrip [104, 58, 47, 47, 113, 47, 63, 97, 35, 98] (List.replicate 16 255)
      (List.replicate 32 251) rfl rfl
  refine ⟨url, hurl, ?_, hparse url (by simp) [32] [10] ?_ ?_⟩
  case refine_2 | refine_3 => exact List.forall_mem_singleton.mpr (by decide)
  have htake : (buildPairingURL [104, 58, 47, 47, 113, 47, 63, 97, 35, 98]
      (newSessionID (List.replicate 16 255)) (List.replicate 32 251)).map (List.take 8) =
        some [104, 58, 47, 47, 113, 47, 35, 115] := by decide +kernel
  rw [hurl] at htake
  exact Option.some.inj htake

end Quicksend
