import Mathlib.Data.List.DropRight
import Quicksend.Bytes
import Quicksend.Lib.Base64

/-!
# `base64url.js`

`encode` and `decode` go through `btoa` and `atob`, which follow their standard
here, and what they write is what the relay's `base64.RawURLEncoding` does.
-/

namespace Quicksend

/-! ## `btoa` and `atob` -/

/-- `btoa`, of a string whose code units are bytes; it throws on any other. -/
def btoa (binary : JSString) : Option JSString :=
  if binary.all fun c => c < 256 then
    let sextets := Base64.sextets (binary.map fun c => UInt8.ofNat c.toNat)
    some (sextets.map Base64.plain ++ List.replicate ((4 - sextets.length % 4) % 4) 61)
  else none

/-- The characters that `atob` passes over wherever they stand in its input. -/
def isAsciiWhiteSpace (c : UInt16) : Bool := c ∈ ([9, 10, 12, 13, 32] : List UInt16)

/-- One or two `=` at the end of a string whose length is a multiple of four. -/
def stripPadding (data : JSString) : JSString :=
  if data.length % 4 = 0 then
    if data.getLast? = some 61 then
      if data.dropLast.getLast? = some 61 then data.dropLast.dropLast else data.dropLast
    else data
  else data

/-- `atob`: white space is dropped, up to two padding signs are taken off, and the
rest is read as base64; it throws where this is `none`. -/
def atob (data : JSString) : Option JSString :=
  let data := stripPadding (data.filter fun c => !isAsciiWhiteSpace c)
  if data.length % 4 = 1 then none
  else (data.mapM Base64.plain?).map fun sextets =>
    (Base64.octets sextets).map fun b => UInt16.ofNat b.toNat

namespace Base64url

/-- The source's `replace` with a global pattern of one character: every `c`
becomes a `d`. -/
def replace (c d : UInt16) (s : JSString) : JSString := s.map fun u => if u = c then d else u

/-- `encode`: base64 with minus and underscore for plus and slash, and without the
padding at its end. -/
def encode (bytes : Bytes) : Option JSString :=
  (btoa (bytes.map fun b => UInt16.ofNat b.toNat)).map fun s =>
    (replace 47 95 (replace 43 45 s)).rdropWhile (· = 61)

/-- `decode`: put the usual characters and the padding back, and read the result
as base64; it throws what `atob` throws. -/
def decode (str : JSString) : Option Bytes :=
  let normalized := replace 95 47 (replace 45 43 str)
  let padded := normalized ++ List.replicate ((4 - normalized.length % 4) % 4) 61
  (atob padded).map fun binary => binary.map fun c => UInt8.ofNat c.toNat

end Base64url

/-- Go's `base64.RawURLEncoding.EncodeToString`: the alphabet with minus and
underscore, and no padding. -/
def RawURLEncoding (src : Bytes) : JSString := (Base64.sextets src).map Base64.url

/-! ## What `encode` writes -/

theorem binary_bytes (bytes : Bytes) :
    (bytes.map fun b => UInt16.ofNat b.toNat).map (fun c => UInt8.ofNat c.toNat) = bytes := by
  rw [List.map_map]
  refine (List.map_congr_left fun b _ => ?_).trans (List.map_id _)
  have hb : (UInt16.ofNat b.toNat).toNat = b.toNat :=
    UInt16.toNat_ofNat_of_lt' (lt_trans b.toNat_lt (by decide))
  rw [Function.comp_apply, hb, UInt8.ofNat_toNat, id_eq]

/-- The alphabet of `btoa`, with its last two characters replaced. -/
theorem replace_plain : ∀ n < 64,
    (if (if Base64.plain n = 43 then 45 else Base64.plain n) = 47 then 95
      else if Base64.plain n = 43 then 45 else Base64.plain n) = Base64.url n := by decide

theorem replace_url : ∀ n < 64,
    (if (if Base64.url n = 45 then 43 else Base64.url n) = 95 then 47
      else if Base64.url n = 45 then 43 else Base64.url n) = Base64.plain n := by decide

theorem url_ne_padding : ∀ n < 64, Base64.url n ≠ 61 := by decide

theorem plain_not_space : ∀ n < 64, isAsciiWhiteSpace (Base64.plain n) = false := by decide

theorem plain_ne_padding : ∀ n < 64, Base64.plain n ≠ 61 := by decide

/-- Only the padding is dropped. -/
theorem rdropWhile_padding {s : JSString} (hs : ∀ c ∈ s, c ≠ 61) (k : Nat) :
    (s ++ List.replicate k 61).rdropWhile (· = 61) = s := by
  induction k with
  | zero =>
      rw [List.replicate_zero, List.append_nil, List.rdropWhile_eq_self_iff]
      intro hne
      simpa using hs _ (List.getLast_mem hne)
  | succ k ih =>
      rw [List.replicate_succ', ← List.append_assoc, List.rdropWhile_concat_pos _ _ _ (by simp)]
      exact ih

/-- `encode` never throws, and agrees with the relay. -/
theorem encode_eq (bytes : Bytes) : Base64url.encode bytes = some (RawURLEncoding bytes) := by
  have hbyte : (bytes.map fun b => UInt16.ofNat b.toNat).all (fun c => c < 256) = true := by
    refine List.all_eq_true.mpr fun c hc => ?_
    obtain ⟨b, -, rfl⟩ := List.mem_map.mp hc
    rw [decide_eq_true_eq, UInt16.lt_iff_toNat_lt, UInt16.toNat_ofNat_of_lt' (lt_trans b.toNat_lt (by decide))]
    exact b.toNat_lt
  have hlt := Base64.sextets_lt bytes
  have hbody : Base64url.replace 47 95 (Base64url.replace 43 45
      ((Base64.sextets bytes).map Base64.plain)) = RawURLEncoding bytes := by
    rw [Base64url.replace, Base64url.replace, List.map_map, List.map_map, RawURLEncoding]
    exact List.map_congr_left fun n hn => replace_plain n (hlt n hn)
  have hpad (k : Nat) : Base64url.replace 47 95 (Base64url.replace 43 45 (List.replicate k 61)) =
      List.replicate k 61 := by
    rw [Base64url.replace, Base64url.replace, List.map_replicate, List.map_replicate]
    rfl
  have happend (s s' : JSString) : Base64url.replace 47 95 (Base64url.replace 43 45 (s ++ s')) =
      Base64url.replace 47 95 (Base64url.replace 43 45 s) ++
        Base64url.replace 47 95 (Base64url.replace 43 45 s') := by
    rw [Base64url.replace, Base64url.replace, List.map_append, List.map_append]
    rfl
  have hne : ∀ c ∈ RawURLEncoding bytes, c ≠ 61 := by
    intro c hc
    obtain ⟨n, hn, rfl⟩ := List.mem_map.mp hc
    exact url_ne_padding n (hlt n hn)
  rw [Base64url.encode, btoa, if_pos hbyte, binary_bytes, Option.map_some]
  simp only [happend, hbody, hpad, rdropWhile_padding hne]

/-! ## What `decode` reads -/

theorem stripPadding_append {s : JSString} (hs : ∀ c ∈ s, c ≠ 61) (hlen : s.length % 4 ≠ 1) :
    stripPadding (s ++ List.replicate ((4 - s.length % 4) % 4) 61) = s := by
  have hlast : s.getLast? ≠ some 61 := fun h => hs 61 (List.mem_of_getLast? h) rfl
  have hmod : s.length % 4 < 4 := Nat.mod_lt _ (by decide)
  have hcases : s.length % 4 = 0 ∨ s.length % 4 = 2 ∨ s.length % 4 = 3 := by omega
  rcases hcases with h | h | h
  · simp [stripPadding, h, hlast]
  · have hfour : (s.length + 2) % 4 = 0 := by omega
    have htwo : s ++ List.replicate 2 61 = s ++ [61] ++ [61] := by simp [List.replicate]
    rw [h, htwo, stripPadding, List.length_append, List.length_append, List.length_singleton,
      if_pos hfour, List.getLast?_concat, if_pos rfl, List.dropLast_concat, List.getLast?_concat,
      if_pos rfl, List.dropLast_concat]
  · have hfour : (s.length + 1) % 4 = 0 := by omega
    have hone : s ++ List.replicate 1 61 = s ++ [61] := rfl
    rw [h, hone, stripPadding, List.length_append, List.length_singleton, if_pos hfour,
      List.getLast?_concat, if_pos rfl, List.dropLast_concat, if_neg hlast]

theorem mapM_plain {ns : List Nat} (h : ∀ n ∈ ns, n < 64) :
    (ns.map Base64.plain).mapM Base64.plain? = some ns := by
  induction ns with
  | nil => rfl
  | cons n ns ih =>
      rw [List.map_cons, List.mapM_cons, Base64.plain?_plain n (h n (by simp)),
        ih fun n hn => h n (by simp [hn])]
      rfl

/-- **`decode` reads what `encode` wrote.** -/
theorem decode_rawURLEncoding (bytes : Bytes) :
    Base64url.decode (RawURLEncoding bytes) = some bytes := by
  have hlt := Base64.sextets_lt bytes
  have hnormalized : Base64url.replace 95 47 (Base64url.replace 45 43 (RawURLEncoding bytes)) =
      (Base64.sextets bytes).map Base64.plain := by
    rw [Base64url.replace, Base64url.replace, RawURLEncoding, List.map_map, List.map_map]
    exact List.map_congr_left fun n hn => replace_url n (hlt n hn)
  have hspace : ((Base64.sextets bytes).map Base64.plain ++
        List.replicate ((4 - ((Base64.sextets bytes).map Base64.plain).length % 4) % 4) 61).filter
          (fun c => !isAsciiWhiteSpace c) =
      (Base64.sextets bytes).map Base64.plain ++
        List.replicate ((4 - ((Base64.sextets bytes).map Base64.plain).length % 4) % 4) 61 := by
    refine List.filter_eq_self.mpr fun c hc => ?_
    rcases List.mem_append.mp hc with hc | hc
    · obtain ⟨n, hn, rfl⟩ := List.mem_map.mp hc
      rw [plain_not_space n (hlt n hn)]
      rfl
    · rw [(List.mem_replicate.mp hc).2]
      rfl
  have hlen : ((Base64.sextets bytes).map Base64.plain).length % 4 ≠ 1 := by
    rw [List.length_map, Base64.sextets_length]
    omega
  have hstrip := stripPadding_append (s := (Base64.sextets bytes).map Base64.plain)
    (fun c hc => by
      obtain ⟨n, hn, rfl⟩ := List.mem_map.mp hc
      exact plain_ne_padding n (hlt n hn)) hlen
  rw [Base64url.decode, hnormalized, atob, hspace, hstrip, if_neg hlen, mapM_plain hlt,
    Option.map_some, Option.map_some, Base64.octets_sextets, binary_bytes]

end Quicksend
