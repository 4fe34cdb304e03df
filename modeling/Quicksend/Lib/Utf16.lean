import Mathlib.Data.List.Basic

/-!
# UTF-16

Text as UTF-16 code units, and back: a surrogate that is not one of a pair is
read as the replacement character. What was encoded from characters comes back.
-/

namespace Utf16

/-- The units of a character: its own number below 0x10000, and a high and a low
surrogate from there on. -/
def encodeChar (c : Char) : List UInt16 :=
  if c.toNat < 0x10000 then [UInt16.ofNat c.toNat]
  else
    [UInt16.ofNat (0xD800 + (c.toNat - 0x10000) / 0x400),
      UInt16.ofNat (0xDC00 + (c.toNat - 0x10000) % 0x400)]

/-- The UTF-16 of a text: the units of its characters one after the other. -/
def encode (s : List Char) : List UInt16 := s.flatMap encodeChar

/-- The unit is a high surrogate, which a low one has to follow to make a
character. -/
def isHigh (u : UInt16) : Bool := 0xD800 ≤ u.toNat && u.toNat < 0xDC00

/-- The unit is a low surrogate, the second half of a character beyond 0xFFFF. -/
def isLow (u : UInt16) : Bool := 0xDC00 ≤ u.toNat && u.toNat < 0xE000

/-- A code unit by itself: its own character, or U+FFFD for half a surrogate pair. -/
def decodeUnit (u : UInt16) : Char :=
  if isHigh u || isLow u then Char.ofNat 0xFFFD else Char.ofNat u.toNat

/-- The character beyond 0xFFFF that a high and a low surrogate make together. -/
def decodePair (u v : UInt16) : Char :=
  Char.ofNat (0x10000 + (u.toNat - 0xD800) * 0x400 + (v.toNat - 0xDC00))

/-- The text that units stand for, with U+FFFD in the place of each surrogate that
has no partner. -/
def decode : List UInt16 → List Char
  | [] => []
  | [u] => [decodeUnit u]
  | u :: v :: rest =>
      if isHigh u && isLow v then decodePair u v :: decode rest
      else decodeUnit u :: decode (v :: rest)

theorem decode_unit {u : UInt16} (hu : isHigh u = false) (rest : List UInt16) :
    decode (u :: rest) = decodeUnit u :: decode rest := by
  cases rest with
  | nil => rfl
  | cons v rest => rw [decode, hu, Bool.false_and, if_neg Bool.false_ne_true]

/-- A character is below the surrogates or above them. -/
theorem toNat_valid (c : Char) :
    c.toNat < 0xD800 ∨ 0xDFFF < c.toNat ∧ c.toNat < 0x110000 := c.valid

theorem decode_encodeChar (c : Char) (rest : List UInt16) :
    decode (encodeChar c ++ rest) = c :: decode rest := by
  have hvalid := toNat_valid c
  rw [encodeChar]
  split
  next hsmall =>
    -- one unit, which is no surrogate
    have hunit : (UInt16.ofNat c.toNat).toNat = c.toNat := UInt16.toNat_ofNat_of_lt' hsmall
    have hhigh : isHigh (UInt16.ofNat c.toNat) = false := by
      simp only [isHigh, hunit, Bool.and_eq_false_iff, decide_eq_false_iff_not]
      omega
    have hlow : isLow (UInt16.ofNat c.toNat) = false := by
      simp only [isLow, hunit, Bool.and_eq_false_iff, decide_eq_false_iff_not]
      omega
    rw [List.singleton_append, decode_unit hhigh, decodeUnit, hhigh, hlow, Bool.or_self,
      if_neg Bool.false_ne_true, hunit, Char.ofNat_toNat]
  next hlarge =>
    have hu : (UInt16.ofNat (0xD800 + (c.toNat - 0x10000) / 0x400)).toNat =
        0xD800 + (c.toNat - 0x10000) / 0x400 := UInt16.toNat_ofNat_of_lt' (by
      change _ < 65536
      omega)
    have hv : (UInt16.ofNat (0xDC00 + (c.toNat - 0x10000) % 0x400)).toNat =
        0xDC00 + (c.toNat - 0x10000) % 0x400 := UInt16.toNat_ofNat_of_lt' (by
      change _ < 65536
      omega)
    have hhigh : isHigh (UInt16.ofNat (0xD800 + (c.toNat - 0x10000) / 0x400)) = true := by
      simp only [isHigh, hu, Bool.and_eq_true, decide_eq_true_eq]
      omega
    have hlow : isLow (UInt16.ofNat (0xDC00 + (c.toNat - 0x10000) % 0x400)) = true := by
      simp only [isLow, hv, Bool.and_eq_true, decide_eq_true_eq]
      omega
    have hnat : 0x10000 + (0xD800 + (c.toNat - 0x10000) / 0x400 - 0xD800) * 0x400 +
        (0xDC00 + (c.toNat - 0x10000) % 0x400 - 0xDC00) = c.toNat := by
      omega
    rw [List.cons_append, List.singleton_append, decode, hhigh, hlow, Bool.and_self, if_pos rfl,
      decodePair, hu, hv, hnat, Char.ofNat_toNat]

theorem decode_encode (s : List Char) : decode (encode s) = s := by
  induction s with
  | nil => rfl
  | cons c s ih =>
      change decode (encodeChar c ++ encode s) = c :: s
      rw [decode_encodeChar, ih]

/-! ## Units that stand for themselves -/

theorem toNat_ofNat_valid {n : Nat} (h : n < 0xD800 ∨ 0xDFFF < n ∧ n < 0x110000) :
    (Char.ofNat n).toNat = n := by
  have hv : n.isValidChar := h
  rw [Char.ofNat, dif_pos hv]
  rfl

theorem encodeChar_unit {u : UInt16} (hhigh : isHigh u = false) (hlow : isLow u = false) :
    encodeChar (Char.ofNat u.toNat) = [u] := by
  have hlt : u.toNat < 65536 := u.toNat_lt
  have hvalid : u.toNat < 0xD800 ∨ 0xDFFF < u.toNat ∧ u.toNat < 0x110000 := by
    simp only [isHigh, isLow, Bool.and_eq_false_iff, decide_eq_false_iff_not] at hhigh hlow
    omega
  rw [encodeChar, toNat_ofNat_valid hvalid, if_pos hlt, UInt16.ofNat_toNat]

theorem toNat_decodePair {u v : UInt16} (hhigh : isHigh u = true) (hlow : isLow v = true) :
    (decodePair u v).toNat = 0x10000 + (u.toNat - 0xD800) * 0x400 + (v.toNat - 0xDC00) := by
  simp only [isHigh, isLow, Bool.and_eq_true, decide_eq_true_eq] at hhigh hlow
  exact toNat_ofNat_valid (.inr (by omega))

theorem encodeChar_decodePair {u v : UInt16} (hhigh : isHigh u = true) (hlow : isLow v = true) :
    encodeChar (decodePair u v) = [u, v] := by
  have hc := toNat_decodePair hhigh hlow
  simp only [isHigh, isLow, Bool.and_eq_true, decide_eq_true_eq] at hhigh hlow
  have hu : 0xD800 + ((decodePair u v).toNat - 0x10000) / 0x400 = u.toNat := by omega
  have hv : 0xDC00 + ((decodePair u v).toNat - 0x10000) % 0x400 = v.toNat := by omega
  rw [encodeChar, if_neg (by omega), hu, hv, UInt16.ofNat_toNat, UInt16.ofNat_toNat]

/-- Text without surrogates is the same text again. -/
theorem encode_decode_of_plain {us : List UInt16}
    (h : ∀ u ∈ us, isHigh u = false ∧ isLow u = false) : encode (decode us) = us := by
  induction us with
  | nil => rfl
  | cons u us ih =>
      obtain ⟨hhigh, hlow⟩ := h u (by simp)
      rw [decode_unit hhigh, encode, List.flatMap_cons, ← encode, ih fun v hv => h v (by simp [hv]),
        decodeUnit, hhigh, hlow, Bool.or_self, if_neg Bool.false_ne_true, encodeChar_unit hhigh hlow]
      rfl

end Utf16
