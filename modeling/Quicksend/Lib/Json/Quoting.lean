import Quicksend.Lib.Json
import Mathlib.Data.List.TakeWhile
import Mathlib.Tactic.IntervalCases

/-!
# Quoted strings

How `JSON.stringify` and `json.Marshal` write strings. The first has code units
to write and escapes surrogates that are not paired; the second has characters,
and escapes some more of them for the sake of HTML.
-/

namespace Json

/-- The letter of the short escape of a code unit, for those that have one. -/
def shortEscape? (u : Nat) : Option Char :=
  if u = 8 then some 'b'
  else if u = 9 then some 't'
  else if u = 10 then some 'n'
  else if u = 12 then some 'f'
  else if u = 13 then some 'r'
  else if u = 34 then some '"'
  else if u = 92 then some '\\'
  else none

/-- The digit as both writers put it into a `\u` escape. -/
def hexDigit (n : Nat) : Char := Char.ofNat (Hex.digit n)

/-- The escape of a unit by number: a backslash, the letter u and its four
hexadecimal digits. -/
def unicodeEscape (u : UInt16) : List Char :=
  ['\\', 'u', hexDigit (u.toNat / 4096), hexDigit (u.toNat / 256 % 16),
    hexDigit (u.toNat / 16 % 16), hexDigit (u.toNat % 16)]

/-- `JSON.stringify` of one code unit that is not one of a pair. -/
def stringifyUnit (u : UInt16) : List Char :=
  match shortEscape? u.toNat with
  | some c => ['\\', c]
  | none =>
      if u.toNat < 0x20 ∨ Utf16.isHigh u = true ∨ Utf16.isLow u = true then unicodeEscape u
      else [Char.ofNat u.toNat]

/-- What `JSON.stringify` writes of a string after its opening quote: pairs as
characters, the rest unit by unit, and the closing quote. -/
def stringifyBody : List UInt16 → List Char
  | [] => ['"']
  | [u] => stringifyUnit u ++ ['"']
  | u :: v :: us =>
      if Utf16.isHigh u && Utf16.isLow v then Utf16.decodePair u v :: stringifyBody us
      else stringifyUnit u ++ stringifyBody (v :: us)

/-- `json.Marshal` of one character: its short escape, its number where HTML or a
line end is at stake, or itself. -/
def marshalChar (c : Char) : List Char :=
  match shortEscape? c.toNat with
  | some c => ['\\', c]
  | none =>
      if c.toNat < 0x20 ∨ c ∈ ['<', '>', '&', Char.ofNat 0x2028, Char.ofNat 0x2029] then
        unicodeEscape (UInt16.ofNat c.toNat)
      else [c]

/-- What `encoding/json` writes of a string after its opening quote: each
character or its escape, and the closing quote. -/
def marshalBody (s : List Char) : List Char := s.flatMap marshalChar ++ ['"']

/-! ## What a reader makes of a piece of a string -/

/-- `text` stands for the code units `us`, whatever follows. -/
def Reads (text : List Char) (us : List UInt16) : Prop :=
  ∀ cs, unquote (text ++ cs) = (unquote cs).map fun r => (us ++ r.1, r.2)

theorem Reads.nil : Reads [] [] := fun cs => by
  cases h : unquote cs <;> simp [h]

theorem Reads.append {text text' : List Char} {us us' : List UInt16} (h : Reads text us)
    (h' : Reads text' us') : Reads (text ++ text') (us ++ us') := fun cs => by
  rw [List.append_assoc, h, h', Option.map_map]
  congr 1
  funext r
  rw [Function.comp_apply, List.append_assoc]

theorem Reads.closed {text : List Char} {us : List UInt16} (h : Reads text us) (rest : List Char) :
    unquote (text ++ '"' :: rest) = some (us, rest) := by
  rw [h]
  change some (us ++ [], rest) = _
  rw [List.append_nil]

theorem unescape?_short {n : Nat} {c : Char} (h : shortEscape? n = some c) :
    unescape? c = some (UInt16.ofNat n) ∧ c ≠ 'u' := by
  unfold shortEscape? at h
  repeat' split at h
  all_goals cases h
  all_goals
    subst_vars
    decide

theorem unquote_escape {c : Char} (hc : c ≠ 'u') (cs : List Char) :
    unquote ('\\' :: c :: cs) =
      (unescape? c).bind fun u => (unquote cs).map fun r => (u :: r.1, r.2) := by
  rw [unquote]
  · cases unescape? c with
    | none => rfl
    | some u => cases unquote cs <;> rfl
  · rintro a b d e cs' rfl -
    exact hc rfl

theorem reads_short {u : UInt16} {c : Char} (h : shortEscape? u.toNat = some c) :
    Reads ['\\', c] [u] := by
  obtain ⟨hu, hc⟩ := unescape?_short h
  rw [UInt16.ofNat_toNat] at hu
  intro cs
  rw [List.cons_append, List.singleton_append, unquote_escape hc, hu]
  rfl

theorem hexDigit?_hexDigit {n : Nat} (h : n < 16) : hexDigit? (hexDigit n) = some n := by
  have hcode : ∀ n < 16, (hexDigit n).toNat = Hex.digit n := by decide
  rw [hexDigit?, hcode n h, Hex.value?_digit h]

theorem reads_unicodeEscape (u : UInt16) : Reads (unicodeEscape u) [u] := by
  intro cs
  have hlt : u.toNat < 65536 := u.toNat_lt
  have h3 := hexDigit?_hexDigit (show u.toNat / 4096 < 16 by omega)
  have h2 := hexDigit?_hexDigit (show u.toNat / 256 % 16 < 16 by omega)
  have h1 := hexDigit?_hexDigit (show u.toNat / 16 % 16 < 16 by omega)
  have h0 := hexDigit?_hexDigit (show u.toNat % 16 < 16 by omega)
  have hu : ((u.toNat / 4096 * 16 + u.toNat / 256 % 16) * 16 + u.toNat / 16 % 16) * 16 +
      u.toNat % 16 = u.toNat := by omega
  simp only [unicodeEscape, List.cons_append, List.nil_append, unquote, hex4?, h3, h2, h1, h0, hu,
    UInt16.ofNat_toNat]
  cases unquote cs <;> rfl

/-- A character that need not be escaped. -/
theorem reads_char {c : Char} (hc : 0x20 ≤ c.toNat) (hq : c ≠ '"') (hb : c ≠ '\\') :
    Reads [c] (Utf16.encodeChar c) := by
  intro cs
  rw [List.singleton_append, unquote]
  · exact if_neg (by omega)
  · exact hq
  · rintro a b d e cs' rfl -
    exact hb rfl
  · rintro c' cs' rfl -
    exact hb rfl

/-- What needs no short escape is neither of the characters that end a piece. -/
theorem shortEscape?_none {n : Nat} (h : shortEscape? n = none) : n ≠ 34 ∧ n ≠ 92 := by
  refine ⟨?_, ?_⟩ <;>
    rintro rfl <;>
    cases h

theorem reads_plain {c : Char} (hshort : shortEscape? c.toNat = none) (hc : 0x20 ≤ c.toNat) :
    Reads [c] (Utf16.encodeChar c) := by
  obtain ⟨hq, hb⟩ := shortEscape?_none hshort
  refine reads_char hc ?_ ?_
  · rintro rfl
    exact hq rfl
  · rintro rfl
    exact hb rfl

/-! ## `JSON.stringify` -/

theorem reads_stringifyUnit (u : UInt16) : Reads (stringifyUnit u) [u] := by
  rw [stringifyUnit]
  cases hshort : shortEscape? u.toNat with
  | some c => exact reads_short hshort
  | none =>
      simp only
      split
      next => exact reads_unicodeEscape u
      next hplain =>
        rw [not_or, not_or, Bool.not_eq_true, Bool.not_eq_true] at hplain
        obtain ⟨hc, hhigh, hlow⟩ := hplain
        have hnat : (Char.ofNat u.toNat).toNat = u.toNat := by
          have hlt : u.toNat < 65536 := u.toNat_lt
          simp only [Utf16.isHigh, Utf16.isLow, Bool.and_eq_false_iff,
            decide_eq_false_iff_not] at hhigh hlow
          exact Utf16.toNat_ofNat_valid (by omega)
        have h := reads_plain (c := Char.ofNat u.toNat) (by rw [hnat]; exact hshort)
          (by rw [hnat]; omega)
        rwa [Utf16.encodeChar_unit hhigh hlow] at h

/-- A pair stands as it is, and no character of two units has to be escaped. -/
theorem reads_pair {u v : UInt16} (hhigh : Utf16.isHigh u = true) (hlow : Utf16.isLow v = true) :
    Reads [Utf16.decodePair u v] [u, v] := by
  have hnat := Utf16.toNat_decodePair hhigh hlow
  have h := reads_char (c := Utf16.decodePair u v) (by omega)
    (by
      intro heq
      rw [heq] at hnat
      change 34 = _ at hnat
      omega)
    (by
      intro heq
      rw [heq] at hnat
      change 92 = _ at hnat
      omega)
  rwa [Utf16.encodeChar_decodePair hhigh hlow] at h

theorem unquote_stringifyBody (us : List UInt16) (rest : List Char) :
    unquote (stringifyBody us ++ rest) = some (us, rest) := by
  induction us using stringifyBody.induct with
  | case1 => rfl
  | case2 u =>
      rw [stringifyBody, List.append_assoc]
      exact (reads_stringifyUnit u).closed rest
  | case3 u v us hpair ih =>
      rw [Bool.and_eq_true] at hpair
      rw [stringifyBody, if_pos (by simpa using hpair), List.cons_append]
      refine (reads_pair hpair.1 hpair.2 (stringifyBody us ++ rest)).trans ?_
      rw [ih]
      rfl
  | case4 u v us hpair ih =>
      rw [stringifyBody, if_neg hpair, List.append_assoc, reads_stringifyUnit u, ih]
      rfl

/-- The quoting of `JSON.stringify`, which loses nothing: every string of units
reads back as itself. -/
def stringifyQuoting : Quoting (List UInt16) where
  body := stringifyBody
  units := id
  unquote_body := unquote_stringifyBody

/-! ## `json.Marshal` -/

theorem reads_marshalChar (c : Char) : Reads (marshalChar c) (Utf16.encodeChar c) := by
  have hunit (h : c.toNat < 0x10000) :
      UInt16.ofNat c.toNat = UInt16.ofNat c.toNat ∧ Utf16.encodeChar c = [UInt16.ofNat c.toNat] ∧
        (UInt16.ofNat c.toNat).toNat = c.toNat :=
    ⟨rfl, if_pos h, UInt16.toNat_ofNat_of_lt' h⟩
  rw [marshalChar]
  cases hshort : shortEscape? c.toNat with
  | some e =>
      have hsmall : c.toNat < 0x10000 := by
        unfold shortEscape? at hshort
        repeat' split at hshort
        all_goals first | omega | cases hshort
      obtain ⟨-, hone, hnat⟩ := hunit hsmall
      rw [hone]
      exact reads_short (by rw [hnat]; exact hshort)
  | none =>
      simp only
      split
      next hescaped =>
        have hsmall : c.toNat < 0x10000 := by
          obtain h | h := hescaped
          · omega
          · simp only [List.mem_cons, List.not_mem_nil, or_false] at h
            obtain rfl | rfl | rfl | rfl | rfl := h <;> decide
        rw [(hunit hsmall).2.1]
        exact reads_unicodeEscape _
      next hplain =>
        rw [not_or] at hplain
        exact reads_plain hshort (by omega)

theorem reads_marshal (s : List Char) : Reads (s.flatMap marshalChar) (Utf16.encode s) := by
  induction s with
  | nil => exact Reads.nil
  | cons c s ih => exact (reads_marshalChar c).append ih

theorem unquote_marshalBody (s : List Char) (rest : List Char) :
    unquote (marshalBody s ++ rest) = some (Utf16.encode s, rest) := by
  rw [marshalBody, List.append_assoc]
  exact (reads_marshal s).closed rest

/-- The quoting of `encoding/json`, which writes text only: a string reads back as
the units of its characters. -/
def marshalQuoting : Quoting (List Char) where
  body := marshalBody
  units := Utf16.encode
  unquote_body := unquote_marshalBody

/-! ## Integers -/

theorem all_isDigit_toDigits (n : Nat) : (Nat.toDigits 10 n).all Char.isDigit = true :=
  List.all_eq_true.mpr fun _ hc => Nat.isDigit_of_mem_toDigits (by decide) (by decide) hc

/-- A positive number has no leading zero. -/
theorem head?_toDigits {n : Nat} (hn : 0 < n) : (Nat.toDigits 10 n).head? ≠ some '0' := by
  induction n using Nat.strongRecOn with
  | ind n ih =>
      rw [Nat.toDigits_eq_if (by decide)]
      split
      next h => interval_cases n <;> decide
      next h =>
        rw [List.head?_append_of_ne_nil _ Nat.toDigits_ne_nil]
        exact ih (n / 10) (by omega) (by omega)

theorem isUnsigned_of_digits {cs : List Char} (hne : cs ≠ []) (hall : cs.all Char.isDigit = true)
    (hzero : ∀ c rest, cs ≠ '0' :: c :: rest) : isUnsigned cs = true := by
  have hmem := List.all_eq_true.mp hall
  have htake : cs.takeWhile Char.isDigit = cs := List.takeWhile_eq_self_iff.mpr hmem
  have hdrop : cs.dropWhile Char.isDigit = [] := List.dropWhile_eq_nil_iff.mpr hmem
  rw [isUnsigned, htake, hdrop]
  split
  next => exact absurd rfl hne
  next c rest => exact absurd rfl (hzero c rest)
  next => rfl

theorem isNumber_toDigits (n : Nat) : isNumber (Nat.toDigits 10 n) = true := by
  have hall := all_isDigit_toDigits n
  have hchars : (Nat.toDigits 10 n).all isNumberChar = true :=
    List.all_eq_true.mpr fun c hc => by
      rw [isNumberChar, List.all_eq_true.mp hall c hc, Bool.true_or]
  have hunsigned : isUnsigned (Nat.toDigits 10 n) = true := by
    refine isUnsigned_of_digits Nat.toDigits_ne_nil hall fun c rest heq => ?_
    obtain rfl | hn := Nat.eq_zero_or_pos n
    · cases heq
    · exact head?_toDigits hn (by rw [heq]; rfl)
  rw [isNumber, hchars, Bool.true_and]
  · exact hunsigned
  · intro cs heq
    rw [heq] at hall
    cases hall

/-- A natural number as it is written, in decimal digits. -/
def Number.ofNat (n : Nat) : Number := ⟨Nat.toDigits 10 n, isNumber_toDigits n⟩

/-- The integer that is written without fraction or exponent. -/
def Number.int? (n : Number) : Option Int :=
  match n.lexeme with
  | '-' :: cs => if cs.all Char.isDigit then some (-(Nat.ofDigitChars 10 cs 0 : Int)) else none
  | cs => if cs.all Char.isDigit then some (Nat.ofDigitChars 10 cs 0 : Int) else none

@[simp] theorem Number.int?_ofNat (n : Nat) : (Number.ofNat n).int? = some (n : Int) := by
  have hall := all_isDigit_toDigits n
  rw [Number.int?, Number.ofNat]
  split
  next cs heq =>
    change Nat.toDigits 10 n = _ at heq
    rw [heq] at hall
    cases hall
  next =>
    rw [if_pos hall, Nat.ofDigitChars_ten_toDigits]

end Json
