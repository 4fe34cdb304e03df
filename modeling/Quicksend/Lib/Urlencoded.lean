import Quicksend.Lib.Hex
import Mathlib.Data.List.Basic
import Mathlib.Data.UInt

/-!
# Form-encoded text

The parser of `application/x-www-form-urlencoded`: bytes are cut at `&` and the
first `=`, `+` is a space, percent-encoded bytes are put in their places, and what
comes out is read as UTF-8, whatever it is. Names and values of plain characters
come back as they were written.
-/

namespace Urlencoded

/-! ## UTF-8, with a replacement character for every error -/

/-- What the decoder has of a character: the bytes that are still to come, the bits so
far, and the bounds of the next byte. -/
structure Pending where
  need : Nat
  bits : Nat
  lower : Nat
  upper : Nat

/-- No sequence has been begun: no byte is due, and the bounds are those of an
ordinary continuation byte. -/
def Pending.none : Pending := { need := 0, bits := 0, lower := 0x80, upper := 0xBF }

/-- U+FFFD, which stands in the text for each sequence that is no UTF-8. -/
def replacement : Char := Char.ofNat 0xFFFD

/-- A byte at the beginning of a character. -/
def lead (b : Nat) : Pending × List Char :=
  if b ≤ 0x7F then (.none, [Char.ofNat b])
  else if 0xC2 ≤ b ∧ b ≤ 0xDF then ({ Pending.none with need := 1, bits := b % 0x20 }, [])
  else if 0xE0 ≤ b ∧ b ≤ 0xEF then
    ({ need := 2, bits := b % 0x10
       lower := if b = 0xE0 then 0xA0 else 0x80
       upper := if b = 0xED then 0x9F else 0xBF }, [])
  else if 0xF0 ≤ b ∧ b ≤ 0xF4 then
    ({ need := 3, bits := b % 0x08
       lower := if b = 0xF0 then 0x90 else 0x80
       upper := if b = 0xF4 then 0x8F else 0xBF }, [])
  else (.none, [replacement])

/-- A byte that does not continue a character ends it, and begins another. -/
def feed (p : Pending) (b : Nat) : Pending × List Char :=
  match p.need with
  | 0 => lead b
  | need + 1 =>
      if b < p.lower ∨ p.upper < b then ((lead b).1, replacement :: (lead b).2)
      else
        let bits := p.bits * 0x40 + b % 0x40
        if need = 0 then (.none, [Char.ofNat bits])
        else ({ Pending.none with need := need, bits := bits }, [])

/-- Decode the bytes with a sequence in hand; one that is cut off by the end of
the input is replaced. -/
def decodeFrom (p : Pending) : List UInt8 → List Char
  | [] => if p.need = 0 then [] else [replacement]
  | b :: bs => (feed p b.toNat).2 ++ decodeFrom (feed p b.toNat).1 bs

/-- UTF-8 decode without BOM: every malformed sequence is replaced, and a byte
order mark stays. -/
def decodeUtf8 (bs : List UInt8) : List Char := decodeFrom .none bs

/-! ## The parser -/

/-- What a byte behind a `%` is worth as a digit. -/
def hexValue? (b : UInt8) : Option Nat := Hex.value? b.toNat

/-- Every `%` with two digits behind it is one byte; one without stays as it is. -/
def percentDecode : List UInt8 → List UInt8
  | 37 :: x :: y :: bs =>
      match hexValue? x, hexValue? y with
      | some hi, some lo => UInt8.ofNat (hi * 16 + lo) :: percentDecode bs
      | _, _ => 37 :: percentDecode (x :: y :: bs)
  | b :: bs => b :: percentDecode bs
  | [] => []

/-- A plus sign stands for a space, and every other byte stands for itself. -/
def plusToSpace (b : UInt8) : UInt8 := if b = 43 then 32 else b

/-- The text of a name or a value: plus signs become spaces, percent escapes their
bytes, and the bytes are read as UTF-8. -/
def decode (bs : List UInt8) : List Char := decodeUtf8 (percentDecode (bs.map plusToSpace))

/-- A sequence cut at its first `=`; without one it is a name. -/
def cutPair : List UInt8 → List UInt8 × List UInt8
  | [] => ([], [])
  | b :: bs => if b = 61 then ([], bs) else (b :: (cutPair bs).1, (cutPair bs).2)

/-- The pairs of a urlencoded string: cut at each ampersand, empty pieces dropped,
and each piece cut at its first equals sign. -/
def parse (bs : List UInt8) : List (List Char × List Char) :=
  ((bs.splitOn 38).filter fun s => !s.isEmpty).map fun s =>
    (decode (cutPair s).1, decode (cutPair s).2)

/-! ## Plain characters -/

/-- ASCII, and none of `%`, `&`, `+` and `=`. -/
def Plain (b : UInt8) : Prop := b < 128 ∧ b ≠ 37 ∧ b ≠ 38 ∧ b ≠ 43 ∧ b ≠ 61

instance (b : UInt8) : Decidable (Plain b) := inferInstanceAs (Decidable (_ ∧ _))

/-- The characters of plain bytes, each of which stands for the character of its
own number. -/
def text (bs : List UInt8) : List Char := bs.map fun b => Char.ofNat b.toNat

variable {bs name value : List UInt8}

theorem decodeUtf8_plain (h : ∀ b ∈ bs, Plain b) : decodeUtf8 bs = text bs := by
  induction bs with
  | nil => rfl
  | cons b bs ih =>
      have hb : b.toNat ≤ 0x7F := Nat.le_of_lt_succ (h b (by simp)).1
      have hfeed : feed .none b.toNat = (.none, [Char.ofNat b.toNat]) := by
        simp only [feed, Pending.none, lead, if_pos hb]
      rw [decodeUtf8, decodeFrom, hfeed]
      exact congrArg (Char.ofNat b.toNat :: ·) (ih fun b hb => h b (by simp [hb]))

theorem percentDecode_plain (h : ∀ b ∈ bs, Plain b) : percentDecode bs = bs := by
  induction bs with
  | nil => rfl
  | cons b bs ih =>
      have hb : b ≠ 37 := (h b (by simp)).2.1
      have hrest := ih fun b hb => h b (by simp [hb])
      rw [percentDecode.eq_def]
      split
      next heq => exact absurd (List.cons.inj heq).1 hb
      next heq =>
        obtain ⟨rfl, rfl⟩ := List.cons.inj heq
        rw [hrest]
      next heq => cases heq

theorem decode_plain (h : ∀ b ∈ bs, Plain b) : decode bs = text bs := by
  have hplus : bs.map plusToSpace = bs := by
    refine (List.map_congr_left fun b hb => ?_).trans (List.map_id _)
    rw [plusToSpace, if_neg (h b hb).2.2.2.1, id_eq]
  rw [decode, hplus, percentDecode_plain h, decodeUtf8_plain h]

theorem cutPair_append (h : ∀ b ∈ name, Plain b) :
    cutPair (name ++ 61 :: value) = (name, value) := by
  induction name with
  | nil => rfl
  | cons b name ih =>
      rw [List.cons_append, cutPair, if_neg (h b (by simp)).2.2.2.2,
        ih fun b hb => h b (by simp [hb])]

theorem not_mem_pair (hn : ∀ b ∈ name, Plain b) (hv : ∀ b ∈ value, Plain b) :
    38 ∉ name ++ 61 :: value := by
  intro hmem
  rcases List.mem_append.mp hmem with hmem | hmem
  · exact (hn 38 hmem).2.2.1 rfl
  · rcases List.mem_cons.mp hmem with heq | hmem
    · exact absurd heq (by decide)
    · exact (hv 38 hmem).2.2.1 rfl

/-- **The last pair** comes back. -/
theorem parse_pair (hn : ∀ b ∈ name, Plain b) (hv : ∀ b ∈ value, Plain b) :
    parse (name ++ 61 :: value) = [(text name, text value)] := by
  have hne : (name ++ 61 :: value).isEmpty = false := by cases name <;> rfl
  rw [parse, List.splitOn_eq_singleton (not_mem_pair hn hv)]
  simp only [List.filter_cons, hne, Bool.not_false, if_true, List.filter_nil, List.map_cons,
    List.map_nil, cutPair_append hn, decode_plain hn, decode_plain hv]

/-- **A pair before others** comes back. -/
theorem parse_cons (hn : ∀ b ∈ name, Plain b) (hv : ∀ b ∈ value, Plain b) :
    parse ((name ++ 61 :: value) ++ 38 :: bs) = (text name, text value) :: parse bs := by
  have hone := parse_pair hn hv
  rw [parse, List.splitOn_append_cons_self, List.filter_append, List.map_append]
  exact congrArg (· ++ parse bs) hone

end Urlencoded
