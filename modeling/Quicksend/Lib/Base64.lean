import Mathlib.Data.List.Basic
import Mathlib.Data.UInt

/-!
# Base 64

Bytes as numbers below 64, three bytes as four numbers, and back. What is left over
at the end is written with one number more than it has bytes, so that nothing needs
to be padded. An alphabet of letters, digits and two more characters writes the
numbers down.
-/

namespace Base64

/-! ## The numbers -/

/-- The bytes cut into groups of six bits, with zero bits to fill the last group
up. -/
def sextets : List UInt8 → List Nat
  | [] => []
  | [a] => [a.toNat / 4, a.toNat % 4 * 16]
  | [a, b] => [a.toNat / 4, a.toNat % 4 * 16 + b.toNat / 16, b.toNat % 16 * 4]
  | a :: b :: c :: rest =>
      a.toNat / 4 :: (a.toNat % 4 * 16 + b.toNat / 16) :: (b.toNat % 16 * 4 + c.toNat / 64) ::
        c.toNat % 64 :: sextets rest

/-- The bits that do not make up a byte are dropped. -/
def octets : List Nat → List UInt8
  | [] | [_] => []
  | [p, q] => [UInt8.ofNat (p * 4 + q / 16)]
  | [p, q, r] => [UInt8.ofNat (p * 4 + q / 16), UInt8.ofNat (q % 16 * 16 + r / 4)]
  | p :: q :: r :: s :: rest =>
      UInt8.ofNat (p * 4 + q / 16) :: UInt8.ofNat (q % 16 * 16 + r / 4) ::
        UInt8.ofNat (r % 4 * 64 + s) :: octets rest

theorem ofNat_eq {a : UInt8} {n : Nat} (h : n = a.toNat) : UInt8.ofNat n = a := by
  rw [h, UInt8.ofNat_toNat]

theorem octets_sextets (bs : List UInt8) : octets (sextets bs) = bs := by
  induction bs using sextets.induct with
  | case1 => rfl
  | case2 a =>
      have ha := a.toNat_lt
      rw [sextets, octets, ofNat_eq (a := a) (by omega)]
  | case3 a b =>
      have ha := a.toNat_lt
      have hb := b.toNat_lt
      rw [sextets, octets, ofNat_eq (a := a) (by omega), ofNat_eq (a := b) (by omega)]
  | case4 a b c rest ih =>
      have ha := a.toNat_lt
      have hb := b.toNat_lt
      have hc := c.toNat_lt
      rw [sextets, octets, ofNat_eq (a := a) (by omega), ofNat_eq (a := b) (by omega),
        ofNat_eq (a := c) (by omega), ih]

theorem sextets_lt (bs : List UInt8) : ∀ n ∈ sextets bs, n < 64 := by
  induction bs using sextets.induct with
  | case1 => simp [sextets]
  | case2 a =>
      have ha := a.toNat_lt
      simp only [sextets, List.mem_cons, List.not_mem_nil, or_false, forall_eq_or_imp, forall_eq]
      omega
  | case3 a b =>
      have ha := a.toNat_lt
      have hb := b.toNat_lt
      simp only [sextets, List.mem_cons, List.not_mem_nil, or_false, forall_eq_or_imp, forall_eq]
      omega
  | case4 a b c rest ih =>
      have ha := a.toNat_lt
      have hb := b.toNat_lt
      have hc := c.toNat_lt
      simp only [sextets, List.mem_cons, forall_eq_or_imp]
      exact ⟨by omega, by omega, by omega, by omega, ih⟩

/-- There is never one number left over. -/
theorem sextets_length (bs : List UInt8) : (sextets bs).length = (4 * bs.length + 2) / 3 := by
  induction bs using sextets.induct with
  | case1 | case2 | case3 => simp [sextets]
  | case4 a b c rest ih =>
      simp only [sextets, List.length_cons, ih]
      omega

/-! ## The alphabet -/

/-- The code unit of a number; the last two numbers have those that are given. -/
def digit (c62 c63 : UInt16) (n : Nat) : UInt16 :=
  if n < 26 then UInt16.ofNat (65 + n)
  else if n < 52 then UInt16.ofNat (71 + n)
  else if n < 62 then UInt16.ofNat (n - 4)
  else if n = 62 then c62
  else c63

/-- The six bits that a digit stands for, in an alphabet whose last two digits are
`c62` and `c63`. -/
def value? (c62 c63 c : UInt16) : Option Nat :=
  if 65 ≤ c ∧ c ≤ 90 then some (c.toNat - 65)
  else if 97 ≤ c ∧ c ≤ 122 then some (c.toNat - 71)
  else if 48 ≤ c ∧ c ≤ 57 then some (c.toNat + 4)
  else if c = c62 then some 62
  else if c = c63 then some 63
  else none

/-- With `+` and `/`, as in every context but those of names and addresses. -/
def plain : Nat → UInt16 := digit 43 47

/-- The alphabet for URLs, with minus and underscore as its last two digits. -/
def url : Nat → UInt16 := digit 45 95

/-- The digits of the usual alphabet, which ends in plus and slash. -/
def plain? : UInt16 → Option Nat := value? 43 47

theorem plain?_plain : ∀ n < 64, plain? (plain n) = some n := by decide

/-- A letter, a digit, or one of the two. -/
def isUrl (c : UInt16) : Bool := (value? 45 95 c).isSome

theorem isUrl_url : ∀ n < 64, isUrl (url n) = true := by decide

end Base64
