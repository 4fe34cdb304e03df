import Mathlib.Logic.Basic

/-!
# Hexadecimal digits

A digit goes by its code, which is one number as an ASCII byte, as a UTF-16 code
unit and as a code point.
-/

namespace Hex

/-- The code of the digit that is worth `n`, in lower case. -/
def digit (n : Nat) : Nat := if n < 10 then 48 + n else 87 + n

/-- What the digit with this code is worth, in either case; `none` where it is
the code of no digit. -/
def value? (code : Nat) : Option Nat :=
  if 48 ≤ code ∧ code ≤ 57 then some (code - 48)
  else if 97 ≤ code ∧ code ≤ 102 then some (code - 87)
  else if 65 ≤ code ∧ code ≤ 70 then some (code - 55)
  else none

/-- A digit that was written is read back. -/
theorem value?_digit {n : Nat} (h : n < 16) : value? (digit n) = some n := by
  unfold digit
  split
  next hlow =>
    rw [value?, if_pos (by omega)]
    exact congrArg some (by omega)
  next hhigh =>
    rw [value?, if_neg (by omega), if_pos (by omega)]
    exact congrArg some (by omega)

end Hex
