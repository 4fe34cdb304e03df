import Quicksend.Lib.Hex
import Mathlib.Data.List.Basic
import Mathlib.Data.List.Range
import Mathlib.Tactic.Ring

/-!
# Byte strings, big-endian integers and the hex of `hex.js`

`Bytes` is a `Uint8Array`. A JavaScript string is the list of its UTF-16
code units, so that `length`, `substr` and `===` mean what they mean in
the source. `fromHex` follows `parseInt` on arbitrary text, since the
relay chooses the strings it is applied to.
-/

namespace Quicksend

/-- A `Uint8Array` in the browser and a `[]byte` in Go, read here as the list of
its bytes. -/
abbrev Bytes := List UInt8

/-- A JavaScript string, as its UTF-16 code units. -/
abbrev JSString := List UInt16

/-! ## Big-endian integers -/

/-- The low `k` bytes of `n`, most significant first: `DataView.setUint32`
and `setBigUint64` at `k = 4` and `k = 8`, which both drop what does not
fit. -/
def beBytes : Nat → Nat → Bytes
  | 0, _ => []
  | k + 1, n => UInt8.ofNat (n / 256 ^ k) :: beBytes k n

/-- The integer that a byte string spells in big-endian order; the empty string
spells zero. -/
def beNat (bs : Bytes) : Nat :=
  bs.foldl (fun acc b => acc * 256 + b.toNat) 0

@[simp] theorem beBytes_length (k n : Nat) : (beBytes k n).length = k := by
  induction k with
  | zero => rfl
  | succ k ih => simp [beBytes, ih]

theorem foldl_beBytes (k n acc : Nat) :
    (beBytes k n).foldl (fun acc b => acc * 256 + b.toNat) acc
      = acc * 256 ^ k + n % 256 ^ k := by
  induction k generalizing acc with
  | zero => simp [beBytes, Nat.mod_one]
  | succ k ih =>
      have hsplit : n % 256 ^ (k + 1) = n / 256 ^ k % 256 * 256 ^ k + n % 256 ^ k := by
        rw [Nat.pow_succ, Nat.mod_mul, Nat.mul_comm (256 ^ k)]
        omega
      have hbyte : (UInt8.ofNat (n / 256 ^ k)).toNat = n / 256 ^ k % 256 :=
        UInt8.toNat_ofNat'
      rw [beBytes, List.foldl_cons, ih, hbyte, hsplit, Nat.pow_succ]
      ring

theorem beNat_beBytes (k n : Nat) : beNat (beBytes k n) = n % 256 ^ k := by
  simpa [beNat] using foldl_beBytes k n 0

theorem beNat_lt (bs : Bytes) : beNat bs < 256 ^ bs.length := by
  have hfold (acc : Nat) :
      bs.foldl (fun acc b => acc * 256 + b.toNat) acc < (acc + 1) * 256 ^ bs.length := by
    induction bs generalizing acc with
    | nil => simp
    | cons b bs ih =>
        have hb := b.toNat_lt
        calc (b :: bs).foldl (fun acc b => acc * 256 + b.toNat) acc
            < (acc * 256 + b.toNat + 1) * 256 ^ bs.length := ih _
          _ ≤ ((acc + 1) * 256) * 256 ^ bs.length := Nat.mul_le_mul_right _ (by omega)
          _ = (acc + 1) * 256 ^ (b :: bs).length := by
              rw [List.length_cons, Nat.pow_succ', Nat.mul_assoc]
  simpa [beNat] using hfold 0

/-- Two integers that fit have different encodings. -/
theorem beBytes_inj {k m n : Nat} (hm : m < 256 ^ k) (hn : n < 256 ^ k)
    (h : beBytes k m = beBytes k n) : m = n := by
  have := congrArg beNat h
  rwa [beNat_beBytes, beNat_beBytes, Nat.mod_eq_of_lt hm, Nat.mod_eq_of_lt hn] at this

/-- What does not fit in the bytes is dropped. -/
theorem beBytes_add_mul (k n m : Nat) : beBytes k (n + m * 256 ^ k) = beBytes k n := by
  induction k generalizing m with
  | zero => rfl
  | succ k ih =>
      have hpos : 0 < 256 ^ k := Nat.pow_pos (by decide)
      have hsplit : n + m * 256 ^ (k + 1) = n + m * 256 * 256 ^ k := by
        rw [Nat.pow_succ]
        ring
      have hbyte : UInt8.ofNat ((n + m * 256 * 256 ^ k) / 256 ^ k) = UInt8.ofNat (n / 256 ^ k) := by
        apply UInt8.toNat_inj.mp
        rw [Nat.add_mul_div_right _ _ hpos, UInt8.toNat_ofNat', UInt8.toNat_ofNat']
        exact Nat.add_mul_mod_self_right ..
      rw [beBytes, beBytes, hsplit, hbyte, ih]

theorem foldl_beNat (bs : Bytes) (acc : Nat) :
    bs.foldl (fun acc b => acc * 256 + b.toNat) acc = acc * 256 ^ bs.length + beNat bs := by
  induction bs generalizing acc with
  | nil => simp [beNat]
  | cons b bs ih =>
      rw [beNat, List.foldl_cons, List.foldl_cons, ih, ih, List.length_cons, Nat.pow_succ]
      ring

/-- An integer read back into as many bytes. -/
theorem beBytes_beNat (bs : Bytes) : beBytes bs.length (beNat bs) = bs := by
  induction bs with
  | nil => rfl
  | cons b bs ih =>
      have hpos : 0 < 256 ^ bs.length := Nat.pow_pos (by decide)
      have hcons : beNat (b :: bs) = beNat bs + b.toNat * 256 ^ bs.length := by
        rw [beNat, List.foldl_cons, foldl_beNat, Nat.zero_mul, Nat.zero_add, Nat.add_comm]
      have hfirst : beNat (b :: bs) / 256 ^ bs.length = b.toNat := by
        rw [hcons, Nat.add_mul_div_right _ _ hpos, Nat.div_eq_of_lt (beNat_lt bs), Nat.zero_add]
      have hrest : beBytes bs.length (beNat (b :: bs)) = beBytes bs.length (beNat bs) := by
        rw [hcons, beBytes_add_mul]
      rw [List.length_cons, beBytes, hfirst, hrest, ih, UInt8.ofNat_toNat]

/-! ## `hex.js` -/

/-- The code unit of a hexadecimal digit, lower case as `toString(16)` writes it. -/
def hexDigit (d : Nat) : UInt16 := UInt16.ofNat (Hex.digit d)

/-- `b.toString(16)`: the hexadecimal digits of a byte, a single one where that is
enough. -/
def toString16 (b : UInt8) : JSString :=
  if b.toNat < 16 then [hexDigit b.toNat]
  else [hexDigit (b.toNat / 16), hexDigit (b.toNat % 16)]

/-- `s.padStart(2, "0")`: zeros in front of what is shorter than two characters,
and nothing else. -/
def padStart2 (s : JSString) : JSString :=
  List.replicate (2 - s.length) 48 ++ s

/-- `toHex`: two lower-case hexadecimal digits for each byte, joined without a
separator. -/
def toHex (bytes : Bytes) : JSString :=
  bytes.flatMap fun b => padStart2 (toString16 b)

/-- The code units `parseInt` skips at the start: white space and line
terminators. -/
def isStrWhiteSpace (c : UInt16) : Bool :=
  c ∈ ([9, 10, 11, 12, 13, 32, 160, 5760, 8232, 8233, 8239, 8287, 12288, 65279] : List UInt16)
    || (8192 ≤ c && c ≤ 8202)

/-- The code unit as a digit of base 16, of either case as `parseInt` takes it. -/
def hexValue? (c : UInt16) : Option Nat := Hex.value? c.toNat

/-- The value of the longest prefix of hexadecimal digits, `none` (NaN)
when there is none. -/
def digitsPrefix (acc : Option Nat) : JSString → Option Nat
  | [] => acc
  | c :: cs =>
      match hexValue? c with
      | some d => digitsPrefix (some (acc.getD 0 * 16 + d)) cs
      | none => acc

/-- An optional `0x` or `0X`, which `parseInt` passes over when the radix is 16. -/
def stripHexPrefix : JSString → JSString
  | 48 :: c :: cs => if c = 120 ∨ c = 88 then cs else 48 :: c :: cs
  | cs => cs

/-- `parseInt(s, 16)`: white space, a sign, a prefix and the longest run of
digits; `none` is NaN. -/
def parseInt16 (s : JSString) : Option Int :=
  match s.dropWhile isStrWhiteSpace with
  | 45 :: cs => (digitsPrefix none (stripHexPrefix cs)).map fun n => -(n : Int)
  | 43 :: cs => (digitsPrefix none (stripHexPrefix cs)).map fun n => (n : Int)
  | cs => (digitsPrefix none (stripHexPrefix cs)).map fun n => (n : Int)

/-- What storing a number into a `Uint8Array` leaves: NaN is 0, the rest
modulo 256. -/
def toUint8 : Option Int → UInt8
  | none => 0
  | some n => UInt8.ofNat (n % 256).toNat

/-- `fromHex`: each pair of characters as `parseInt` reads it, stored as a byte;
an odd last character is left out. -/
def fromHex (hex : JSString) : Bytes :=
  (List.range (hex.length / 2)).map fun i => toUint8 (parseInt16 ((hex.drop (i * 2)).take 2))

/-- Two code units at a time. -/
theorem fromHex_cons (a b : UInt16) (hex : JSString) :
    fromHex (a :: b :: hex) = toUint8 (parseInt16 [a, b]) :: fromHex hex := by
  have hlen : (a :: b :: hex).length / 2 = hex.length / 2 + 1 := by
    simp only [List.length_cons]
    omega
  rw [fromHex, hlen, List.range_succ_eq_map, List.map_cons, List.map_map, fromHex]
  congr 1
  apply List.map_congr_left
  intro i _
  have hi : (i + 1) * 2 = i * 2 + 1 + 1 := by omega
  simp [hi]

set_option maxRecDepth 4000 in
theorem byte_hex (b : UInt8) :
    ∃ x y, padStart2 (toString16 b) = [x, y] ∧ toUint8 (parseInt16 [x, y]) = b := by
  have h : ∀ n : Fin 256, toUint8 (parseInt16 (padStart2 (toString16 (UInt8.ofNat n)))) = UInt8.ofNat n
      ∧ (padStart2 (toString16 (UInt8.ofNat n))).length = 2 := by decide
  obtain ⟨hval, hlen⟩ := h ⟨b.toNat, b.toNat_lt⟩
  rw [show UInt8.ofNat ((⟨b.toNat, b.toNat_lt⟩ : Fin 256) : Nat) = b from UInt8.ofNat_toNat] at hval hlen
  obtain ⟨x, y, hxy⟩ := List.length_eq_two.mp hlen
  exact ⟨x, y, hxy, by rw [← hxy, hval]⟩

theorem fromHex_toHex (bs : Bytes) : fromHex (toHex bs) = bs := by
  induction bs with
  | nil => rfl
  | cons b bs ih =>
      obtain ⟨x, y, hxy, hb⟩ := byte_hex b
      rw [toHex, List.flatMap_cons, hxy]
      simp only [List.cons_append, List.nil_append]
      rw [fromHex_cons, hb]
      exact congrArg (b :: ·) ih

theorem toHex_inj {a b : Bytes} (h : toHex a = toHex b) : a = b := by
  rw [← fromHex_toHex a, h, fromHex_toHex]

end Quicksend
