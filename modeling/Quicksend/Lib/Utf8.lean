import Quicksend.Lib.Urlencoded
import Mathlib.Data.UInt

/-!
# UTF-8 text

Two ways to read bytes that may not be UTF-8: a replacement character for every
maximal piece of a character (`Urlencoded.decodeUtf8`), or one for every byte that
begins no character (`runes`). What was encoded from characters comes back from both.
-/

namespace Utf8

open Urlencoded (Pending lead feed replacement decodeFrom decodeUtf8)

/-- The UTF-8 of a text: the bytes of its characters one after the other. -/
def encode (s : List Char) : List UInt8 := s.flatMap String.utf8EncodeChar

/-- The rest of a character, and the width of what was read with it. -/
def complete (p : Pending) (width : Nat) : List UInt8 → Char × Nat
  | [] => (replacement, 1)
  | b :: bs =>
      if b.toNat < p.lower ∨ p.upper < b.toNat then (replacement, 1)
      else
        match feed p b.toNat with
        | (_, [c]) => (c, width + 1)
        | (p, _) => complete p (width + 1) bs

/-- The first character of the bytes, and its width. -/
def decodeRune : List UInt8 → Char × Nat
  | [] => (replacement, 0)
  | b :: bs =>
      match lead b.toNat with
      | (_, [c]) => (c, 1)
      | (p, _) => complete p 1 bs

/-- The characters of the bytes, past the first `skip`. -/
def runesFrom : Nat → List UInt8 → List Char
  | _, [] => []
  | skip + 1, _ :: bs => runesFrom skip bs
  | 0, b :: bs => (decodeRune (b :: bs)).1 :: runesFrom ((decodeRune (b :: bs)).2 - 1) bs

/-- The text that Go reads from bytes, with U+FFFD in the place of each byte that
is no UTF-8. -/
def runes (bs : List UInt8) : List Char := runesFrom 0 bs

/-! ## The bytes of a character -/

/-- The bits that are sent in the bytes of a character. -/
inductive Encoded (c : Char) : List UInt8 → Prop where
  | one (a : UInt8) (ha : a.toNat ≤ 0x7F) (hc : Char.ofNat a.toNat = c) : Encoded c [a]
  | two (a b : UInt8) (ha : 0xC2 ≤ a.toNat ∧ a.toNat ≤ 0xDF) (hb : 0x80 ≤ b.toNat ∧ b.toNat ≤ 0xBF)
      (hc : Char.ofNat (a.toNat % 0x20 * 0x40 + b.toNat % 0x40) = c) : Encoded c [a, b]
  | three (a b d : UInt8) (ha : 0xE0 ≤ a.toNat ∧ a.toNat ≤ 0xEF)
      (hb : (if a.toNat = 0xE0 then 0xA0 else 0x80) ≤ b.toNat ∧
        b.toNat ≤ if a.toNat = 0xED then 0x9F else 0xBF)
      (hd : 0x80 ≤ d.toNat ∧ d.toNat ≤ 0xBF)
      (hc : Char.ofNat ((a.toNat % 0x10 * 0x40 + b.toNat % 0x40) * 0x40 + d.toNat % 0x40) = c) :
      Encoded c [a, b, d]
  | four (a b d e : UInt8) (ha : 0xF0 ≤ a.toNat ∧ a.toNat ≤ 0xF4)
      (hb : (if a.toNat = 0xF0 then 0x90 else 0x80) ≤ b.toNat ∧
        b.toNat ≤ if a.toNat = 0xF4 then 0x8F else 0xBF)
      (hd : 0x80 ≤ d.toNat ∧ d.toNat ≤ 0xBF) (he : 0x80 ≤ e.toNat ∧ e.toNat ≤ 0xBF)
      (hc : Char.ofNat (((a.toNat % 0x08 * 0x40 + b.toNat % 0x40) * 0x40 + d.toNat % 0x40) * 0x40 +
        e.toNat % 0x40) = c) : Encoded c [a, b, d, e]

theorem toNat_ofNat {n : Nat} (h : n < 256) : (UInt8.ofNat n).toNat = n :=
  UInt8.toNat_ofNat_of_lt' h

theorem encoded_utf8EncodeChar (c : Char) : Encoded c (String.utf8EncodeChar c) := by
  have hvalid : c.val.toNat < 0xD800 ∨ 0xDFFF < c.val.toNat ∧ c.val.toNat < 0x110000 := c.valid
  have hback : Char.ofNat c.val.toNat = c := Char.ofNat_toNat c
  rw [String.utf8EncodeChar]
  generalize c.val.toNat = v at hvalid hback
  split
  next h =>
    have ha := toNat_ofNat (n := v) (by omega)
    exact .one _ (by rw [ha]; exact h) (by rw [ha, hback])
  next h1 =>
    split
    next h2 =>
      have ha := toNat_ofNat (n := v / 64 % 0x20 + 0xc0) (by omega)
      have hb := toNat_ofNat (n := v % 0x40 + 0x80) (by omega)
      refine .two _ _ ?_ ?_ ?_
      · rw [ha]; omega
      · rw [hb]; omega
      · rw [ha, hb, ← hback]
        congr 1
        omega
    next h2 =>
      split
      next h3 =>
        have ha := toNat_ofNat (n := v / 4096 % 0x10 + 0xe0) (by omega)
        have hb := toNat_ofNat (n := v / 64 % 0x40 + 0x80) (by omega)
        have hd := toNat_ofNat (n := v % 0x40 + 0x80) (by omega)
        refine .three _ _ _ ?_ ?_ ?_ ?_
        · rw [ha]; omega
        · -- no character is short enough for two bytes, and none is a surrogate
          rw [ha, hb]
          split <;> split <;> omega
        · rw [hd]; omega
        · rw [ha, hb, hd, ← hback]
          congr 1
          omega
      next h3 =>
        have ha := toNat_ofNat (n := v / 262144 % 0x08 + 0xf0) (by omega)
        have hb := toNat_ofNat (n := v / 4096 % 0x40 + 0x80) (by omega)
        have hd := toNat_ofNat (n := v / 64 % 0x40 + 0x80) (by omega)
        have he := toNat_ofNat (n := v % 0x40 + 0x80) (by omega)
        refine .four _ _ _ _ ?_ ?_ ?_ ?_ ?_
        · rw [ha]; omega
        · rw [ha, hb]
          split <;> split <;> omega
        · rw [hd]; omega
        · rw [he]; omega
        · rw [ha, hb, hd, he, ← hback]
          congr 1
          omega

/-! ## What was encoded comes back -/

/-- What is known after a first byte, when more are to come. -/
theorem lead_two {b : Nat} (h : 0xC2 ≤ b ∧ b ≤ 0xDF) :
    lead b = (⟨1, b % 0x20, 0x80, 0xBF⟩, []) := by
  rw [lead, if_neg (by omega), if_pos h]
  rfl

theorem lead_three {b : Nat} (h : 0xE0 ≤ b ∧ b ≤ 0xEF) :
    lead b = (⟨2, b % 0x10, if b = 0xE0 then 0xA0 else 0x80, if b = 0xED then 0x9F else 0xBF⟩,
      []) := by
  rw [lead, if_neg (by omega), if_neg (by omega), if_pos h]

theorem lead_four {b : Nat} (h : 0xF0 ≤ b ∧ b ≤ 0xF4) :
    lead b = (⟨3, b % 0x08, if b = 0xF0 then 0x90 else 0x80, if b = 0xF4 then 0x8F else 0xBF⟩,
      []) := by
  rw [lead, if_neg (by omega), if_neg (by omega), if_neg (by omega), if_pos h]

variable {need bits lower upper b : Nat}

theorem within {n : Nat} (hb : lower ≤ n ∧ n ≤ upper) : ¬ (n < lower ∨ upper < n) := by omega

/-- A byte within the bounds goes on with the character. -/
theorem feed_next (hb : lower ≤ b ∧ b ≤ upper) :
    feed ⟨need + 1, bits, lower, upper⟩ b =
      if need = 0 then (.none, [Char.ofNat (bits * 0x40 + b % 0x40)])
      else (⟨need, bits * 0x40 + b % 0x40, 0x80, 0xBF⟩, []) := by
  rw [feed]
  exact if_neg (within hb)

theorem feed_last (hb : lower ≤ b ∧ b ≤ upper) :
    feed ⟨1, bits, lower, upper⟩ b = (.none, [Char.ofNat (bits * 0x40 + b % 0x40)]) :=
  (feed_next hb).trans (if_pos rfl)

theorem feed_more (hb : lower ≤ b ∧ b ≤ upper) :
    feed ⟨need + 2, bits, lower, upper⟩ b = (⟨need + 1, bits * 0x40 + b % 0x40, 0x80, 0xBF⟩, []) :=
  (feed_next hb).trans (if_neg (Nat.succ_ne_zero need))

/-- The decoder reads the bytes of a character as that character. -/
theorem decodeFrom_encoded {c : Char} {bs : List UInt8} (h : Encoded c bs) (rest : List UInt8) :
    decodeFrom .none (bs ++ rest) = c :: decodeFrom .none rest := by
  have hlead (b : Nat) : feed .none b = lead b := rfl
  cases h with
  | one a ha hc =>
      rw [List.cons_append, List.nil_append, decodeFrom, hlead, lead, if_pos ha, hc]
      rfl
  | two a b ha hb hc =>
      simp only [List.cons_append, List.nil_append, decodeFrom, hlead, lead_two ha, feed_last hb, hc]
  | three a b d ha hb hd hc =>
      simp only [List.cons_append, List.nil_append, decodeFrom, hlead, lead_three ha,
        feed_more hb, feed_last hd, hc]
  | four a b d e ha hb hd he hc =>
      simp only [List.cons_append, List.nil_append, decodeFrom, hlead, lead_four ha,
        feed_more hb, feed_more hd, feed_last he, hc]

theorem decodeUtf8_encode (s : List Char) : decodeUtf8 (encode s) = s := by
  induction s with
  | nil => rfl
  | cons c s ih =>
      rw [encode, List.flatMap_cons, decodeUtf8, decodeFrom_encoded (encoded_utf8EncodeChar c)]
      exact congrArg (c :: ·) ih

theorem complete_last {width : Nat} {b : UInt8} (hb : lower ≤ b.toNat ∧ b.toNat ≤ upper)
    (bs : List UInt8) :
    complete ⟨1, bits, lower, upper⟩ width (b :: bs) =
      (Char.ofNat (bits * 0x40 + b.toNat % 0x40), width + 1) := by
  rw [complete, feed_last hb]
  exact if_neg (within hb)

theorem complete_more {width : Nat} {b : UInt8} (hb : lower ≤ b.toNat ∧ b.toNat ≤ upper)
    (bs : List UInt8) :
    complete ⟨need + 2, bits, lower, upper⟩ width (b :: bs) =
      complete ⟨need + 1, bits * 0x40 + b.toNat % 0x40, 0x80, 0xBF⟩ (width + 1) bs := by
  rw [complete, feed_more hb]
  exact if_neg (within hb)

theorem decodeRune_encoded {c : Char} {bs : List UInt8} (h : Encoded c bs) (rest : List UInt8) :
    decodeRune (bs ++ rest) = (c, bs.length) := by
  cases h with
  | one a ha hc =>
      rw [List.cons_append, decodeRune, lead, if_pos ha]
      exact congrArg (·, 1) hc
  | two a b ha hb hc =>
      rw [List.cons_append, decodeRune, lead_two ha, List.cons_append]
      exact (complete_last hb _).trans (congrArg (·, 2) hc)
  | three a b d ha hb hd hc =>
      rw [List.cons_append, decodeRune, lead_three ha, List.cons_append, List.cons_append]
      exact (complete_more hb _).trans ((complete_last hd _).trans (congrArg (·, 3) hc))
  | four a b d e ha hb hd he hc =>
      rw [List.cons_append, decodeRune, lead_four ha, List.cons_append, List.cons_append,
        List.cons_append]
      exact (complete_more hb _).trans ((complete_more hd _).trans
        ((complete_last he _).trans (congrArg (·, 4) hc)))

theorem runesFrom_length (bs rest : List UInt8) : runesFrom bs.length (bs ++ rest) = runes rest := by
  induction bs with
  | nil => rfl
  | cons b bs ih => exact ih

theorem Encoded.ne_nil {c : Char} {bs : List UInt8} (h : Encoded c bs) : bs ≠ [] := by
  cases h <;> simp

theorem runes_encode (s : List Char) : runes (encode s) = s := by
  induction s with
  | nil => rfl
  | cons c s ih =>
      have hc := encoded_utf8EncodeChar c
      have hrune := decodeRune_encoded hc (encode s)
      rw [encode, List.flatMap_cons, ← encode]
      generalize String.utf8EncodeChar c = bs at hc hrune
      cases bs with
      | nil => exact absurd rfl hc.ne_nil
      | cons b bs =>
          rw [runes, List.cons_append, runesFrom, ← List.cons_append, hrune]
          exact congrArg (c :: ·) ((runesFrom_length bs _).trans ih)

end Utf8
