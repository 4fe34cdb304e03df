import Mathlib.Data.List.Basic

/-!
# Consecutive members

`Consecutive R i j l`: the members of `l` are in turn an `i`-th, an
`i + 1`-st and so on, up to a `j - 1`-st, where `R k a` says that `a` may
stand for `k`. A queue that is filled at `j` and emptied at `i` is one.
-/

universe u

/-- The entries of the list stand for the numbers from `i` up to `j`, in order and
without a gap. -/
inductive Consecutive {α : Type u} (R : Nat → α → Prop) : Nat → Nat → List α → Prop where
  | nil (i : Nat) : Consecutive R i i []
  | cons {i j : Nat} {a : α} {l : List α} (h : R i a) (t : Consecutive R (i + 1) j l) :
      Consecutive R i j (a :: l)

namespace Consecutive

variable {α : Type u} {R : Nat → α → Prop} {i j : Nat} {a : α} {l : List α}

theorem add_length (h : Consecutive R i j l) : i + l.length = j := by
  induction h with
  | nil => rfl
  | cons _ _ ih =>
      rw [List.length_cons]
      omega

theorem le (h : Consecutive R i j l) : i ≤ j := by
  have := h.add_length
  omega

theorem of_nil (h : Consecutive R i j []) : i = j := h.add_length

theorem head (h : Consecutive R i j (a :: l)) : R i a ∧ Consecutive R (i + 1) j l := by
  cases h with
  | cons h t => exact ⟨h, t⟩

/-- One more at the end. -/
theorem snoc (h : Consecutive R i j l) (ha : R j a) : Consecutive R i (j + 1) (l ++ [a]) := by
  induction h with
  | nil i => exact .cons ha (.nil _)
  | cons h _ ih => exact .cons h (ih ha)

/-- Every member stands for some number in range. -/
theorem mem (h : Consecutive R i j l) (ha : a ∈ l) : ∃ k, i ≤ k ∧ k < j ∧ R k a := by
  induction h with
  | nil => cases ha
  | @cons i j b l hb t ih =>
      have := t.le
      rcases List.mem_cons.mp ha with rfl | ha
      · exact ⟨i, Nat.le_refl i, by omega, hb⟩
      · obtain ⟨k, hk, hlt, hR⟩ := ih ha
        exact ⟨k, by omega, hlt, hR⟩

end Consecutive
