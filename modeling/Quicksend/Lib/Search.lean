import Mathlib.Data.Finset.Card
import Mathlib.Data.Finset.Image
import Mathlib.Order.Interval.Finset.Nat

/-!
# The first value that is not taken

A search goes through the values of a sequence until one is not in a finite set.
When no value comes twice it ends, at the latest one step after there was one for
each member of the set.
-/

namespace Search

universe u

variable {α : Type u} [DecidableEq α] {f : Nat → α} {s : Finset α} {a : α}

/-- The first of `f i`, `f (i + 1)`, ... that is not in `s`, among as many values as
there is fuel. -/
def firstFree (f : Nat → α) (s : Finset α) : Nat → Nat → Option α
  | 0, _ => none
  | fuel + 1, i => if f i ∈ s then firstFree f s fuel (i + 1) else some (f i)

/-- What was found is free, and nothing before it is. -/
theorem firstFree_spec {fuel i : Nat} (h : firstFree f s fuel i = some a) :
    ∃ k, i ≤ k ∧ a = f k ∧ a ∉ s ∧ ∀ j, i ≤ j → j < k → f j ∈ s := by
  induction fuel generalizing i with
  | zero => cases h
  | succ fuel ih =>
      rw [firstFree] at h
      split at h
      next htaken =>
        obtain ⟨k, hik, hk, hfree, hbefore⟩ := ih h
        refine ⟨k, by omega, hk, hfree, fun j hij hjk => ?_⟩
        by_cases hj : j = i
        · rwa [hj]
        · exact hbefore j (by omega) hjk
      next hfree =>
        obtain rfl := Option.some.inj h
        exact ⟨i, le_refl i, rfl, hfree, fun j hij hji => by omega⟩

/-- A free value within reach is enough. -/
theorem firstFree_isSome {fuel i k : Nat} (hik : i ≤ k) (hk : k < i + fuel) (hfree : f k ∉ s) :
    (firstFree f s fuel i).isSome = true := by
  induction fuel generalizing i with
  | zero => omega
  | succ fuel ih =>
      rw [firstFree]
      split
      next htaken =>
        have hne : k ≠ i := fun heq => hfree (heq ▸ htaken)
        exact ih (by omega) (by omega)
      next => rfl

theorem firstFree_mono {fuel fuel' i : Nat} (hle : fuel ≤ fuel')
    (h : firstFree f s fuel i = some a) : firstFree f s fuel' i = some a := by
  induction fuel generalizing fuel' i with
  | zero => cases h
  | succ fuel ih =>
      obtain ⟨fuel', rfl⟩ : ∃ n, fuel' = n + 1 := ⟨fuel' - 1, by omega⟩
      rw [firstFree] at h ⊢
      split at h
      next htaken =>
        rw [if_pos htaken]
        exact ih (by omega) h
      next hfree =>
        rw [if_neg hfree]
        exact h

/-- As many different values as `s` has members, and one more, are not all in `s`. -/
theorem exists_free (hf : Function.Injective f) (s : Finset α) (i : Nat) :
    ∃ k, i ≤ k ∧ k ≤ i + s.card ∧ f k ∉ s := by
  by_contra hnone
  have hsub : (Finset.Icc i (i + s.card)).image f ⊆ s := by
    intro a ha
    obtain ⟨k, hk, rfl⟩ := Finset.mem_image.mp ha
    obtain ⟨hik, hki⟩ := Finset.mem_Icc.mp hk
    by_contra hfree
    exact hnone ⟨k, hik, hki, hfree⟩
  have hcard := Finset.card_le_card hsub
  rw [Finset.card_image_of_injective _ hf, Nat.card_Icc] at hcard
  omega

/-- **The search ends**, and with the same value however much fuel there is. -/
theorem exists_firstFree (hf : Function.Injective f) (s : Finset α) (i : Nat) :
    ∃ a, ∀ fuel, s.card < fuel → firstFree f s fuel i = some a := by
  obtain ⟨k, hik, hki, hfree⟩ := exists_free hf s i
  have hsome : (firstFree f s (s.card + 1) i).isSome = true :=
    firstFree_isSome hik (by omega) hfree
  obtain ⟨a, ha⟩ := Option.isSome_iff_exists.mp hsome
  exact ⟨a, fun fuel hfuel => firstFree_mono hfuel ha⟩

end Search
