import Mathlib.Data.List.Nodup
import Mathlib.Data.List.Perm.Subperm
import Mathlib.Logic.Function.Basic

/-!
# Two partial maps that are inverse

Who has what, and what is had by whom: each map says what the other one says
from the other side. It stays so when something that is free is taken by one who
has nothing, and when it is given back.
-/

universe u v

variable {α : Type u} {β : Type v}

/-- Two partial functions that are each other's inverse: either one gives a value
just where the other gives it back. -/
def Inverse (f : α → Option β) (g : β → Option α) : Prop := ∀ a b, f a = some b ↔ g b = some a

namespace Inverse

variable {f : α → Option β} {g : β → Option α} {a : α} {b : β}

/-- One cannot have two things. -/
theorem left_unique (h : Inverse f g) {a' : α} (ha : f a = some b) (ha' : f a' = some b) :
    a = a' := by
  have hb := (h a b).mp ha
  rw [(h a' b).mp ha'] at hb
  exact (Option.some.inj hb).symm

/-- As many things are had as there are those who have one. -/
theorem countP_le (h : Inverse f g) {l : List α} {m : List β} (hl : l.Nodup)
    (hm : ∀ b, (g b).isSome = true → b ∈ m) (p : β → Bool) :
    l.countP (fun a => (f a).any p) ≤ m.countP fun b => (g b).isSome && p b := by
  classical
  have hnodup : (l.filterMap fun a => (f a).filter p).Nodup := by
    refine List.Nodup.filterMap (fun a a' b hb hb' => ?_) hl
    exact h.left_unique (Option.filter_eq_some_iff.mp hb).1 (Option.filter_eq_some_iff.mp hb').1
  have hsub : (l.filterMap fun a => (f a).filter p) ⊆ m.filter fun b => (g b).isSome && p b := by
    intro b hb
    obtain ⟨a, -, hab⟩ := List.mem_filterMap.mp hb
    obtain ⟨hab, hp⟩ := Option.filter_eq_some_iff.mp hab
    have hg : (g b).isSome = true := by rw [(h a b).mp hab]; rfl
    exact List.mem_filter.mpr ⟨hm b hg, by rw [hg, hp]; rfl⟩
  have hle := (List.subperm_of_subset hnodup hsub).length_le
  have hlen : (l.filterMap fun a => (f a).filter p).length = l.countP fun a => (f a).any p := by
    rw [List.length_filterMap_eq_countP]
    refine List.countP_congr fun a _ => ?_
    cases f a with
    | none => simp
    | some b => cases hp : p b <;> simp [hp]
  rw [hlen, ← List.countP_eq_length_filter] at hle
  exact hle

variable [DecidableEq α] [DecidableEq β]

theorem take (h : Inverse f g) (ha : f a = none) (hb : g b = none) :
    Inverse (Function.update f a (some b)) (Function.update g b (some a)) := by
  intro a' b'
  by_cases haa : a' = a
  · subst haa
    rw [Function.update_self]
    by_cases hbb : b' = b
    · subst hbb
      rw [Function.update_self]
      simp
    · rw [Function.update_of_ne hbb, ← h, ha]
      simp [Ne.symm hbb]
  · rw [Function.update_of_ne haa, h]
    by_cases hbb : b' = b
    · subst hbb
      rw [Function.update_self, hb]
      simp [Ne.symm haa]
    · rw [Function.update_of_ne hbb]

theorem give (h : Inverse f g) (hab : f a = some b) :
    Inverse (Function.update f a none) (Function.update g b none) := by
  intro a' b'
  by_cases haa : a' = a
  · subst haa
    rw [Function.update_self]
    by_cases hbb : b' = b
    · subst hbb
      rw [Function.update_self]
      simp
    · rw [Function.update_of_ne hbb, ← h, hab]
      simp [Ne.symm hbb]
  · rw [Function.update_of_ne haa]
    by_cases hbb : b' = b
    · subst hbb
      rw [Function.update_self, h, (h a b').mp hab]
      simp [Ne.symm haa]
    · rw [Function.update_of_ne hbb]
      exact h a' b'

end Inverse
