import Mathlib.Data.List.Basic
import Mathlib.Algebra.BigOperators.Group.List.Basic
import Mathlib.Algebra.GroupWithZero.Nat

/-!
# Tallies over the members of a list

A ledger is a list of members, of which a step changes one or adds one.
What is summed or counted over the members then changes by what that one
member contributes.
-/

namespace Tally

universe u

variable {α : Type u}

/-- The sum of a count over a list, for invariants that weigh one list against
another. -/
def tally (f : α → Nat) (l : List α) : Nat := (l.map f).sum

@[simp] theorem tally_nil (f : α → Nat) : tally f [] = 0 := rfl

@[simp] theorem tally_cons (f : α → Nat) (a : α) (l : List α) :
    tally f (a :: l) = f a + tally f l := by
  simp [tally]

theorem tally_append (f : α → Nat) (l l' : List α) :
    tally f (l ++ l') = tally f l + tally f l' := by
  simp [tally]

/-- What changing one member changes. -/
theorem tally_modify (f : α → Nat) (g : α → α) {l : List α} {i : Nat} {a : α}
    (h : l[i]? = some a) : tally f (l.modify i g) + f a = tally f l + f (g a) := by
  induction l generalizing i with
  | nil => simp at h
  | cons b l ih =>
      cases i with
      | zero =>
          obtain rfl : b = a := by simpa using h
          simp only [List.modify_zero_cons, tally_cons]
          omega
      | succ i =>
          have hi := ih (i := i) (by simpa using h)
          simp only [List.modify_succ_cons, tally_cons]
          omega

theorem tally_modify_of_eq (f : α → Nat) (g : α → α) (hg : ∀ a, f (g a) = f a) (l : List α)
    (i : Nat) : tally f (l.modify i g) = tally f l := by
  cases h : l[i]? with
  | none => rw [List.modify_eq_self (List.getElem?_eq_none_iff.mp h)]
  | some a =>
      have := tally_modify f g h
      rw [hg a] at this
      omega

theorem tally_eq_zero {f : α → Nat} {l : List α} : tally f l = 0 ↔ ∀ a ∈ l, f a = 0 := by
  induction l with
  | nil => simp
  | cons b l ih => simp [ih]

/-- The members of a changed list. -/
theorem getElem?_modify_eq_some {l : List α} {i j : Nat} {g : α → α} {b : α}
    (h : (l.modify i g)[j]? = some b) : ∃ a, l[j]? = some a ∧ b = if i = j then g a else a := by
  rw [List.getElem?_modify] at h
  obtain ⟨a, ha, rfl⟩ := Option.map_eq_some_iff.mp h
  exact ⟨a, ha, rfl⟩

theorem getElem?_modify_self {l : List α} {i : Nat} {a : α} (h : l[i]? = some a) (g : α → α) :
    (l.modify i g)[i]? = some (g a) := by
  rw [List.getElem?_modify, h]
  simp

theorem getElem?_modify_ne {l : List α} {i j : Nat} (h : i ≠ j) (g : α → α) :
    (l.modify i g)[j]? = l[j]? := by
  rw [List.getElem?_modify]
  simp [h]

/-- Two changes that agree on the member changed. -/
theorem modify_congr {l : List α} {i : Nat} {a : α} (h : l[i]? = some a) {f g : α → α}
    (hfg : f a = g a) : l.modify i f = l.modify i g := by
  refine List.ext_getElem? fun j => ?_
  by_cases hij : i = j
  · rw [← hij, getElem?_modify_self h, getElem?_modify_self h, hfg]
  · rw [getElem?_modify_ne hij, getElem?_modify_ne hij]

/-- The members of a list with a new one. -/
theorem getElem?_concat_eq_some {l : List α} {i : Nat} {a b : α} (h : (l ++ [b])[i]? = some a) :
    l[i]? = some a ∨ i = l.length ∧ a = b := by
  rcases Nat.lt_trichotomy i l.length with hlt | heq | hgt
  · rw [List.getElem?_append_left hlt] at h
    exact .inl h
  · subst heq
    rw [List.getElem?_concat_length] at h
    exact .inr ⟨rfl, (Option.some.inj h).symm⟩
  · rw [List.getElem?_append_right (Nat.le_of_lt hgt)] at h
    have : i - l.length ≠ 0 := by omega
    simp [this] at h

theorem getElem?_concat_of_some {l : List α} {i : Nat} {a : α} (h : l[i]? = some a) (b : α) :
    (l ++ [b])[i]? = some a := by
  rw [List.getElem?_append_left (List.getElem?_eq_some_iff.mp h).1]
  exact h

/-- What the members of two lists carry, place by place. A place that a list does
not have carries nothing. -/
theorem flatMap_eq_of_getElem? {β : Type u} {f : α → List β} {l l' : List α}
    (h : ∀ j : Nat, (l[j]?.map f).getD [] = (l'[j]?.map f).getD []) : l.flatMap f = l'.flatMap f := by
  induction l generalizing l' with
  | nil =>
      refine (List.flatMap_eq_nil_iff.mpr fun b hb => ?_).symm
      obtain ⟨j, hj⟩ := List.mem_iff_getElem?.mp hb
      have hcarried := h j
      rw [hj] at hcarried
      exact hcarried.symm
  | cons a l ih =>
      have hhead := h 0
      cases l' with
      | nil =>
          have hrest : l.flatMap f = [].flatMap f := ih fun j => h (j + 1)
          rw [List.flatMap_cons, hrest]
          exact (List.append_nil _).trans hhead
      | cons b l' =>
          have hrest : l.flatMap f = l'.flatMap f := ih fun j => h (j + 1)
          rw [List.flatMap_cons, List.flatMap_cons, hrest]
          exact congrArg (· ++ _) hhead

/-! ## Counting -/

/-- Counting is the tally of an indicator. -/
theorem countP_eq_tally (p : α → Bool) (l : List α) :
    l.countP p = tally (fun a => if p a then 1 else 0) l := by
  induction l with
  | nil => rfl
  | cons a l ih =>
      rw [List.countP_cons, tally_cons, ih, Nat.add_comm]

theorem countP_modify (p : α → Bool) (g : α → α) {l : List α} {i : Nat} {a : α}
    (h : l[i]? = some a) :
    (l.modify i g).countP p + (if p a then 1 else 0) = l.countP p + (if p (g a) then 1 else 0) := by
  rw [countP_eq_tally, countP_eq_tally]
  exact tally_modify (fun a => if p a then 1 else 0) g h

theorem countP_modify_of_eq (p : α → Bool) (g : α → α) (hg : ∀ a, p (g a) = p a) (l : List α)
    (i : Nat) : (l.modify i g).countP p = l.countP p := by
  rw [countP_eq_tally, countP_eq_tally]
  exact tally_modify_of_eq _ g (fun a => by rw [hg a]) l i

/-- Counting two things that no member is at once. -/
theorem countP_or {p q r : α → Bool} {l : List α}
    (h : ∀ a ∈ l, (if p a then 1 else 0) = (if q a then 1 else 0) + if r a then 1 else 0) :
    l.countP p = l.countP q + l.countP r := by
  induction l with
  | nil => rfl
  | cons a l ih =>
      have ha := h a (by simp)
      have hl := ih fun b hb => h b (by simp [hb])
      rw [List.countP_cons, List.countP_cons, List.countP_cons]
      omega

/-- Counting members by where they are. -/
theorem countP_range (p : α → Bool) (l : List α) :
    (List.range l.length).countP (fun i => (l[i]?).any p) = l.countP p := by
  induction l with
  | nil => rfl
  | cons a l ih =>
      rw [List.length_cons, List.range_succ_eq_map, List.countP_cons, List.countP_cons,
        List.countP_map, ← ih]
      rfl

/-- Members that do not count can be dropped. -/
theorem countP_take {p : α → Bool} {l : List α} {n : Nat} (h : ∀ a ∈ l.drop n, p a = false) :
    (l.take n).countP p = l.countP p := by
  have hdrop : (l.drop n).countP p = 0 := List.countP_eq_zero.mpr fun a ha => by simp [h a ha]
  have happ := congrArg (List.countP p) (List.take_append_drop n l)
  rw [List.countP_append, hdrop] at happ
  omega

end Tally
