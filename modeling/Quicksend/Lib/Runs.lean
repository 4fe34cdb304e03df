import Mathlib.Data.List.Induction

/-!
# Runs of a list

A list is split into runs of members with one key. A run ends where a member
has another key, or once it is closed.
-/

namespace Runs

universe u v

variable {α : Type u} {κ : Type v} [DecidableEq κ] (key : α → κ) (closed : List α → Bool)

/-- The run goes on with `a`: it has the run's key, and the run has not been
closed. -/
def joins (r : List α) (a : α) : Bool := r.all (fun b => key b = key a) && !closed r

/-- One more member; the last run comes first. -/
def add : List (List α) → α → List (List α)
  | [], a => [[a]]
  | r :: rs, a => if joins key closed r a then (r ++ [a]) :: rs else [a] :: r :: rs

/-- The list cut into its runs: neighbours of one key stay together, as long as
the run has not been closed. -/
def runs (l : List α) : List (List α) := l.foldl (add key closed) []

/-- The members of the run of `a` that come before it, after `l`. -/
def before (l : List α) (a : α) : List α :=
  match runs key closed l with
  | [] => []
  | r :: _ => if joins key closed r a then r else []

theorem runs_concat (l : List α) (a : α) :
    runs key closed (l ++ [a]) = add key closed (runs key closed l) a := by
  rw [runs, List.foldl_append]
  rfl

/-- The last run is the one of the last member. -/
theorem runs_concat_head (l : List α) (a : α) :
    ∃ rs, runs key closed (l ++ [a]) = (before key closed l a ++ [a]) :: rs := by
  rw [runs_concat, before]
  cases runs key closed l with
  | nil => exact ⟨[], rfl⟩
  | cons r rs =>
      dsimp only [add]
      split
      next => exact ⟨rs, rfl⟩
      next => exact ⟨r :: rs, rfl⟩

/-- The runs are the list. -/
theorem flatten_runs (l : List α) : (runs key closed l).reverse.flatten = l := by
  induction l using List.reverseRecOn with
  | nil => rfl
  | append_singleton l a ih =>
      rw [runs_concat]
      cases hruns : runs key closed l with
      | nil =>
          rw [hruns] at ih
          rw [← ih]
          rfl
      | cons r rs =>
          rw [hruns] at ih
          rw [← ih]
          dsimp only [add]
          split <;> simp

variable {key closed}

/-- The last run is where the list ends. -/
theorem suffix_of_runs {l r : List α} {rs : List (List α)} (h : runs key closed l = r :: rs) :
    r <:+ l := by
  refine ⟨rs.reverse.flatten, ?_⟩
  have hflatten := flatten_runs key closed l
  rw [h] at hflatten
  rw [← hflatten]
  simp

theorem before_suffix (l : List α) (a : α) : before key closed l a <:+ l := by
  rw [before]
  split
  next => exact List.nil_suffix
  next r rs hruns =>
    split
    next => exact suffix_of_runs hruns
    next => exact List.nil_suffix

/-- The members of a run have one key. -/
theorem key_of_mem_before {l : List α} {a b : α} (h : b ∈ before key closed l a) :
    key b = key a := by
  rw [before] at h
  split at h
  next => cases h
  next r rs hruns =>
    split at h
    next hjoins =>
      rw [joins, Bool.and_eq_true] at hjoins
      exact of_decide_eq_true (List.all_eq_true.mp hjoins.1 b h)
    next => cases h

end Runs
