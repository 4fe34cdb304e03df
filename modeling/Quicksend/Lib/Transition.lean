import Mathlib.Data.List.Basic

/-!
# Runs of an executable transition system

A system is a function `step : σ → ι → Option σ`. The label says what
happens (which event, with which outcome), `none` says that it cannot
happen in this state. A run is a list of labels; a *guarded* run is one
whose every step meets a condition on the state before it and its label.

The induction rules are the only way the developments over this
module reason about runs: what every step preserves holds wherever a run
ends (`invariant`), and what every step meeting the guard preserves holds
wherever a guarded run ends (`Guarded.invariant`). A third bounds the work
of a run by a measure that its steps use up (`Guarded.measure`).
-/

namespace Transition

universe u v

variable {σ : Type u} {ι : Type v}

/-- The state after `ls`, when every label of it was enabled in turn. -/
def run (step : σ → ι → Option σ) : σ → List ι → Option σ
  | s, [] => some s
  | s, l :: ls =>
      match step s l with
      | some t => run step t ls
      | none => none

/-- `g` holds of every step that the labels of `ls` take from `s`. -/
def Guarded (step : σ → ι → Option σ) (g : σ → ι → Prop) : σ → List ι → Prop
  | _, [] => True
  | s, l :: ls =>
      g s l ∧ match step s l with
        | some t => Guarded step g t ls
        | none => True

instance Guarded.decidable (step : σ → ι → Option σ) (g : σ → ι → Prop)
    [∀ s l, Decidable (g s l)] : ∀ s ls, Decidable (Guarded step g s ls)
  | _, [] => isTrue trivial
  | s, l :: ls =>
      have : Decidable (match step s l with
          | some t => Guarded step g t ls
          | none => True) :=
        match step s l with
        | some t => Guarded.decidable step g t ls
        | none => isTrue trivial
      inferInstanceAs (Decidable (_ ∧ _))

variable {step : σ → ι → Option σ}

@[simp] theorem run_nil (s : σ) : run step s [] = some s := rfl

theorem run_cons {s t : σ} {l : ι} (h : step s l = some t) (ls : List ι) :
    run step s (l :: ls) = run step t ls := by
  simp [run, h]

/-- A run that gets past its first label took a first step. -/
theorem run_cons_inv {s u : σ} {l : ι} {ls : List ι}
    (h : run step s (l :: ls) = some u) :
    ∃ t, step s l = some t ∧ run step t ls = some u := by
  rw [run] at h
  split at h
  next t ht => exact ⟨t, ht, h⟩
  next => cases h

/-- A run takes its first labels, and then the others. -/
theorem run_append (s : σ) (ls ls' : List ι) :
    run step s (ls ++ ls') = (run step s ls).bind fun t => run step t ls' := by
  induction ls generalizing s with
  | nil => rfl
  | cons l ls ih =>
      rw [List.cons_append, run, run]
      cases step s l with
      | none => rfl
      | some t => exact ih t

/-- A run and one more step. -/
theorem run_concat {s t u : σ} {ls : List ι} {l : ι} (hr : run step s ls = some t)
    (ht : step t l = some u) : run step s (ls ++ [l]) = some u := by
  rw [run_append, hr, Option.bind_some, run, ht]
  rfl

theorem Guarded.head {g : σ → ι → Prop} {s : σ} {l : ι} {ls : List ι}
    (h : Guarded step g s (l :: ls)) : g s l := h.1

theorem Guarded.tail {g : σ → ι → Prop} {s t : σ} {l : ι} {ls : List ι}
    (h : Guarded step g s (l :: ls)) (ht : step s l = some t) :
    Guarded step g t ls := by
  have := h.2
  rwa [ht] at this

/-- **The run rule**: what every step preserves holds where a run ends. -/
theorem invariant {I : σ → Prop} (hstep : ∀ s l t, I s → step s l = some t → I t)
    {s u : σ} {ls : List ι} (hs : I s) (hr : run step s ls = some u) : I u := by
  induction ls generalizing s with
  | nil =>
      cases hr
      exact hs
  | cons l ls ih =>
      obtain ⟨t, ht, hu⟩ := run_cons_inv hr
      exact ih (hstep s l t hs ht) hu

/-- **The guarded run rule**: what every step meeting the guard preserves
holds where a guarded run ends. -/
theorem Guarded.invariant {g : σ → ι → Prop} {I : σ → Prop}
    (hstep : ∀ s l t, I s → g s l → step s l = some t → I t)
    {s u : σ} {ls : List ι} (hg : Guarded step g s ls) (hs : I s)
    (hr : run step s ls = some u) : I u := by
  induction ls generalizing s with
  | nil =>
      cases hr
      exact hs
  | cons l ls ih =>
      obtain ⟨t, ht, hu⟩ := run_cons_inv hr
      exact ih (hg.tail ht) (hstep s l t hs hg.head ht) hu

/-- **The measure rule**: when every step meeting the guard preserves `I` and
does not raise `μ`, and lowers it when its label satisfies `p`, a guarded run
has at most `μ` many such labels. -/
theorem Guarded.measure {g : σ → ι → Prop} {I : σ → Prop} {μ : σ → Nat} {p : ι → Bool}
    (hstep : ∀ s l t, I s → g s l → step s l = some t → I t ∧ μ t + (if p l then 1 else 0) ≤ μ s)
    {s u : σ} {ls : List ι} (hg : Guarded step g s ls) (hs : I s)
    (hr : run step s ls = some u) : I u ∧ μ u + ls.countP p ≤ μ s := by
  induction ls generalizing s with
  | nil =>
      cases hr
      exact ⟨hs, Nat.le_refl _⟩
  | cons l ls ih =>
      obtain ⟨t, ht, hu⟩ := run_cons_inv hr
      obtain ⟨hI, hμ⟩ := hstep s l t hs hg.head ht
      obtain ⟨hI', hμ'⟩ := ih (hg.tail ht) hI hu
      rw [List.countP_cons]
      exact ⟨hI', by omega⟩

theorem Guarded.mono {g g' : σ → ι → Prop} (hgg : ∀ s l, g s l → g' s l) {s : σ} {ls : List ι}
    (h : Guarded step g s ls) : Guarded step g' s ls := by
  induction ls generalizing s with
  | nil => trivial
  | cons l ls ih =>
      refine ⟨hgg s l h.head, ?_⟩
      split
      next t ht => exact ih (h.tail ht)
      next => trivial

theorem Guarded.and {g g' : σ → ι → Prop} {s : σ} {ls : List ι} (h : Guarded step g s ls)
    (h' : Guarded step g' s ls) : Guarded step (fun s l => g s l ∧ g' s l) s ls := by
  induction ls generalizing s with
  | nil => trivial
  | cons l ls ih =>
      refine ⟨⟨h.head, h'.head⟩, ?_⟩
      split
      next t ht => exact ih (h.tail ht) (h'.tail ht)
      next => trivial

/-- A guarded run is guarded up to any point of it, and from there on. -/
theorem Guarded.of_append {g : σ → ι → Prop} {s t : σ} {ls ls' : List ι}
    (h : Guarded step g s (ls ++ ls')) (hr : run step s ls = some t) :
    Guarded step g s ls ∧ Guarded step g t ls' := by
  induction ls generalizing s with
  | nil =>
      cases hr
      exact ⟨trivial, h⟩
  | cons l ls ih =>
      obtain ⟨u, hu, ht⟩ := run_cons_inv hr
      obtain ⟨hl, hr'⟩ := ih (h.tail hu) ht
      refine ⟨⟨h.head, ?_⟩, hr'⟩
      rw [hu]
      exact hl

/-- A run is guarded when every step that it can take is. -/
theorem Guarded.of_prefixes {g : σ → ι → Prop} {s : σ} {ls : List ι}
    (h : ∀ pre l post t, ls = pre ++ l :: post → run step s pre = some t → g t l) :
    Guarded step g s ls := by
  induction ls generalizing s with
  | nil => trivial
  | cons l ls ih =>
      refine ⟨h [] l ls s rfl rfl, ?_⟩
      split
      next t ht =>
        refine ih fun pre l' post u hls hu => h (l :: pre) l' post u (by rw [hls]; rfl) ?_
        rw [run, ht]
        exact hu
      next => trivial

/-- A run is guarded by what its labels are. -/
theorem Guarded.of_labels {p : ι → Prop} {ls : List ι} (h : ∀ l ∈ ls, p l) (s : σ) :
    Guarded step (fun _ l => p l) s ls := by
  induction ls generalizing s with
  | nil => trivial
  | cons l ls ih =>
      refine ⟨h l (by simp), ?_⟩
      split
      next t _ => exact ih (fun l' hl' => h l' (by simp [hl'])) t
      next => trivial

/-- Every run is guarded by nothing. -/
theorem Guarded.of_forall {g : σ → ι → Prop} (h : ∀ s l, g s l) (s : σ) (ls : List ι) :
    Guarded step g s ls := by
  induction ls generalizing s with
  | nil => trivial
  | cons l ls ih =>
      refine ⟨h s l, ?_⟩
      split
      next t _ => exact ih t
      next => trivial

/-- A run in a state that no label leaves cannot be extended. -/
def Stuck (step : σ → ι → Option σ) (s : σ) : Prop := ∀ l, step s l = none

end Transition
