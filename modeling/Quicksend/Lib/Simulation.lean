import Quicksend.Lib.Transition

/-!
# Maps between transition systems

A morphism maps states and labels so that a step and its image are enabled
together and lead to corresponding states. Then so do whole runs: what the
image keeps of a system evolves by itself, and two runs whose labels have one
image cannot be told apart by it.
-/

namespace Transition

universe u v w z

variable {σ : Type u} {ι : Type v} {τ : Type w} {κ : Type z}

variable {step : σ → ι → Option σ} {step' : τ → κ → Option τ}

/-- **The simulation rule**: where an invariant lets every step be mapped to a
step, a run is mapped to a run. -/
theorem run_map_of_invariant {I : σ → Prop} {f : σ → τ} {g : ι → κ}
    (hstep : ∀ s l t, I s → step s l = some t → I t)
    (hmap : ∀ s l, I s → step' (f s) (g l) = (step s l).map f) {s : σ} (hs : I s) (ls : List ι) :
    run step' (f s) (ls.map g) = (run step s ls).map f := by
  induction ls generalizing s with
  | nil => rfl
  | cons l ls ih =>
      rw [List.map_cons, run, run, hmap s l hs]
      cases ht : step s l with
      | none => rfl
      | some t => exact ih (hstep s l t hs ht)

/-- What is done to related outcomes. -/
theorem rel_map {σ' : Type*} {τ' : Type*} {R : σ → τ → Prop} {Q : σ' → τ' → Prop} {f : σ → σ'}
    {g : τ → τ'} {o : Option σ} {o' : Option τ} (h : Option.Rel R o o')
    (hfg : ∀ x y, R x y → Q (f x) (g y)) : Option.Rel Q (o.map f) (o'.map g) := by
  cases h with
  | none => exact .none
  | some h => exact .some (hfg _ _ h)

/-- **The lockstep rule**: where two systems take each label together, to
related states, or both refuse it, they do so in whole runs. -/
theorem run_lockstep {step' : τ → ι → Option τ} {R : σ → τ → Prop}
    (hstep : ∀ s t l, R s t → Option.Rel R (step s l) (step' t l)) {s : σ} {t : τ} (hst : R s t)
    (ls : List ι) : Option.Rel R (run step s ls) (run step' t ls) := by
  induction ls generalizing s t with
  | nil => exact .some hst
  | cons l ls ih =>
      have h := hstep s t l hst
      rw [run, run]
      cases hs : step s l <;> cases ht : step' t l <;> rw [hs, ht] at h <;> cases h
      case none.none => exact .none
      case some.some h => exact ih h

/-- **The forward rule**: where a system can follow each step of another, with
the same label, to a related state, it can follow whole runs. -/
theorem run_forward {step' : τ → ι → Option τ} {R : σ → τ → Prop}
    (hstep : ∀ s l s' t, R s t → step s l = some s' → ∃ t', step' t l = some t' ∧ R s' t') {s s' : σ}
    {t : τ} (hst : R s t) {ls : List ι} (hr : run step s ls = some s') :
    ∃ t', run step' t ls = some t' ∧ R s' t' := by
  induction ls generalizing s t with
  | nil =>
      cases hr
      exact ⟨t, rfl, hst⟩
  | cons l ls ih =>
      obtain ⟨u, hu, hr⟩ := run_cons_inv hr
      obtain ⟨t', ht', hR⟩ := hstep s l u t hst hu
      obtain ⟨t'', hr', hR'⟩ := ih hR hr
      exact ⟨t'', by rw [run_cons ht', hr'], hR'⟩

/-- A map of states and labels under which the steps of one system are exactly the
steps of another, refusals included. -/
structure Morphism (step : σ → ι → Option σ) (step' : τ → κ → Option τ) where
  state : σ → τ
  label : ι → κ
  step_map : ∀ s l, step' (state s) (label l) = (step s l).map state

namespace Morphism

theorem run_map (f : Morphism step step') (s : σ) (ls : List ι) :
    run step' (f.state s) (ls.map f.label) = (run step s ls).map f.state :=
  run_map_of_invariant (fun _ _ _ _ _ => trivial) (fun s l _ => f.step_map s l) trivial ls

/-- Runs with one image agree in what the image keeps of where they end. -/
theorem run_congr (f : Morphism step step') (s : σ) {ls ls' : List ι}
    (h : ls.map f.label = ls'.map f.label) :
    (run step s ls).map f.state = (run step s ls').map f.state := by
  rw [← f.run_map, ← f.run_map, h]

end Morphism

end Transition
