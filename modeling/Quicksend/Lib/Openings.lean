import Mathlib.Data.List.Basic

/-!
# Openings and closings in a log

Some entries of a log open a thing, others close it. It is *open* at the end of
a log when no entry after the last that opens it closes it. A second notion says
that every entry meets a condition on the log before it.
-/

namespace Openings

universe u

variable {α : Type u} {opens closes : α → Prop} {l l' : List α}

/-- Opened by some entry, and closed by none after it. -/
def Open (opens closes : α → Prop) (l : List α) : Prop :=
  ∃ pre a post, l = pre ++ a :: post ∧ opens a ∧ ∀ b ∈ post, ¬ closes b

theorem Open.exists_opens (h : Open opens closes l) : ∃ a ∈ l, opens a := by
  obtain ⟨pre, a, post, rfl, ha, -⟩ := h
  exact ⟨a, by simp, ha⟩

/-- When the new entries open nothing, what is open was open before, and none of
them closes it. -/
theorem Open.of_append (h : Open opens closes (l ++ l')) (ho : ∀ a ∈ l', ¬ opens a) :
    Open opens closes l ∧ ∀ b ∈ l', ¬ closes b := by
  obtain ⟨pre, a, post, heq, ha, hp⟩ := h
  rcases List.append_eq_append_iff.mp heq with ⟨mid, -, hmid⟩ | ⟨mid, hl, hmid⟩
  · exact absurd ha (ho a (by rw [hmid]; simp))
  · cases mid with
    | nil =>
        rw [List.nil_append] at hmid
        exact absurd ha (ho a (by rw [← hmid]; simp))
    | cons a' mid =>
        obtain ⟨rfl, rfl⟩ := List.cons.inj hmid
        exact ⟨⟨pre, a, mid, hl, ha, fun b hb => hp b (by simp [hb])⟩,
          fun b hb => hp b (by simp [hb])⟩

theorem not_open_append (h : ¬ Open opens closes l) (ho : ∀ a ∈ l', ¬ opens a) :
    ¬ Open opens closes (l ++ l') := fun h' => h (h'.of_append ho).1

theorem not_open_of_closes (ho : ∀ a ∈ l', ¬ opens a) (hc : ∃ b ∈ l', closes b) :
    ¬ Open opens closes (l ++ l') := by
  intro h
  obtain ⟨b, hb, hbc⟩ := hc
  exact (h.of_append ho).2 b hb hbc

/-- Every entry meets a condition on the log before it. -/
def EachAfter (P : List α → α → Prop) (l : List α) : Prop :=
  ∀ pre a post, l = pre ++ a :: post → P pre a

variable {P : List α → α → Prop}

theorem EachAfter.nil : EachAfter P [] := by
  intro pre a post h
  cases pre <;> cases h

theorem EachAfter.append (h : EachAfter P l)
    (h' : ∀ pre a post, l' = pre ++ a :: post → P (l ++ pre) a) : EachAfter P (l ++ l') := by
  intro pre a post heq
  rcases List.append_eq_append_iff.mp heq with ⟨mid, rfl, hmid⟩ | ⟨mid, hl, hmid⟩
  · exact h' mid a post hmid
  · cases mid with
    | nil =>
        rw [List.nil_append] at hmid
        rw [List.append_nil] at hl
        have := h' [] a post hmid.symm
        rwa [List.append_nil, hl] at this
    | cons a' mid =>
        obtain ⟨rfl, rfl⟩ := List.cons.inj hmid
        exact h pre a mid hl

end Openings
