import Mathlib.Data.List.AList

/-!
# Tables of numbered entries

A table hands out a new number with each entry and never the same one twice, so
that what one holder does to its entry is seen by no other.
-/

universe u

variable {α : Type u}

/-- The entries that have not been released, under the numbers they were given. -/
structure Handles (α : Type u) where
  nextID : Nat
  byHandle : AList fun _ : Nat => α
  issued : ∀ h ∈ byHandle, h ≤ nextID

namespace Handles

/-- A table from which no handle has been issued; the first one issued will be 1. -/
def empty : Handles α where
  nextID := 0
  byHandle := ∅
  issued h hh := absurd hh (AList.notMem_empty h)

/-- Store a value under the next number, which no earlier entry has ever had. -/
def new (t : Handles α) (a : α) : Handles α where
  nextID := t.nextID + 1
  byHandle := t.byHandle.insert (t.nextID + 1) a
  issued h hh := by
    rcases (AList.mem_insert _).mp hh with rfl | hh
    · exact Nat.le_refl _
    · exact Nat.le_succ_of_le (t.issued h hh)

/-- The value that is stored under handle `h`, as long as the handle was issued
and not freed. -/
def get (t : Handles α) (h : Nat) : Option α := t.byHandle.lookup h

/-- Another value for an entry that is there. -/
def set (t : Handles α) (h : Nat) (a : α) : Handles α :=
  if hh : h ∈ t.byHandle then
    { t with
      byHandle := t.byHandle.insert h a
      issued := fun k hk => by
        rcases (AList.mem_insert _).mp hk with rfl | hk
        · exact t.issued k hh
        · exact t.issued k hk }
  else t

/-- Give handle `h` up. Its number is not issued again, since the counter stays
where it is. -/
def free (t : Handles α) (h : Nat) : Handles α where
  nextID := t.nextID
  byHandle := t.byHandle.erase h
  issued k hk := t.issued k (AList.mem_erase.mp hk).2

/-- How many entries have not been released, however many were issued in all. -/
def size (t : Handles α) : Nat := t.byHandle.keys.length

variable {t : Handles α} {h k : Nat} {a b : α}

theorem le_of_get (ha : t.get h = some a) : h ≤ t.nextID :=
  t.issued h (AList.lookup_isSome.mp (by rw [← get, ha]; rfl))

@[simp] theorem get_empty (h : Nat) : (empty : Handles α).get h = none := AList.lookup_empty h

@[simp] theorem nextID_new : (t.new a).nextID = t.nextID + 1 := rfl

@[simp] theorem nextID_set : (t.set h a).nextID = t.nextID := by
  unfold set
  split <;> rfl

@[simp] theorem nextID_free : (t.free h).nextID = t.nextID := rfl

@[simp] theorem get_new_self : (t.new a).get (t.nextID + 1) = some a := AList.lookup_insert _

/-- What has been handed out is untouched by what is handed out next. -/
theorem get_new (hh : h ≤ t.nextID) : (t.new a).get h = t.get h :=
  AList.lookup_insert_ne (by omega)

theorem get_set_self (hb : t.get h = some b) : (t.set h a).get h = some a := by
  have hmem : h ∈ t.byHandle := AList.lookup_isSome.mp (by rw [← get, hb]; rfl)
  rw [set, dif_pos hmem]
  exact AList.lookup_insert _

theorem get_set_ne (hk : k ≠ h) : (t.set h a).get k = t.get k := by
  unfold set
  split
  · exact AList.lookup_insert_ne hk
  · rfl

@[simp] theorem get_free_self : (t.free h).get h = none := AList.lookup_erase _ _

theorem get_free_ne (hk : k ≠ h) : (t.free h).get k = t.get k := AList.lookup_erase_ne hk

/-! ## How many entries there are -/

@[simp] theorem size_empty : (empty : Handles α).size = 0 := rfl

theorem size_new : (t.new a).size = t.size + 1 := by
  have hfresh : t.nextID + 1 ∉ t.byHandle.keys := fun hmem => by
    have := t.issued _ (AList.mem_keys.mpr hmem)
    omega
  rw [size, new, AList.keys_insert, List.erase_of_not_mem hfresh]
  rfl

theorem size_set : (t.set h a).size = t.size := by
  unfold set
  split
  next hh =>
    have hpos := List.length_pos_of_mem (AList.mem_keys.mp hh)
    rw [size, AList.keys_insert, List.length_cons, List.length_erase_of_mem (AList.mem_keys.mp hh)]
    exact Nat.sub_add_cancel hpos
  next => rfl

theorem size_free (ha : t.get h = some a) : (t.free h).size + 1 = t.size := by
  have hmem : h ∈ t.byHandle.keys :=
    AList.mem_keys.mp (AList.lookup_isSome.mp (by rw [← get, ha]; rfl))
  rw [size, free, AList.keys_erase, List.length_erase_of_mem hmem]
  exact Nat.sub_add_cancel (List.length_pos_of_mem hmem)

end Handles
