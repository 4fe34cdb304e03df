import Quicksend.Bytes
import Quicksend.Lib.Search

/-!
# `dedupeFilename` (`transfer-ui.js`)

The loop over the candidates has no bound in the source; here it runs on fuel, and
one candidate more than there are used names is always enough.
-/

namespace Quicksend

/-! ## The function -/

/-- `${i}`; no set of names is so large that `i` is not exact. -/
def toDecimal (i : Nat) : JSString := (Nat.toDigits 10 i).map fun c => UInt16.ofNat c.toNat

/-- `s.lastIndexOf(c)`: where the character stands for the last time; `none` is
the -1 of the source. -/
def lastIndexOf (c : UInt16) : JSString → Option Nat
  | [] => none
  | u :: s =>
      match lastIndexOf c s with
      | some i => some (i + 1)
      | none => if u = c then some 0 else none

/-- `base` and `ext`: the name cut at its last dot, unless it begins with that. -/
def baseExt (name : JSString) : JSString × JSString :=
  match lastIndexOf 46 name with
  | some dot => if dot > 0 then (name.take dot, name.drop dot) else (name, [])
  | none => (name, [])

/-- `${base} (${i})${ext}`: the numbered name that is tried next, with the number
before the extension. -/
def candidate (base ext : JSString) (i : Nat) : JSString :=
  base ++ ([32, 40] ++ (toDecimal i ++ (41 :: ext)))

/-- The name to use, and the used names with it. -/
def dedupeFilename (fuel : Nat) (usedNames : Finset JSString) (name : JSString) :
    Option (JSString × Finset JSString) :=
  if name ∉ usedNames then some (name, insert name usedNames)
  else
    let (base, ext) := baseExt name
    (Search.firstFree (candidate base ext) usedNames fuel 1).map fun candidate =>
      (candidate, insert candidate usedNames)

/-- One name after the other, on one set. -/
def dedupeFilenames (fuel : Nat) (usedNames : Finset JSString) :
    List JSString → Option (List JSString × Finset JSString)
  | [] => some ([], usedNames)
  | name :: names =>
      match dedupeFilename fuel usedNames name with
      | some (out, usedNames) =>
          (dedupeFilenames fuel usedNames names).map fun r => (out :: r.1, r.2)
      | none => none

/-! ## What it promises -/

/-- The parts of a name: what is before its last dot, and the dot with what comes
after it. A name whose only dot is its first character is all base. -/
inductive Parts (name : JSString) : JSString → JSString → Prop where
  | extension (base tail : JSString) (hname : name = base ++ 46 :: tail) (hbase : base ≠ [])
      (htail : 46 ∉ tail) : Parts name base (46 :: tail)
  | plain (hdot : 46 ∉ name.tail) : Parts name name []

/-- What `dedupeFilename` promises of its result: unused, the name itself where
that is free, and otherwise numbered by the first number that is. -/
structure Deduped (usedNames : Finset JSString) (name out : JSString) : Prop where
  unused : out ∉ usedNames
  free : name ∉ usedNames → out = name
  numbered : name ∈ usedNames → ∃ base ext k, Parts name base ext ∧ 1 ≤ k ∧
    out = candidate base ext k ∧ ∀ j, 1 ≤ j → j < k → candidate base ext j ∈ usedNames

/-! ## The candidates -/

theorem toDecimal_injective : Function.Injective toDecimal := by
  have back (i : Nat) : (toDecimal i).map (fun u => Char.ofNat u.toNat) = Nat.toDigits 10 i := by
    rw [toDecimal, List.map_map]
    refine (List.map_congr_left fun c hc => ?_).trans (List.map_id _)
    have hdigit := Nat.isDigit_of_mem_toDigits (by decide) (by decide) hc
    have hle : c.toNat ≤ 57 := by
      rw [Char.isDigit, Bool.and_eq_true, decide_eq_true_eq, decide_eq_true_eq] at hdigit
      exact hdigit.2
    have hunit : (UInt16.ofNat c.toNat).toNat = c.toNat :=
      UInt16.toNat_ofNat_of_lt' (lt_of_le_of_lt hle (by decide))
    rw [Function.comp_apply, hunit, Char.ofNat_toNat, id_eq]
  intro i j hij
  have hdigits := congrArg (List.map fun u => Char.ofNat u.toNat) hij
  rw [back, back] at hdigits
  have hvalue := congrArg (Nat.ofDigitChars 10 · 0) hdigits
  simpa [Nat.ofDigitChars_toDigits] using hvalue

theorem candidate_injective (base ext : JSString) : Function.Injective (candidate base ext) := by
  intro i j hij
  rw [candidate, candidate, List.append_cancel_left_eq, List.append_cancel_left_eq,
    List.append_cancel_right_eq] at hij
  exact toDecimal_injective hij

/-! ## The last dot -/

theorem lastIndexOf_eq_none {c : UInt16} {s : JSString} (h : lastIndexOf c s = none) : c ∉ s := by
  induction s with
  | nil => simp
  | cons u s ih =>
      rw [lastIndexOf] at h
      split at h
      next => cases h
      next hnone =>
        split at h
        next => cases h
        next hne => simp [ih hnone, Ne.symm hne]

theorem lastIndexOf_eq_some {c : UInt16} {s : JSString} {i : Nat} (h : lastIndexOf c s = some i) :
    ∃ tail, s = s.take i ++ c :: tail ∧ s.drop i = c :: tail ∧ (s.take i).length = i ∧
      c ∉ tail := by
  induction s generalizing i with
  | nil => cases h
  | cons u s ih =>
      rw [lastIndexOf] at h
      split at h
      next j hj =>
        obtain rfl := Option.some.inj h
        obtain ⟨tail, hs, hdrop, hlen, htail⟩ := ih hj
        exact ⟨tail, congrArg (u :: ·) hs, hdrop, congrArg (· + 1) hlen, htail⟩
      next hnone =>
        split at h
        next hu =>
          obtain rfl := Option.some.inj h
          exact ⟨s, by simp [hu], by simp [hu], rfl, lastIndexOf_eq_none hnone⟩
        next => cases h

theorem parts_baseExt (name : JSString) : Parts name (baseExt name).1 (baseExt name).2 := by
  rw [baseExt]
  split
  next dot hdot =>
    obtain ⟨tail, hname, hdrop, hlen, htail⟩ := lastIndexOf_eq_some hdot
    split
    next hpos =>
      rw [hdrop]
      refine .extension _ _ hname (fun hnil => ?_) htail
      have hzero : dot = 0 := hlen.symm.trans (congrArg List.length hnil)
      omega
    next hzero =>
      obtain rfl : dot = 0 := by omega
      refine .plain ?_
      rw [hname]
      exact htail
  next hnone => exact .plain fun hmem => lastIndexOf_eq_none hnone (List.mem_of_mem_tail hmem)

/-! ## Freshness -/

theorem deduped_of_eq {fuel : Nat} {usedNames used : Finset JSString} {name out : JSString}
    (h : dedupeFilename fuel usedNames name = some (out, used)) :
    used = insert out usedNames ∧ Deduped usedNames name out := by
  rw [dedupeFilename] at h
  split at h
  next hfree =>
    obtain ⟨rfl, rfl⟩ := Prod.mk.inj (Option.some.inj h)
    exact ⟨rfl, hfree, fun _ => rfl, fun hused => absurd hused hfree⟩
  next hused =>
    obtain ⟨c, hc, heq⟩ := Option.map_eq_some_iff.mp h
    obtain ⟨rfl, rfl⟩ := Prod.mk.inj heq
    obtain ⟨k, hk, hout, hfree, hbefore⟩ := Search.firstFree_spec hc
    exact ⟨rfl, hfree, fun h => absurd h hused,
      fun _ => ⟨_, _, k, parts_baseExt name, hk, hout, hbefore⟩⟩

theorem dedupeFilename_returns (usedNames : Finset JSString) (name : JSString) :
    ∃ out, ∀ fuel, usedNames.card < fuel →
      dedupeFilename fuel usedNames name = some (out, insert out usedNames) := by
  by_cases hfree : name ∉ usedNames
  · exact ⟨name, fun fuel _ => by rw [dedupeFilename, if_pos hfree]⟩
  · obtain ⟨out, hout⟩ := Search.exists_firstFree
      (candidate_injective (baseExt name).1 (baseExt name).2) usedNames 1
    refine ⟨out, fun fuel hfuel => ?_⟩
    rw [dedupeFilename, if_neg hfree]
    simp only [hout fuel hfuel, Option.map_some]

theorem dedupeFilenames_returns (usedNames : Finset JSString) (names : List JSString) :
    ∃ outs used, (∀ fuel, usedNames.card + names.length < fuel →
        dedupeFilenames fuel usedNames names = some (outs, used)) ∧
      outs.length = names.length ∧ outs.Nodup ∧ ∀ out ∈ outs, out ∉ usedNames := by
  induction names generalizing usedNames with
  | nil => exact ⟨[], usedNames, fun _ _ => rfl, rfl, List.nodup_nil, by simp⟩
  | cons name names ih =>
      obtain ⟨out, hout⟩ := dedupeFilename_returns usedNames name
      obtain ⟨-, hdeduped⟩ := deduped_of_eq (hout (usedNames.card + 1) (Nat.lt_succ_self _))
      obtain ⟨outs, used, hrest, hlen, hnodup, hunused⟩ := ih (insert out usedNames)
      refine ⟨out :: outs, used, fun fuel hfuel => ?_, congrArg (· + 1) hlen, ?_, ?_⟩
      · rw [List.length_cons] at hfuel
        have hcard := Finset.card_insert_le out usedNames
        rw [dedupeFilenames, hout fuel (by omega)]
        simp only [hrest fuel (by omega), Option.map_some]
      · refine List.nodup_cons.mpr ⟨fun hmem => ?_, hnodup⟩
        exact hunused out hmem (Finset.mem_insert_self out usedNames)
      · intro o ho
        rcases List.mem_cons.mp ho with rfl | ho
        · exact hdeduped.unused
        · exact fun hused => hunused o ho (Finset.mem_insert_of_mem hused)

/-- **`dedupeFilename` is fresh and terminates**, and so is a sequence of calls. -/
theorem dedupeFilename_fresh (usedNames : Finset JSString) (name : JSString)
    (names : List JSString) :
    (∃ out, (∀ fuel, usedNames.card < fuel →
        dedupeFilename fuel usedNames name = some (out, insert out usedNames)) ∧
      Deduped usedNames name out) ∧
    ∃ outs used, (∀ fuel, usedNames.card + names.length < fuel →
        dedupeFilenames fuel usedNames names = some (outs, used)) ∧
      outs.length = names.length ∧ outs.Nodup ∧ ∀ out ∈ outs, out ∉ usedNames := by
  obtain ⟨out, hout⟩ := dedupeFilename_returns usedNames name
  obtain ⟨-, hdeduped⟩ := deduped_of_eq (hout (usedNames.card + 1) (Nat.lt_succ_self _))
  exact ⟨⟨out, hout, hdeduped⟩, dedupeFilenames_returns usedNames names⟩

/-- The first candidate for a second `a.b` is taken. -/
example : dedupeFilename 3 {[97, 46, 98], [97, 32, 40, 49, 41, 46, 98]} [97, 46, 98] =
    some ([97, 32, 40, 50, 41, 46, 98],
      {[97, 32, 40, 50, 41, 46, 98], [97, 46, 98], [97, 32, 40, 49, 41, 46, 98]}) := by decide

end Quicksend
