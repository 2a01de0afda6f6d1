import ContractBindings.Identifier.Distinct
import Mathlib.Data.List.Nodup
import Mathlib.Data.Nat.Init
import Mathlib.Logic.Function.Basic

/-!
# Distinctness of names made distinct

What the bounded search for a free name finds, and what it makes of a whole scope. The search is
given as many tries as there are taken names; since the candidates of one name never repeat
(`underscored_injective`, `numbered_injective`), that many and one cannot all be taken, so the
bound is never what ends it (`fresh_spec`). Everything about a scope follows from this one fact:
`distinct` avoids the names that were taken before and repeats none of its own (`nodup_distinct`).
What the names look like does not depend on the search: each is a candidate of a name that went in
(`exists_candidate_of_mem_distinct`).
-/

namespace ContractBindings.Identifier

variable {taken : List String} {candidate : Nat → String}

/-! ### The search -/

/-- The search stops at the first candidate that is not taken, or when its tries are used up. -/
theorem firstFree_spec (taken : List String) (candidate : Nat → String) (tries k : Nat) :
    ∃ j ≤ tries, firstFree taken candidate tries k = candidate (k + j) ∧
      (∀ i < j, candidate (k + i) ∈ taken) ∧ (j < tries → candidate (k + j) ∉ taken) := by
  induction tries generalizing k with
  | zero => exact ⟨0, Nat.le_refl 0, rfl, by simp, by simp⟩
  | succ tries ih =>
    rw [firstFree]
    split
    case isTrue hk =>
      obtain ⟨j, hj, heq, hbefore, hfree⟩ := ih (k + 1)
      have hshift : ∀ i, k + 1 + i = k + (i + 1) := fun i ↦ by omega
      refine ⟨j + 1, by omega, by rw [heq, hshift], ?_, ?_⟩
      · intro i hi
        cases i with
        | zero => exact hk
        | succ i => exact hshift i ▸ hbefore i (by omega)
      · intro hlt
        exact hshift j ▸ hfree (by omega)
    case isFalse hk => exact ⟨0, by omega, rfl, by simp, fun _ ↦ hk⟩

/-- Candidates that never repeat cannot all be taken: there are more of them than taken names. -/
theorem exists_candidate_not_mem (taken : List String) (inj : Function.Injective candidate) :
    ∃ i ≤ taken.length, candidate i ∉ taken := by
  by_contra hall
  push Not at hall
  have hnodup : ((List.range (taken.length + 1)).map candidate).Nodup :=
    List.nodup_range.map inj
  have hsub : (List.range (taken.length + 1)).map candidate ⊆ taken := by
    intro name hname
    obtain ⟨i, hi, rfl⟩ := List.mem_map.1 hname
    exact hall i (Nat.lt_succ_iff.1 (List.mem_range.1 hi))
  have hle := hnodup.length_le_of_subset hsub
  rw [List.length_map, List.length_range] at hle
  omega

/-- **The chosen name is the first candidate that is free.** The bound on the search plays no
part. -/
theorem fresh_spec (taken : List String) (inj : Function.Injective candidate) :
    ∃ j, fresh taken candidate = candidate j ∧ candidate j ∉ taken ∧
      ∀ i < j, candidate i ∈ taken := by
  obtain ⟨j, hj, heq, hbefore, hfree⟩ := firstFree_spec taken candidate taken.length 0
  simp only [Nat.zero_add] at heq hbefore hfree
  refine ⟨j, heq, ?_, hbefore⟩
  obtain ⟨i, hi, hnot⟩ := exists_candidate_not_mem taken inj
  -- A free candidate within the bound is not passed over, so the search ended by it or before it.
  rcases Nat.lt_trichotomy i j with hlt | rfl | hgt
  · exact absurd (hbefore i hlt) hnot
  · exact hnot
  · exact hfree (by omega)

theorem fresh_not_mem (taken : List String) (inj : Function.Injective candidate) :
    fresh taken candidate ∉ taken := by
  obtain ⟨j, heq, hnot, -⟩ := fresh_spec taken inj
  rwa [heq]

/-! ### Candidates never repeat -/

theorem underscored_injective (name : String) : Function.Injective (underscored name) := by
  intro i j h
  have hlist := congrArg (fun s ↦ s.toList.length) h
  simpa [underscored] using hlist

/-- Numbers are told apart by their digits. -/
theorem toString_nat_injective : Function.Injective (toString : Nat → String) := by
  intro i j h
  have hdigits : Nat.toDigits 10 i = Nat.toDigits 10 j := by
    rw [Nat.toString_eq_ofList_toDigits, Nat.toString_eq_ofList_toDigits] at h
    exact String.ofList_injective h
  rw [← Nat.ofDigitChars_ten_toDigits (n := i), hdigits, Nat.ofDigitChars_ten_toDigits]

@[simp]
theorem numbered_zero (name : String) : numbered name 0 = name :=
  rfl

theorem numbered_succ (name : String) (k : Nat) :
    numbered name (k + 1) = name ++ "_" ++ toString (k + 2) :=
  rfl

theorem numbered_succ_ne (name : String) (k : Nat) : numbered name (k + 1) ≠ name := by
  intro h
  have hlen := congrArg (fun s ↦ s.toList.length) h
  simp [numbered_succ] at hlen

theorem numbered_injective (name : String) : Function.Injective (numbered name) := by
  intro i j h
  cases i with
  | zero =>
    cases j with
    | zero => rfl
    | succ j => exact absurd h.symm (numbered_succ_ne name j)
  | succ i =>
    cases j with
    | zero => exact absurd h (numbered_succ_ne name i)
    | succ j =>
      rw [numbered_succ, numbered_succ] at h
      have hnum := toString_nat_injective (String.append_right_inj _ |>.1 h)
      omega

/-! ### A whole scope -/

variable {candidates : String → Nat → String}

/-- No name is one that was taken before. -/
theorem not_mem_of_mem_distinct (inj : ∀ name, Function.Injective (candidates name))
    {taken names : List String} {chosen : String}
    (h : chosen ∈ distinct candidates taken names) : chosen ∉ taken := by
  induction names generalizing taken with
  | nil => exact absurd h List.not_mem_nil
  | cons name rest ih =>
    -- The rest of the scope avoids what was taken before, and the chosen name besides.
    rcases List.mem_cons.1 h with rfl | hrest
    · exact fresh_not_mem taken (inj name)
    · exact fun hmem ↦ ih hrest (List.mem_cons_of_mem _ hmem)

/-- **The names of a scope are pairwise distinct.** -/
theorem nodup_distinct (inj : ∀ name, Function.Injective (candidates name))
    (taken names : List String) : (distinct candidates taken names).Nodup := by
  induction names generalizing taken with
  | nil => exact List.nodup_nil
  | cons name rest ih =>
    rw [distinct, List.nodup_cons]
    exact ⟨fun h ↦ not_mem_of_mem_distinct inj h List.mem_cons_self, ih _⟩

/-- Each name that comes out is a candidate of a name that went in. -/
theorem exists_candidate_of_mem_distinct {taken names : List String} {chosen : String}
    (h : chosen ∈ distinct candidates taken names) :
    ∃ name ∈ names, ∃ k, chosen = candidates name k := by
  induction names generalizing taken with
  | nil => exact absurd h List.not_mem_nil
  | cons name rest ih =>
    rcases List.mem_cons.1 h with rfl | hrest
    · obtain ⟨j, -, heq, -⟩ := firstFree_spec taken (candidates name) taken.length 0
      exact ⟨name, List.mem_cons_self, 0 + j, heq⟩
    · obtain ⟨other, hmem, hk⟩ := ih hrest
      exact ⟨other, List.mem_cons_of_mem _ hmem, hk⟩

end ContractBindings.Identifier
