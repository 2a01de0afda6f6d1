import ContractBindings.Identifier.Members
import ContractBindings.Proofs.Identifier.Distinct

/-!
# Names made distinct by counting

The search for a free name looks at what is taken, and what is taken are candidates of other names
too. If the candidates of a scope tell which name they are of, the search comes down to counting: a
name gets its first candidate if it has not occurred before, its second if it has occurred once, and
so on (`getElem?_distinct`). The invariant is that of each name as many candidates are taken, from
the first on, as it has occurred (`Counted`).

Numbering counts by definition, so that it has the same form without a condition
(`getElem?_numberRepeats`).
-/

namespace ContractBindings.Identifier

variable {candidates : String → Nat → String} {names done taken : List String} {name : String}

/-- Candidates that tell, among those of a scope, which name they are of and which number they
have. -/
def Separate (candidates : String → Nat → String) (names : List String) : Prop :=
  ∀ a ∈ names, ∀ b ∈ names, ∀ j k, candidates a j = candidates b k → a = b ∧ j = k

/-- Of each name of a scope as many candidates are taken as it has occurred. -/
def Counted (candidates : String → Nat → String) (names done taken : List String) : Prop :=
  ∀ name ∈ names, ∀ k, candidates name k ∈ taken ↔ k < done.count name

namespace Counted

theorem nil (candidates : String → Nat → String) (names : List String) :
    Counted candidates names [] [] :=
  fun _ _ _ ↦ iff_of_false List.not_mem_nil (by simp)

/-- The search passes over as many candidates as the name has occurred. -/
theorem fresh_eq (h : Counted candidates names done taken) (hsep : Separate candidates names)
    (hname : name ∈ names) :
    fresh taken (candidates name) = candidates name (done.count name) := by
  have inj : Function.Injective (candidates name) := fun j k heq ↦
    (hsep name hname name hname j k heq).2
  obtain ⟨j, heq, hfree, hbefore⟩ := fresh_spec taken inj
  rw [h name hname] at hfree
  have hle : j ≤ done.count name := by
    by_contra hlt
    exact Nat.lt_irrefl _ ((h name hname _).1 (hbefore (done.count name) (by omega)))
  rw [heq, Nat.le_antisymm hle (Nat.not_lt.1 hfree)]

/-- A name that gets its next candidate has occurred once more, and no other name has. -/
theorem cons (h : Counted candidates names done taken) (hsep : Separate candidates names)
    (hname : name ∈ names) :
    Counted candidates names (name :: done) (candidates name (done.count name) :: taken) := by
  intro other hother k
  rw [List.mem_cons, h other hother, List.count_cons]
  by_cases heq : name = other
  · subst heq
    have hsame : candidates name k = candidates name (done.count name) ↔ k = done.count name :=
      ⟨fun hc ↦ (hsep name hname name hname _ _ hc).2, fun hk ↦ by rw [hk]⟩
    rw [hsame, beq_self_eq_true, if_pos rfl]
    omega
  · have hother : ¬ candidates other k = candidates name (done.count name) := fun hc ↦
      heq (hsep other hother name hname _ _ hc).1.symm
    rw [beq_false_of_ne heq, if_neg Bool.false_ne_true, Nat.add_zero]
    exact or_iff_right hother

/-- The invariant holds along a whole scope. -/
theorem distinct (h : Counted candidates names done taken) (hsep : Separate candidates names)
    {rest : List String} (hrest : rest ⊆ names) :
    Counted candidates names (rest.reverse ++ done)
      ((distinct candidates taken rest).reverse ++ taken) := by
  induction rest generalizing done taken with
  | nil => exact h
  | cons name rest ih =>
    obtain ⟨hname, hrest⟩ := List.cons_subset.1 hrest
    have hnext := ih (h.cons hsep hname) hrest
    rw [← h.fresh_eq hsep hname] at hnext
    rw [Identifier.distinct, List.reverse_cons, List.reverse_cons, List.append_assoc,
      List.append_assoc]
    exact hnext

end Counted

/-! ### Names at an index -/

theorem take_distinct (candidates : String → Nat → String) (taken names : List String) (n : Nat) :
    (distinct candidates taken names).take n = distinct candidates taken (names.take n) := by
  induction names generalizing taken n with
  | nil => simp [distinct]
  | cons name names ih =>
    cases n with
    | zero => rfl
    | succ n => rw [distinct, List.take_succ_cons, List.take_succ_cons, distinct, ih]

/-- A name is looked for when those in front of it have been given out. -/
theorem getElem?_distinct_eq_fresh (candidates : String → Nat → String) (taken names : List String)
    (i : Nat) :
    (distinct candidates taken names)[i]? = names[i]?.map fun name ↦
      fresh ((distinct candidates taken (names.take i)).reverse ++ taken) (candidates name) := by
  induction names generalizing taken i with
  | nil => rfl
  | cons name names ih =>
    cases i with
    | zero => rfl
    | succ i =>
      rw [distinct, List.getElem?_cons_succ, List.getElem?_cons_succ, ih, List.take_succ_cons,
        distinct, List.reverse_cons, List.append_assoc]
      rfl

/-- Of each name as many candidates are taken by the names in front of an index as it occurs in
front of it. -/
theorem mem_take_distinct_iff (hsep : Separate candidates names) (hname : name ∈ names)
    (i k : Nat) :
    candidates name k ∈ (distinct candidates [] names).take i ↔ k < (names.take i).count name := by
  have hcounted := (Counted.nil candidates names).distinct hsep (List.take_subset i names)
  rw [take_distinct, ← List.mem_reverse]
  simpa using hcounted name hname k

/-- **Names that are made distinct get the candidate that has the number of their occurrences
before**, if candidates of different names are never the same. -/
theorem getElem?_distinct (hsep : Separate candidates names) (i : Nat) :
    (distinct candidates [] names)[i]? =
      names[i]?.map fun name ↦ candidates name ((names.take i).count name) := by
  rw [getElem?_distinct_eq_fresh]
  refine Option.map_congr fun name hname ↦ ?_
  have hcounted := (Counted.nil candidates names).distinct hsep (List.take_subset i names)
  rw [hcounted.fresh_eq hsep (List.mem_of_getElem? hname), List.append_nil, List.count_reverse]

/-- Numbering counts what it has seen and what stands in front of an index. -/
theorem getElem?_numberRepeats_of_seen (seen keys : List (String × List AbiType)) (i : Nat) :
    (numberRepeats seen keys)[i]? =
      keys[i]?.map fun key ↦ numbered key.1 (seen.count key + (keys.take i).count key) := by
  induction keys generalizing seen i with
  | nil => rfl
  | cons key keys ih =>
    rw [numberRepeats]
    cases i with
    | zero => rfl
    | succ i =>
      rw [List.getElem?_cons_succ, List.getElem?_cons_succ, ih]
      refine Option.map_congr fun other _ ↦ ?_
      rw [List.take_succ_cons, List.count_cons, List.count_cons]
      congr 1
      omega

/-- A name is numbered by how often it has occurred before with the same types. -/
theorem getElem?_numberRepeats (keys : List (String × List AbiType)) (i : Nat) :
    (numberRepeats [] keys)[i]? =
      keys[i]?.map fun key ↦ numbered key.1 ((keys.take i).count key) := by
  simp only [getElem?_numberRepeats_of_seen, List.count_nil, Nat.zero_add]

end ContractBindings.Identifier
