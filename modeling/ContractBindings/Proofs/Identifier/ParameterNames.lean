import ContractBindings.Proofs.Identifier.Counted
import ContractBindings.Proofs.Identifier.Marks

/-!
# Names of parameters

The names of the parameters of one method are given out by counting
(`parameterNames_count_occurrences`): a parameter has its identifier if no parameter in front of it
has the same, and else the identifier with a number behind it that says which of them it is.

The search that gives them out knows nothing of this. It tries one number after the other against
everything that is taken, and what is taken mixes identifiers, stand-ins that have a position in
them, and names that were numbered before. That it ends with the number that counting gives rests on
identifiers having no number of this form (`unnumbered_derive`), whatever names they are made from.
-/

namespace ContractBindings.Identifier

variable {names : List String}

theorem getElem?_parameterBases (names : List String) (i : Nat) :
    (parameterBases names)[i]? = names[i]?.map (derive (.parameter i)) := by
  rw [parameterBases, List.getElem?_map, List.getElem?_zipIdx, Option.map_map, Nat.zero_add]
  rfl

theorem take_parameterBases (names : List String) (n : Nat) :
    (parameterBases names).take n = parameterBases (names.take n) := by
  refine List.ext_getElem? fun i ↦ ?_
  rw [List.getElem?_take, getElem?_parameterBases, getElem?_parameterBases, List.getElem?_take]
  split <;> rfl

theorem separate_numbered (h : ∀ name ∈ names, Unnumbered name) : Separate numbered names :=
  fun a ha b hb _ _ heq ↦ numbered_inj (h a ha) (h b hb) heq

theorem separate_parameterBases (names : List String) :
    Separate numbered (parameterBases names) := by
  refine separate_numbered fun base hbase ↦ ?_
  obtain ⟨⟨raw, position⟩, -, rfl⟩ := List.mem_map.1 hbase
  exact unnumbered_derive (.parameter position) raw

/-- **Parameters are numbered by the occurrences of their identifiers.** Each has its identifier
alone or with a number, which says how many parameters up to it have that identifier; in front of it
the names with smaller numbers are taken and no others, so this is where the search for a free name
ends. The names are pairwise distinct and may all stand as parameters, and what comes behind some of
them has no part in them. -/
theorem parameterNames_count_occurrences (names : List String) :
    (∀ i : Fin names.length,
      let base := derive (.parameter i) names[i]
      let earlier := ((parameterBases names).take i).count base
      (parameterNames names)[(i : Nat)]? =
          some (if earlier = 0 then base else base ++ "_" ++ toString (earlier + 1)) ∧
        ∀ k, numbered base k ∈ (parameterNames names).take i ↔ k < earlier) ∧
      (parameterNames names).length = names.length ∧ (parameterNames names).Nodup ∧
      (∀ name ∈ parameterNames names, isLegal name = true ∧ name ∉ reservedWords) ∧
      ∀ n, (parameterNames names).take n = parameterNames (names.take n) := by
  refine ⟨fun i ↦ ?_, length_parameterNames names, nodup_parameterNames names, fun name hname ↦ ?_,
    fun n ↦ ?_⟩
  · have hbase : (parameterBases names)[(i : Nat)]? = some (derive (.parameter i) names[i]) := by
      rw [getElem?_parameterBases, Fin.getElem_fin, List.getElem?_eq_getElem i.isLt]
      rfl
    have hsep := separate_parameterBases names
    refine ⟨?_, mem_take_distinct_iff hsep (List.mem_of_getElem? hbase) i⟩
    rw [parameterNames, getElem?_distinct hsep, hbase]
    rfl
  · have husable := usable_parameterNames names 0 name hname
    exact ⟨husable.legal, by simpa [isReserved, Kind.reserved] using husable.free⟩
  · rw [parameterNames, take_distinct, take_parameterBases]
    rfl

/-- Identifiers that occur again, one that is put behind a reserved word, and a stand-in that
another parameter is named like. -/
example :
    parameterNames ["amount", "Amount", "class", "", "class", "arg3", "amount 2", "amount"] =
      ["amount", "amount_2", "class_", "arg3", "class__2", "arg3_2", "amount2", "amount_3"] := by
  decide +kernel

end ContractBindings.Identifier
