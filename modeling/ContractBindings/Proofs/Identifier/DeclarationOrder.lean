import ContractBindings.Proofs.Identifier.Stems
import Mathlib.Data.List.FinRange

/-!
# Names and the order of declaration

Which name a member has depends on the order in which methods are declared only where methods have
to be numbered or told apart. If no two methods have the same identifier and the same types, and no
method has for its identifier what another has with a suffix, all stems are different
(`nodup_stems`), so that each is given as it is; and a stem depends on how often an identifier
occurs, wherever it does (`stem_perm`). The names of a reordered list are then the reordered names
(`methodNames_reorder`).
-/

namespace ContractBindings.Identifier

variable {methods others : List Method}

/-- Different stems are given as they are. -/
theorem methodNames_eq_map_stem (h : (methods.map (stem methods)).Nodup) :
    methodNames methods = methods.map (stem methods) := by
  refine List.ext_getElem? fun i ↦ ?_
  cases hm : methods[i]? with
  | none =>
    have hlength := List.getElem?_eq_none_iff.1 hm
    rw [List.getElem?_eq_none (by rwa [length_methodNames]),
      List.getElem?_eq_none (by rwa [List.length_map])]
  | some m =>
    have hi : (methods.map (stem methods))[i]? = some (stem methods m) := by
      rw [List.getElem?_map, hm, Option.map_some]
    have hnew : ∀ e ∈ methods.take i, stem methods e ≠ stem methods m := by
      intro e he heq
      refine not_mem_take_of_nodup h hi ?_
      rw [← List.map_take]
      exact List.mem_map.2 ⟨e, he, heq⟩
    rw [(getElem?_methodNames_eq_stem_iff hm).2 hnew, hi]

/-- Two methods with the same identifier share it. -/
theorem shared_of_mem {a b : Method} (ha : a ∈ methods) (hb : b ∈ methods) (hab : a ≠ b)
    (hbase : derive .method a.name = derive .method b.name) : Shared methods a := by
  obtain ⟨i, hi⟩ := List.mem_iff_getElem?.1 ha
  obtain ⟨j, hj⟩ := List.mem_iff_getElem?.1 hb
  refine shared_of_ne (fun hij ↦ hab ?_) hi hj hbase
  rw [hij, hj] at hi
  exact (Option.some.inj hi).symm

/-- Stems are different where identifiers with types are, and none is an identifier of its own. -/
theorem nodup_stems
    (hpairs : (methods.map fun m ↦ (derive .method m.name, m.parameterTypes)).Nodup)
    (hlone : ∀ m ∈ methods, (methodBases methods).count (derive .method m.name) = 1 →
      ∀ other ∈ methods, other ≠ m →
        derive .method m.name ≠ derive .method other.name ++ overloadSuffix other.parameterTypes) :
    (methods.map (stem methods)).Nodup := by
  rw [List.Nodup, List.pairwise_map] at hpairs ⊢
  refine hpairs.imp_of_mem fun {a b} ha hb hpair hstem ↦ ?_
  have hab : a ≠ b := fun heq ↦ hpair (heq ▸ rfl)
  by_cases hsa : Shared methods a <;> by_cases hsb : Shared methods b
  · rw [stem_of_shared hsa, stem_of_shared hsb, append_overloadSuffix_inj] at hstem
    exact hpair (Prod.ext hstem.1 hstem.2)
  · rw [stem_of_shared hsa, stem_of_not_shared hsb] at hstem
    exact hlone b hb ((count_methodBases_eq_one_iff hb).2 hsb) a ha hab hstem.symm
  · rw [stem_of_not_shared hsa, stem_of_shared hsb] at hstem
    exact hlone a ha ((count_methodBases_eq_one_iff ha).2 hsa) b hb hab.symm hstem
  · rw [stem_of_not_shared hsa, stem_of_not_shared hsb] at hstem
    exact hsa (shared_of_mem ha hb hab hstem)

/-- Which stem a method has does not depend on the order. -/
theorem stem_perm (h : others.Perm methods) (m : Method) : stem others m = stem methods m := by
  have hcount : ∀ base, (methodBases others).count base = (methodBases methods).count base :=
    fun base ↦ (h.map _).count_eq base
  have hshared : Shared others m ↔ Shared methods m := by
    unfold Shared
    rw [hcount]
  by_cases hm : Shared methods m
  · rw [stem_of_shared hm, stem_of_shared (hshared.2 hm)]
  · rw [stem_of_not_shared hm, stem_of_not_shared fun h ↦ hm (hshared.1 h)]

/-- In every order each method has its stem. -/
theorem methodNames_perm (hperm : others.Perm methods)
    (h : (methods.map (stem methods)).Nodup) :
    methodNames others = others.map (stem methods) := by
  have hstems : stem others = stem methods := funext (stem_perm hperm)
  rw [← hstems]
  refine methodNames_eq_map_stem ?_
  rwa [hstems, (hperm.map (stem methods)).nodup_iff]

/-- **Names do not depend on the order of declaration** where identifiers with types are pairwise
distinct and no identifier of a single method is that of another method with its suffix. -/
theorem methodNames_reorder (methods : List Method)
    (hpairs : (methods.map fun m ↦ (derive .method m.name, m.parameterTypes)).Nodup)
    (hlone : ∀ m ∈ methods, (methodBases methods).count (derive .method m.name) = 1 →
      ∀ other ∈ methods, other ≠ m →
        derive .method m.name ≠ derive .method other.name ++ overloadSuffix other.parameterTypes)
    (order : Equiv.Perm (Fin methods.length)) :
    methodNames (List.ofFn fun i ↦ methods[order i]) =
      List.ofFn fun i ↦ (methodNames methods)[order i] := by
  have hnodup := nodup_stems hpairs hlone
  have hperm : (List.ofFn fun i ↦ methods[order i]).Perm methods := by
    have hsame : (List.ofFn fun i : Fin methods.length ↦ methods[i]) = methods :=
      List.ofFn_getElem
    have horder := Equiv.Perm.ofFn_comp_perm order fun i ↦ methods[i]
    rwa [hsame] at horder
  have hnames : ∀ i : Fin methods.length, (methodNames methods)[i] = stem methods methods[i] := by
    intro i
    simp [methodNames_eq_map_stem hnodup]
  rw [methodNames_perm hperm hnodup, List.map_ofFn]
  exact congrArg List.ofFn (funext fun i ↦ (hnames (order i)).symm)

/-- Overloads and single methods, one of which is named like the beginning of a name with a suffix,
from the last to the first. -/
theorem methodNames_reorder_overloads :
    let burn : Method := ⟨"burn", [⟨"amount", .scalar .integer, 0⟩], .scalar .void, false, none⟩
    let burnAll : Method := ⟨"Burn", [], .scalar .void, false, none⟩
    let other : Method :=
      ⟨"burn_with", [⟨"amount", .scalar .integer, 0⟩], .scalar .void, false, none⟩
    let methods := [burn, other, burnAll]
    (methods.map fun m ↦ (derive .method m.name, m.parameterTypes)).Nodup ∧
    (∀ m ∈ methods, (methodBases methods).count (derive .method m.name) = 1 →
      ∀ other ∈ methods, other ≠ m →
        derive .method m.name ≠ derive .method other.name ++ overloadSuffix other.parameterTypes) ∧
    methodNames (List.ofFn fun i ↦ methods[Fin.revPerm i]) =
      List.ofFn (fun i ↦ (methodNames methods)[Fin.revPerm i]) ∧
    methodNames [burnAll, other, burn] = ["burnWithNoArgs", "burnWith", "burnWithInteger"] := by
  intro burn burnAll other methods
  have hpairs : (methods.map fun m ↦ (derive .method m.name, m.parameterTypes)).Nodup := by
    decide +kernel
  have hlone : ∀ m ∈ methods, (methodBases methods).count (derive .method m.name) = 1 →
      ∀ other ∈ methods, other ≠ m → derive .method m.name ≠
        derive .method other.name ++ overloadSuffix other.parameterTypes := by
    decide +kernel
  exact ⟨hpairs, hlone, methodNames_reorder methods hpairs hlone Fin.revPerm, by decide +kernel⟩

end ContractBindings.Identifier
