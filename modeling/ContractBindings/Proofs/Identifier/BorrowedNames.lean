import ContractBindings.Proofs.Identifier.Casing
import ContractBindings.Proofs.Identifier.Occurrences
import ContractBindings.Proofs.Module.Lexer

/-!
# Names that modules borrow

Besides its own members, the class of a module stands next to names that the module uses for
something else: what the prelude exports, globals, and built-in types. If it were called like one of
them, every use of that name in the module would mean the class. No such name is missing: those of
type expressions are among them (`identifiers_typeExpr_subset`), and so are the capitalized ones of
the prelude (`mem_borrowedNames_of_mem_prelude`).

A name that is made from a contract's name is none of them. It stays what it is when it is made
again (`derive_derive`), which the built-in types do not, as they begin with small letters; the
other names are all reserved for classes. A name that the user chose is only compared with the
reserved ones, of which `void` is the one built-in type. The other four are let through, and this is
the only way in which a class takes a borrowed name (`takes_borrowed_name_iff`).
-/

namespace ContractBindings.Identifier

open Binding

variable {raw name : String}

/-! ### The borrowed names -/

/-- Globals that modules refer to. -/
def referencedGlobals : List String :=
  ["Array", "Map", "Promise", "Uint8Array"]

/-- Built-in types that occur in modules. -/
def builtInTypes : List String :=
  ["bigint", "boolean", "string", "unknown", "void"]

/-- Names that modules use for something else than their class. -/
def borrowedNames : List String :=
  Module.preludeExports ++ referencedGlobals ++ builtInTypes

/-- All names in a type expression are borrowed. -/
theorem identifiers_typeExpr_subset (type : AbiType) :
    identifiers (typeExpr type).text.toList ⊆ borrowedNames := by
  induction type with
  | scalar s =>
    have hscalar : isLegal (scalarTypeName s) = true ∧ scalarTypeName s ∈ borrowedNames := by
      cases s <;> decide
    show identifiers (scalarTypeName s).toList ⊆ borrowedNames
    rw [identifiers_of_isLegal hscalar.1]
    exact List.cons_subset.2 ⟨hscalar.2, List.nil_subset _⟩
  | array element ih =>
    show identifiers (typeExpr element).list.text.toList ⊆ borrowedNames
    rwa [identifiers_list]
  | map key value ihk ihv =>
    show identifiers ((typeExpr key).map (typeExpr value)).text.toList ⊆ borrowedNames
    rw [identifiers_map]
    exact List.cons_subset.2 ⟨by decide, List.append_subset.2 ⟨ihk, ihv⟩⟩

/-- The identifiers in the code of a line, outside comments and strings. -/
def codeIdentifiers (line : List Char) : List String :=
  identifiers ((Module.lex .code line).1.map fun
    | .code c => c
    | .comment | .string => ' ')

/-- All capitalized names in the code of the prelude are borrowed, parameters of types apart. -/
theorem mem_borrowedNames_of_mem_prelude :
    ∀ line ∈ Module.prelude.map String.toList, ∀ name ∈ codeIdentifiers line,
      name.toList.head?.all Char.isUpper → name ∈ borrowedNames ++ ["T", "K", "V"] := by
  simp only [Module.prelude, List.map_cons, List.map_nil]
  repeat rw [String.toList_ofList]
  decide +kernel

/-! ### Names of classes -/

/-- Of the borrowed names only built-in types are not reserved, and `void` is. -/
theorem isReserved_contract_eq_false_iff (h : name ∈ borrowedNames) :
    isReserved .contract name = false ↔ name ∈ builtInTypes ∧ name ≠ "void" := by
  have hall : ∀ name ∈ borrowedNames,
      isReserved .contract name = false ↔ name ∈ builtInTypes ∧ name ≠ "void" := by decide
  exact hall name h

/-- **No contract's name gives its class a borrowed name.** -/
theorem derive_contract_not_mem_borrowedNames (raw : String) :
    derive .contract raw ∉ borrowedNames := by
  intro hmem
  have hfree := (usable_derive .contract raw).free
  obtain ⟨hbuiltIn, -⟩ := (isReserved_contract_eq_false_iff hmem).1 hfree
  have hchanged : ∀ name ∈ builtInTypes, derive .contract name ≠ name := by decide
  exact hchanged _ hbuiltIn (derive_derive .contract raw)

theorem takes_borrowed_name_iff {chosen : Option String} :
    resolve .contract raw chosen = .ok name ∧ name ∈ borrowedNames ↔
      chosen = some name ∧ name ∈ builtInTypes ∧ name ≠ "void" := by
  constructor
  · rintro ⟨hresolve, hmem⟩
    have hfree := (isReserved_contract_eq_false_iff hmem).1 (usable_of_resolve hresolve).free
    refine ⟨?_, hfree⟩
    rcases chosen with _ | choice
    · obtain rfl := Except.ok.inj hresolve
      exact absurd hmem (derive_contract_not_mem_borrowedNames raw)
    · rw [resolve, choose] at hresolve
      split at hresolve
      case isTrue => rw [Except.ok.inj hresolve]
      case isFalse => cases hresolve
  · rintro ⟨rfl, hbuiltIn, hvoid⟩
    have hmem : name ∈ borrowedNames := List.mem_append_right _ hbuiltIn
    have hlegal : ∀ name ∈ builtInTypes, isLegal name = true := by decide
    have hfree := (isReserved_contract_eq_false_iff hmem).2 ⟨hbuiltIn, hvoid⟩
    refine ⟨?_, hmem⟩
    rw [resolve, choose, hlegal name hbuiltIn, hfree]
    rfl

/-- **A class has no borrowed name, unless the user chose a built-in type other than `void`.** -/
theorem class_avoids_borrowed_names_iff (raw : String) (chosen : Option String) :
    (∀ name, resolve .contract raw chosen = .ok name → name ∉ borrowedNames) ↔
      ∀ choice, chosen = some choice → choice = "void" ∨ choice ∉ builtInTypes := by
  constructor
  · intro h choice hchosen
    by_contra hbuiltIn
    rw [not_or, not_not] at hbuiltIn
    obtain ⟨hresolve, hmem⟩ := takes_borrowed_name_iff.2 ⟨hchosen, hbuiltIn.2, hbuiltIn.1⟩
    exact h choice hresolve hmem
  · intro h name hresolve hmem
    obtain ⟨hchosen, hbuiltIn, hvoid⟩ := takes_borrowed_name_iff.1 ⟨hresolve, hmem⟩
    exact (h name hchosen).elim hvoid fun hnot ↦ hnot hbuiltIn

/-- A class may be called like a built-in type. -/
theorem class_takes_string :
    ¬ ∀ (raw : String) (chosen : Option String) (name : String),
      resolve .contract raw chosen = .ok name → name ∉ borrowedNames := by
  intro h
  have hresolve : resolve .contract "Token" (some "string") = .ok "string" := by decide
  exact h "Token" (some "string") "string" hresolve (by decide)

end ContractBindings.Identifier
