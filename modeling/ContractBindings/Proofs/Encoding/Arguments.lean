import ContractBindings.Proofs.Binding.Sketch
import ContractBindings.Proofs.Encoding.ArgumentText
import ContractBindings.Proofs.Encoding.Evaluation
import ContractBindings.Proofs.Identifier.MethodNames

/-!
# Arguments

What client modules say about an argument, put together: the expression that is written for it can
be read, and what is read is well typed, mentions nothing but the prelude and the parameter, and
evaluates to the argument for the parameter's value (`encode_sound`). A parameter has a type with a
counterpart, which leaves out every type without values.
-/

namespace ContractBindings.Encoding

open Binding Identifier

/-- An expression that encodes the values of a type, which a variable of a declared type holds. -/
structure Encodes (type : AbiType) (name : String) (declared : TypeExpr) (e : EncodeExpr) :
    Prop where
  typed : HasType (Scope.ofVariable name declared) e argumentType
  mem_free : ∀ other, other ∈ free e ↔ other = "Encode" ∨ other = name
  eval_eq : ∀ v, HasShape type v → eval (Scope.ofVariable name v) e = some (argumentOf type v)
  isContractArg : ∀ v, IsContractArg (argumentOf type v)

/-- Values of a type that has a counterpart may stand inside a container, unless there are none. -/
theorem unsupported?_of_mapType {type : AbiType} {mapped : MappedType}
    (h : mapType type = .ok mapped) (hvoid : type ≠ .scalar .void) : unsupported? type = none := by
  unfold mapType at h
  split at h
  case isTrue => cases h
  case isFalse =>
    split at h
    case h_1 => cases h
    case h_2 hnone =>
      cases type with
      | scalar s => cases s <;> first | rfl | exact absurd rfl hvoid
      | array element => exact hnone
      | map key value => exact hnone

theorem encodes_encode {type : AbiType} (hvoid : type ≠ .scalar .void)
    (htype : unsupported? type = none) {name : String} (hname : name ≠ "Encode") :
    Encodes type name (typeExpr type) (encode name type) where
  typed := (typed_of_type type 1).2 name htype _ (Scope.hasPrelude_ofVariable hname _)
    (Scope.holds_cons ..)
  mem_free other := (Encoding.mem_free type 1 other).2 name
  eval_eq v hv := (eval_of_type type 1).2 name _ (Scope.hasPrelude_ofVariable hname _) v hv
    (Scope.holds_cons ..)
  isContractArg := isContractArg_argumentOf hvoid

/-- No parameter hides the table of the prelude. -/
theorem ne_encode_of_mem_parameterNames {names : List String} {name : String}
    (h : name ∈ parameterNames names) : name ≠ "Encode" := by
  rintro rfl
  obtain ⟨c, rest, heq, hc⟩ := beginsSmall_parameterNames names _ h
  have hchars : "Encode".toList = ['E', 'n', 'c', 'o', 'd', 'e'] := rfl
  rw [hchars] at heq
  cases heq
  exact absurd hc (by decide)

/-- **What is written for an argument encodes it**, if the type of the parameter has a counterpart
and values, whatever identifier other than `Encode` the parameter has: names of parameters are such
identifiers. -/
theorem encode_sound {type : AbiType} {mapped : MappedType} (hmapped : mapType type = .ok mapped)
    (hvoid : type ≠ .scalar .void) :
    (∀ name, isLegal name = true → name ≠ "Encode" → ∃ e declared,
      wholeEncodeExpr? (encode name type).text = some e ∧
      wholeTypeExpr? mapped.typeExpr.text = some declared ∧
      Encodes type name declared e) ∧
    ∀ names, ∀ name ∈ parameterNames names, isLegal name = true ∧ name ≠ "Encode" := by
  have htype := unsupported?_of_mapType hmapped hvoid
  refine ⟨fun name hlegal hname ↦ ?_, fun names name hmem ↦ ?_⟩
  · rw [eq_sketchType_of_mapType hmapped]
    exact ⟨_, _, wholeEncodeExpr?_encode type hlegal, wholeTypeExpr?_typeExpr type,
      encodes_encode hvoid htype hname⟩
  · exact ⟨(usable_parameterNames names 0 name hmem).legal, ne_encode_of_mem_parameterNames hmem⟩

/-- A map of lists of lists, from a parameter that is named like the variables of arrows. The tags
are those of the type at each of its four levels. -/
theorem encode_sound_nestedLists :
    let type : AbiType := .map (.scalar .string) (.array (.array (.scalar .integer)))
    let lists : Datum := .list [.list [.number 7, .number 11], .list []]
    ∃ e, wholeEncodeExpr? (encode "v1" type).text = some e ∧
      eval (Scope.ofVariable "v1" (.map [(.text "a", lists), (.text "b", .list [])])) e =
        some (argument type (.list [
          entry (argument (.scalar .string) (.text "a"))
            (argument (.array (.array (.scalar .integer))) (.list [
              argument (.array (.scalar .integer)) (.list [
                argument (.scalar .integer) (.text "7"),
                argument (.scalar .integer) (.text "11")]),
              argument (.array (.scalar .integer)) (.list [])])),
          entry (argument (.scalar .string) (.text "b"))
            (argument (.array (.array (.scalar .integer))) (.list []))])) := by
  intro type lists
  have hmapped : mapType type = .ok ⟨typeExpr type, decoder type⟩ := rfl
  obtain ⟨hencode, -⟩ := encode_sound hmapped (by simp [type])
  obtain ⟨e, declared, hread, -, h⟩ := hencode "v1" (by decide) (by decide)
  refine ⟨e, hread, ?_⟩
  have hshape : HasShape type (.map [(.text "a", lists), (.text "b", .list [])]) := by
    simp [type, lists, HasShape]
  rw [h.eval_eq _ hshape]
  rfl

end ContractBindings.Encoding
