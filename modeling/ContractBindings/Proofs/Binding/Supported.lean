import ContractBindings.Binding.Plan
import ContractBindings.Proofs.Results

/-!
# Types that have a counterpart

A type has a counterpart in the modules if it is not too deep, nothing in it is without values, and
its maps have keys that are compared by value or not known. `Supported` says this of all the types
that stand inside, however deep; `obstacles` lists what is in the way, from left to right. Mapping a
type reports them (`reports_mapType`), and none is in the way if and only if the type is supported
(`resultFaults_eq_nil_iff`).

`Void` has no values, so it may be the type of a result but of nothing else.
-/

namespace ContractBindings

/-- The types that stand inside a type, at any depth. -/
def AbiType.contents : AbiType → List AbiType
  | .scalar _ => []
  | .array element => element :: element.contents
  | .map key value => (key :: key.contents) ++ (value :: value.contents)

namespace Binding

/-- A type that is no map, or one whose keys are primitive or of any type. -/
def KeyAllowed : AbiType → Prop
  | .map key _ => key.isPrimitive = true ∨ key = .scalar .any
  | _ => True

/-- A type that is not too deep, holds no `Void`, and has no maps with other keys than the allowed
ones. -/
structure Supported (type : AbiType) : Prop where
  depth_le : type.depth ≤ AbiType.maxDepth
  ne_void : ∀ u ∈ type.contents, u ≠ .scalar .void
  keyAllowed : ∀ u ∈ type :: type.contents, KeyAllowed u

/-! ### Obstacles -/

/-- The reasons, from left to right, why a type may not stand inside a container. -/
def obstacles : AbiType → List Unsupported
  | .scalar s => faultIf (s = .void) .voidInContainer
  | .array element => obstacles element
  | .map key value =>
    faultIf (isKey key = false) (.keyNotPrimitive key) ++ (obstacles key ++ obstacles value)

/-- The reasons why a type may not be that of a result. -/
def resultObstacles : AbiType → List Unsupported
  | .scalar _ => []
  | type => obstacles type

variable {type key value : AbiType}

theorem isKey_iff : isKey key = true ↔ key.isPrimitive = true ∨ key = .scalar .any := by
  rw [isKey, Bool.or_eq_true, beq_iff_eq]

theorem unsupported?_eq_head? (type : AbiType) : unsupported? type = (obstacles type).head? := by
  induction type with
  | scalar s => cases s <;> rfl
  | array element ih => exact ih
  | map key value ihk ihv =>
    rw [unsupported?, obstacles]
    cases isKey key with
    | true =>
      show (unsupported? key).or (unsupported? value) = (obstacles key ++ obstacles value).head?
      rw [List.head?_append, ihk, ihv]
    | false => rfl

theorem unsupportedResult?_eq_head? (type : AbiType) :
    unsupportedResult? type = (resultObstacles type).head? := by
  cases type with
  | scalar s => rfl
  | array element => exact unsupported?_eq_head? _
  | map key value => exact unsupported?_eq_head? _

/-- Nothing is in the way of a type inside a container if and only if it is not `Void`, holds no
`Void` and has keys as they are allowed. -/
theorem obstacles_eq_nil_iff :
    obstacles type = [] ↔ ∀ u ∈ type :: type.contents, u ≠ .scalar .void ∧ KeyAllowed u := by
  induction type with
  | scalar s => simp [obstacles, faultIf_eq_nil_iff, AbiType.contents, KeyAllowed]
  | array element ih => simp [obstacles, ih, AbiType.contents, KeyAllowed]
  | map key value ihk ihv =>
    have hmap : AbiType.map key value ≠ .scalar .void ∧ KeyAllowed (.map key value) ↔
        isKey key = true :=
      (and_iff_right nofun).trans isKey_iff.symm
    simp only [obstacles, List.append_eq_nil_iff, faultIf_eq_nil_iff, Bool.not_eq_false, ihk, ihv,
      AbiType.contents, List.forall_mem_append, List.forall_mem_cons, hmap]

theorem resultObstacles_eq_nil_iff :
    resultObstacles type = [] ↔ (∀ u ∈ type.contents, u ≠ .scalar .void) ∧
      ∀ u ∈ type :: type.contents, KeyAllowed u := by
  cases type with
  | scalar s => simp [resultObstacles, AbiType.contents, KeyAllowed]
  | array element =>
    show obstacles (.array element) = [] ↔ _
    simp [obstacles_eq_nil_iff, forall_and]
  | map key value =>
    show obstacles (.map key value) = [] ↔ _
    simp [obstacles_eq_nil_iff, forall_and]

/-! ### Faults of types -/

/-- What is wrong with the type of a result: its depth, and then what is in its way. -/
def resultFaults (place : TypePlace) (type : AbiType) : List GenerationError :=
  faultIf (AbiType.maxDepth < type.depth) (.malformedType place type.text .tooDeep) ++
    (resultObstacles type).map (.unsupportedType place type.text)

/-- What is wrong with the type of a value. -/
def valueFaults (place : TypePlace) (type : AbiType) : List GenerationError :=
  faultIf (type = .scalar .void) (.unsupportedType place type.text .voidValue) ++
    resultFaults place type

theorem resultFaults_eq_nil_iff {place : TypePlace} :
    resultFaults place type = [] ↔ Supported type := by
  rw [resultFaults, List.append_eq_nil_iff, faultIf_eq_nil_iff, List.map_eq_nil_iff,
    resultObstacles_eq_nil_iff, Nat.not_lt]
  exact ⟨fun ⟨hdepth, hvoid, hkeys⟩ ↦ ⟨hdepth, hvoid, hkeys⟩,
    fun h ↦ ⟨h.depth_le, h.ne_void, h.keyAllowed⟩⟩

theorem valueFaults_eq_nil_iff {place : TypePlace} :
    valueFaults place type = [] ↔ type ≠ .scalar .void ∧ Supported type := by
  rw [valueFaults, List.append_eq_nil_iff, faultIf_eq_nil_iff, resultFaults_eq_nil_iff]

/-- **Mapping a type reports what is wrong with it.** -/
theorem reports_mapType (place : TypePlace) (type : AbiType) :
    Reports (resultFaults place type) ((mapType type).mapError (·.located place)) := by
  rw [mapType, resultFaults, unsupportedResult?_eq_head?, apply_ite (Except.mapError _)]
  refine reports_faultIf _ ?_
  cases resultObstacles type with
  | nil => exact reports_ok _
  | cons reason later => exact reports_error _ _

theorem reports_mapValueType (place : TypePlace) (type : AbiType) :
    Reports (valueFaults place type) (mapValueType place type) :=
  reports_faultIf _ (reports_mapType place type)

end Binding

end ContractBindings
