import ContractBindings.Proofs.AbiType.Style
import ContractBindings.Proofs.Binding.Sketch
import ContractBindings.Proofs.Binding.Supported

/-!
# Which types have a counterpart, and what their decoders tell

Mapping a type ends in one of three ways, which exclude each other (`mapType_cases`): it is too
deep, or something in it is in the way, or it is supported and gets its counterpart. Depth is looked
at first, so of the other obstacles only types within the bound are told.

Of a type that has a counterpart nothing is lost in its decoder (`decoder_text_injective`), although
decoders are read from left to right and nest without bound: the words that they begin with are
different, and none begins another. The expressions for values do not have this property, as several
scalars share one.
-/

namespace ContractBindings.Binding

/-! ### Outcomes -/

variable {type key value : AbiType} {reason : Unsupported}

/-- What cannot be mapped in a type, besides its depth: `Void` inside a container, or a map whose
keys are neither primitive nor of any type. -/
def HoldsUnsupported (type : AbiType) : Prop :=
  .scalar .void ∈ type.contents ∨
    ∃ key value, .map key value ∈ type :: type.contents ∧ key.isPrimitive = false ∧
      key ≠ .scalar .any

theorem resultObstacles_ne_nil_iff : resultObstacles type ≠ [] ↔ HoldsUnsupported type := by
  rw [ne_eq, resultObstacles_eq_nil_iff, not_and_or]
  refine or_congr ?_ ?_
  · rw [not_forall]
    constructor
    · rintro ⟨u, hu⟩
      rw [Classical.not_imp, not_not] at hu
      exact hu.2 ▸ hu.1
    · exact fun hmem ↦ ⟨_, fun h ↦ h hmem rfl⟩
  · constructor
    · intro h
      rw [not_forall] at h
      obtain ⟨u, hu⟩ := h
      rw [Classical.not_imp] at hu
      obtain ⟨hmem, hkey⟩ := hu
      rcases u with s | element | ⟨key, value⟩
      · exact absurd trivial hkey
      · exact absurd trivial hkey
      · rw [KeyAllowed, not_or, Bool.not_eq_true] at hkey
        exact ⟨key, value, hmem, hkey⟩
    · rintro ⟨key, value, hmem, hprimitive, hany⟩ h
      rcases h _ hmem with hkey | hkey
      · rw [hprimitive] at hkey
        cases hkey
      · exact hany hkey

/-- **Mapping a type ends in one of three ways.** -/
theorem mapType_cases (type : AbiType) :
    (AbiType.maxDepth < type.depth ∧ mapType type = .error (.tooDeep type)) ∨
    (type.depth ≤ AbiType.maxDepth ∧ HoldsUnsupported type ∧
      ∃ reason, mapType type = .error (.unsupported type reason)) ∨
    (type.depth ≤ AbiType.maxDepth ∧ ¬ HoldsUnsupported type ∧
      mapType type = .ok (sketchType type)) := by
  rcases Nat.lt_or_ge AbiType.maxDepth type.depth with hlt | hle
  · exact .inl ⟨hlt, by rw [mapType, if_pos hlt]⟩
  refine .inr ?_
  rw [← resultObstacles_ne_nil_iff, mapType, if_neg (Nat.not_lt.2 hle), unsupportedResult?_eq_head?]
  cases hobstacles : resultObstacles type with
  | nil => exact .inr ⟨hle, by simp, rfl⟩
  | cons reason later => exact .inl ⟨hle, by simp, reason, rfl⟩

theorem exists_mapType_eq_tooDeep_iff :
    (∃ u, mapType type = .error (.tooDeep u)) ↔ AbiType.maxDepth < type.depth := by
  rcases mapType_cases type with ⟨hlt, h⟩ | ⟨hle, -, reason, h⟩ | ⟨hle, -, h⟩
  · exact iff_of_true ⟨type, h⟩ hlt
  · exact iff_of_false (by simp [h]) (Nat.not_lt.2 hle)
  · exact iff_of_false (by simp [h]) (Nat.not_lt.2 hle)

theorem exists_mapType_eq_unsupported_iff :
    (∃ u reason, mapType type = .error (.unsupported u reason)) ↔
      type.depth ≤ AbiType.maxDepth ∧ HoldsUnsupported type := by
  rcases mapType_cases type with ⟨hlt, h⟩ | ⟨hle, hholds, reason, h⟩ | ⟨-, hholds, h⟩
  · exact iff_of_false (by simp [h]) fun hle ↦ Nat.not_lt.2 hle.1 hlt
  · exact iff_of_true ⟨type, reason, h⟩ ⟨hle, hholds⟩
  · exact iff_of_false (by simp [h]) fun hle ↦ hholds hle.2

theorem exists_mapType_eq_ok_iff :
    (∃ mapped, mapType type = .ok mapped) ↔
      type.depth ≤ AbiType.maxDepth ∧ ¬ HoldsUnsupported type := by
  rcases mapType_cases type with ⟨hlt, h⟩ | ⟨-, hholds, reason, h⟩ | ⟨hle, hholds, h⟩
  · exact iff_of_false (by simp [h]) fun hle ↦ Nat.not_lt.2 hle.1 hlt
  · exact iff_of_false (by simp [h]) fun hle ↦ hle.2 hholds
  · exact iff_of_true ⟨_, h⟩ ⟨hle, hholds⟩

/-- An error of mapping tells a type by its whole canonical text, in its own words and in the error
of the generation that it ends. -/
def TypeMapError.Tells (error : TypeMapError) (type : AbiType) : Prop :=
  (error.message = "type '" ++ type.text ++ "' nests deeper than 32 levels" ∧
    ∀ place, error.located place = .malformedType place type.text .tooDeep) ∨
  ∃ reason : Unsupported,
    error.message = "unsupported type '" ++ type.text ++ "': " ++ reason.message ∧
      ∀ place, error.located place = .unsupportedType place type.text reason

theorem tells_of_mapType {error : TypeMapError} (h : mapType type = .error error) :
    error.Tells type := by
  rcases mapType_cases type with ⟨-, hmap⟩ | ⟨-, -, reason, hmap⟩ | ⟨-, -, hmap⟩
  · obtain rfl := Except.error.inj (hmap.symm.trans h)
    exact .inl ⟨rfl, fun _ ↦ rfl⟩
  · obtain rfl := Except.error.inj (hmap.symm.trans h)
    exact .inr ⟨reason, rfl, fun _ ↦ rfl⟩
  · rw [hmap] at h
    cases h

/-! ### Written decoders -/

/-- The style in which decoders write the types that they decode. -/
def decoderStyle : AbiType.Style where
  scalar s := (decoder (.scalar s)).text
  array := "\x7b array: "
  arrayEnd := " \x7d"
  map := "\x7b map: ["
  mapMiddle := ", "
  mapEnd := "] \x7d"

theorem readable_decoderStyle : decoderStyle.Readable where
  nodup := by decide +kernel
  prefixFree := by decide +kernel

theorem toList_decoder_append (type : AbiType) (s : List Char) :
    (decoder type).text.toList ++ s = decoderStyle.write s type := by
  induction type generalizing s with
  | scalar x => rfl
  | array element ih =>
    rw [decoder, Decoder.text, String.toList_append, String.toList_append, List.append_assoc,
      List.append_assoc, ih]
    rfl
  | map key value ihk ihv =>
    simp only [decoder, Decoder.text, String.toList_append, List.append_assoc]
    rw [ihv, ihk]
    rfl

/-- **The written decoder of a type tells the type.** -/
theorem decoder_text_injective : Function.Injective fun type ↦ (decoder type).text := by
  intro a b h
  have hwrite : decoderStyle.write [] a = decoderStyle.write [] b := by
    rw [← toList_decoder_append, ← toList_decoder_append]
    exact congrArg (fun text : String ↦ text.toList ++ []) h
  exact (readable_decoderStyle.write_inj hwrite).1

/-- **Which types have a counterpart, and that their decoders tell them apart.** -/
theorem mapType_outcomes_and_decoders :
    (∀ type : AbiType,
      ((∃ u, mapType type = .error (.tooDeep u)) ↔ AbiType.maxDepth < type.depth) ∧
      ((∃ u reason, mapType type = .error (.unsupported u reason)) ↔
        type.depth ≤ AbiType.maxDepth ∧ HoldsUnsupported type) ∧
      ((∃ mapped, mapType type = .ok mapped) ↔
        type.depth ≤ AbiType.maxDepth ∧ ¬ HoldsUnsupported type) ∧
      ∀ error, mapType type = .error error → error.Tells type) ∧
    ∀ (a b : AbiType) (mapped other : MappedType),
      mapType a = .ok mapped → mapType b = .ok other →
        mapped.decoder.text = other.decoder.text → a = b := by
  refine ⟨fun type ↦ ⟨exists_mapType_eq_tooDeep_iff, exists_mapType_eq_unsupported_iff,
    exists_mapType_eq_ok_iff, fun _ ↦ tells_of_mapType⟩, fun a b mapped other ha hb htext ↦ ?_⟩
  rw [eq_sketchType_of_mapType ha, eq_sketchType_of_mapType hb] at htext
  exact decoder_text_injective htext

/-- A map with a list of `Void` in it is told whole, and two types that share an expression for
their values do not share a decoder. -/
theorem mapType_outcomes_and_decoders_nested :
    let refused : AbiType := .map (.scalar .string) (.array (.scalar .void))
    let bytes : AbiType := .map (.scalar .any) (.array (.scalar .byteArray))
    let signatures : AbiType := .map (.scalar .any) (.array (.scalar .signature))
    mapType refused = .error (.unsupported refused .voidInContainer) ∧
      TypeMapError.Tells (.unsupported refused .voidInContainer) refused ∧
      mapType bytes = .ok (sketchType bytes) ∧ mapType signatures = .ok (sketchType signatures) ∧
      (typeExpr bytes).text = (typeExpr signatures).text ∧
      (decoder bytes).text ≠ (decoder signatures).text := by
  intro refused bytes signatures
  have hrefused : mapType refused = .error (.unsupported refused .voidInContainer) := by decide
  have hbytes : mapType bytes = .ok (sketchType bytes) := by decide
  have hsignatures : mapType signatures = .ok (sketchType signatures) := by decide
  have hne : bytes ≠ signatures := by decide
  obtain ⟨houtcomes, hdecoders⟩ := mapType_outcomes_and_decoders
  obtain ⟨-, -, -, htells⟩ := houtcomes refused
  exact ⟨hrefused, htells _ hrefused, hbytes, hsignatures, by decide,
    fun htext ↦ hne (hdecoders bytes signatures _ _ hbytes hsignatures htext)⟩

end ContractBindings.Binding
