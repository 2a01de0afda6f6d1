import ContractBindings.Proofs.AbiType.UnknownNames
import ContractBindings.Proofs.Manifest.Lenient
import ContractBindings.Proofs.Manifest.Faults

/-!
# What lenient loading lets pass

Where unknown names may pass, a descriptor passes if it writes a type, and also if an unknown name
stands in it behind the beginning of a descriptor (`Forgivable`). Every other descriptor is
malformed whatever the options are (`load_lenient_forgivable`).

The text behind the first unknown name is never looked at. So a descriptor passes with brackets that
no choice of names would make match (`load_returning_unclosed`).
-/

namespace ContractBindings.Manifest

open AbiType Json

/-! ### Descriptors of a document -/

/-- The descriptors of an entry, or none if the entry has not the shape of a record. -/
def entryTypes {ρ : Type} (shape : Shape ρ) (types : ρ → List (TypePlace × String))
    (entry : Json) : List (TypePlace × String) :=
  match shape entry with
  | .ok record => types record
  | .error _ => []

/-- The descriptors of a document, each with the place of its type. -/
def Document.types (document : Document) : List (TypePlace × String) :=
  match document.body with
  | .object members =>
    match ManifestRecord.ofMembers members with
    | .ok record =>
      record.abi.methods.flatMap (entryTypes MethodRecord.shape (·.types)) ++
        record.abi.events.flatMap (entryTypes EventRecord.shape (·.types))
    | .error _ => []
  | _ => []

variable {options : Options} {document : Document} {t : TypePlace × String}
  {error : GenerationError}

theorem mem_entryFaults {ρ : Type} {shape : Shape ρ} {types : ρ → List (TypePlace × String)}
    {entry : Json} (ht : t ∈ entryTypes shape types entry)
    (herror : error ∈ typeFaults options t.1 t.2) (place : ManifestPlace) (name : ρ → String)
    (blankName : ManifestFault) :
    error ∈ entryFaults options place shape name blankName types entry := by
  rw [entryTypes] at ht
  rw [entryFaults]
  cases hshape : shape entry with
  | ok record =>
    rw [hshape] at ht
    exact List.mem_append_right _ (List.mem_flatMap.2 ⟨t, ht, herror⟩)
  | error fault =>
    rw [hshape] at ht
    exact absurd ht List.not_mem_nil

/-- A fault of a descriptor is one of the list of entries that the descriptor is in. -/
theorem mem_faults_of_entries {ρ : Type} {shape : Shape ρ}
    {types : ρ → List (TypePlace × String)} {entries : List Json}
    (ht : t ∈ entries.flatMap (entryTypes shape types))
    (herror : error ∈ typeFaults options t.1 t.2) (place : Nat → ManifestPlace)
    (name : ρ → String) (blankName : ManifestFault) :
    error ∈ entries.zipIdx.flatMap fun (entry, index) ↦
      entryFaults options (place index) shape name blankName types entry := by
  obtain ⟨entry, hentry, ht⟩ := List.mem_flatMap.1 ht
  rw [← List.zipIdx_map_fst 0 entries] at hentry
  obtain ⟨⟨_, index⟩, hmem, rfl⟩ := List.mem_map.1 hentry
  exact List.mem_flatMap.2 ⟨_, hmem, mem_entryFaults ht herror _ _ _⟩

/-- A fault of a descriptor is one of the document. -/
theorem mem_faults (ht : t ∈ document.types) (herror : error ∈ typeFaults options t.1 t.2) :
    error ∈ faults options document := by
  obtain ⟨body, sourceHash⟩ := document
  cases body with
  | object members =>
    simp only [Document.types] at ht
    simp only [faults]
    cases hrecord : ManifestRecord.ofMembers members with
    | error fault =>
      rw [hrecord] at ht
      exact absurd ht List.not_mem_nil
    | ok record =>
      rw [hrecord] at ht
      refine List.mem_append_right _ (List.mem_append_right _ ?_)
      exact List.mem_append.2 ((List.mem_append.1 ht).imp
        (mem_faults_of_entries · herror _ _ _) (mem_faults_of_entries · herror _ _ _))
  | _ => exact absurd ht List.not_mem_nil

/-! ### Descriptors that pass -/

/-- A descriptor that writes a type, or meets an unknown name behind the beginning of one. -/
def Forgivable (descriptor : String) : Prop :=
  (∃ type, AbiType.parse descriptor = .ok type) ∨
    ∃ name before after, descriptor.toList = before ++ (name.toList ++ after) ∧
      MeetsUnknown 1 before name after

variable {descriptor : String}

theorem forgivable_iff :
    Forgivable descriptor ↔ (∃ type, AbiType.parse descriptor = .ok type) ∨
      ∃ name offset, AbiType.parse descriptor = .error ⟨.unknownName name, offset⟩ :=
  or_congr_right (exists_congr fun _ ↦ exists_ofChars_eq_unknownName_iff.symm)

/-- A descriptor that may not pass is malformed, whatever the options are. -/
theorem exists_typeFaults_of_not_forgivable (h : ¬ Forgivable descriptor) :
    ∃ fault, ∀ options place, typeFaults options place descriptor =
      [.malformedType place descriptor (.descriptor fault)] := by
  rw [forgivable_iff, not_or] at h
  obtain ⟨hok, hunknown⟩ := h
  cases hparse : AbiType.parse descriptor with
  | ok type => exact absurd ⟨type, hparse⟩ hok
  | error error =>
    refine ⟨error, fun options place ↦ ?_⟩
    obtain ⟨fault, offset⟩ := error
    rw [typeFaults, hparse]
    cases fault with
    | unknownName name => exact absurd ⟨name, offset, hparse⟩ hunknown
    | _ => rfl

/-- Nothing is wrong with a descriptor for lenient loading if and only if it may pass. -/
theorem typeFaults_lenient_eq_nil_iff (options : Options) (place : TypePlace) :
    typeFaults (options.allowing true) place descriptor = [] ↔ Forgivable descriptor := by
  constructor
  · intro hnil
    by_contra hforgivable
    obtain ⟨fault, hfault⟩ := exists_typeFaults_of_not_forgivable hforgivable
    rw [hfault] at hnil
    cases hnil
  · intro hforgivable
    rcases forgivable_iff.1 hforgivable with ⟨type, hparse⟩ | ⟨name, offset, hparse⟩ <;>
      rw [typeFaults, hparse]
    rfl

/-- **Lenient loading lets unknown names pass and no broken beginnings.** The descriptors of a
contract that it loads are forgivable, and a forgivable descriptor is no fault. Any other is
malformed with and without the options for it, and its document is refused, for this or for what is
wrong in front of it. The beginning in front of an unknown name goes on to a whole descriptor; what
stands behind the name has no part in this. -/
theorem load_lenient_forgivable (options : Options) (document : Document) :
    (∀ place descriptor,
        typeFaults (options.allowing true) place descriptor = [] ↔ Forgivable descriptor) ∧
      (∀ c, (load (options.allowing true) document).result = .ok c →
        ∀ t ∈ document.types, Forgivable t.2) ∧
      (∀ t ∈ document.types, ¬ Forgivable t.2 → ∃ fault, ∀ allow,
        .malformedType t.1 t.2 (.descriptor fault) ∈ faults (options.allowing allow) document ∧
        ∃ error, (load (options.allowing allow) document).result = .error error ∧
          (faults (options.allowing allow) document).head? = some error) ∧
      ∀ before name after, MeetsUnknown 1 before name after →
        (∃ rest type, ofChars (before ++ ("Any".toList ++ rest)) = .ok type) ∧
        ∀ other, Text.StopsRun isNameChar other → ∃ offset,
          ofChars (before ++ (name.toList ++ other)) = .error ⟨.unknownName name, offset⟩ := by
  refine ⟨fun place descriptor ↦ typeFaults_lenient_eq_nil_iff options place,
    fun c hc t ht ↦ ?_, fun t ht hforgivable ↦ ?_, fun before name after hmeets ↦ ⟨?_, ?_⟩⟩
  · have hnil := (reports_load (options.allowing true) document).exists_ok_iff.1 ⟨c, hc⟩
    refine (typeFaults_lenient_eq_nil_iff options t.1).1 (List.eq_nil_iff_forall_not_mem.2 ?_)
    exact fun error herror ↦ List.not_mem_nil (hnil ▸ mem_faults ht herror)
  · obtain ⟨fault, hfault⟩ := exists_typeFaults_of_not_forgivable hforgivable
    refine ⟨fault, fun allow ↦ ?_⟩
    have hmem : .malformedType t.1 t.2 (.descriptor fault) ∈
        faults (options.allowing allow) document :=
      mem_faults ht (hfault _ t.1 ▸ List.mem_singleton_self _)
    obtain ⟨error, herror⟩ := Option.isSome_iff_exists.1
      (List.isSome_head?.2 (List.ne_nil_of_mem hmem))
    exact ⟨hmem, error, (reports_load _ document error).2 herror, herror⟩
  · obtain ⟨rest, type, hderives⟩ := hmeets.opens.goesOn
    exact ⟨rest, type, ofChars_of_derives hderives⟩
  · intro other hother
    exact exists_ofChars_eq_unknownName_iff.2
      ⟨before, other, rfl, hmeets.opens, hmeets.unknown, hother⟩

/-- A manifest with one method, whose result has a type that is written as given. -/
def returning (descriptor : String) : Document where
  body := .object
    [("abi", .object [("methods", .array
      [.array [.string "get", .array [], .string descriptor]])]), ("name", .string "Store")]
  sourceHash := none

/-- A bracket that is not closed passes behind an unknown name, since the text in front of the name
goes on to a descriptor; a missing name in front of it does not, with and without the options. -/
theorem load_lenient_forgivable_returning :
    (∃ before name after, "Array<Odd".toList = before ++ (String.toList name ++ after) ∧
        ∃ rest type, ofChars (before ++ ("Any".toList ++ rest)) = .ok type) ∧
      ∃ fault, ∀ allow,
        .malformedType (.returnValue "get") "Map<,Odd>" (.descriptor fault) ∈
          faults (Options.allowing {} allow) (returning "Map<,Odd>") ∧
        ∃ error, (load (Options.allowing {} allow) (returning "Map<,Odd>")).result =
          .error error := by
  have hload : (load (Options.allowing {} true) (returning "Array<Odd")).result =
      .ok ⟨"Store", none, [], [⟨"get", [], .scalar .any, false, none⟩], []⟩ := by decide +kernel
  have hodd : AbiType.parse "Array<Odd" = .error ⟨.unknownName "Odd", 9⟩ := by decide +kernel
  have hbroken : AbiType.parse "Map<,Odd>" = .error ⟨.nameExpected, 4⟩ := by decide +kernel
  have hnot : ¬ Forgivable "Map<,Odd>" := by
    rw [forgivable_iff, hbroken]
    nofun
  constructor
  · obtain ⟨-, hpass, -, hcomplete⟩ := load_lenient_forgivable {} (returning "Array<Odd")
    rcases hpass _ hload (.returnValue "get", "Array<Odd") (by decide +kernel) with
      ⟨type, hparse⟩ | ⟨name, before, after, hs, hmeets⟩
    · rw [hodd] at hparse
      cases hparse
    · exact ⟨before, name, after, hs, (hcomplete before name after hmeets).1⟩
  · obtain ⟨fault, hfault⟩ := (load_lenient_forgivable {} (returning "Map<,Odd>")).2.2.1
      (.returnValue "get", "Map<,Odd>") (by decide +kernel) hnot
    refine ⟨fault, fun allow ↦ ⟨(hfault allow).1, ?_⟩⟩
    obtain ⟨error, herror, -⟩ := (hfault allow).2
    exact ⟨error, herror⟩

/-- A descriptor with a bracket that is not closed passes, although no known names in place of the
ones in it make it one that is read. -/
theorem load_returning_unclosed :
    (∃ c, (load (Options.allowing {} true) (returning "Array<Odd")).result = .ok c) ∧
      (.returnValue "get", "Array<Odd") ∈ (returning "Array<Odd").types ∧
      ∀ t : String, Renamed "Array<Odd".toList t.toList → ∀ type, AbiType.parse t ≠ .ok type := by
  refine ⟨⟨⟨"Store", none, [], [⟨"get", [], .scalar .any, false, none⟩], []⟩, by decide +kernel⟩,
    by decide +kernel, fun t ht type hparse ↦ ?_⟩
  exact ht.not_derives (by decide) (derives_of_ofChars hparse)

end ContractBindings.Manifest
