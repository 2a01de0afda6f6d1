import ContractBindings.Proofs.AbiType.Depth
import ContractBindings.Proofs.Manifest.Descriptors

/-!
# Loading in spite of unknown names

Options may let names pass that are no type's; such a name then stands for any type. Loading with
these options is loading without them from a document in which every descriptor that is refused for
an unknown name reads `Any` (`load_lenient_eq_repaired`). Both are followed at once, step by step:
the steps of the loader do the same but for reading descriptors, and there the two agree by what the
repaired descriptor is (`loadType_lenient_eq_repaired`).

The same walk with other premises compares loading the two documents without the options. They part
only where the first of them is refused for an unknown name, so a document that is not refused is
loaded alike with and without the options.
-/

namespace ContractBindings

/-- The options with another say about unknown names. -/
def Options.allowing (options : Options) (allow : Bool) : Options :=
  { options with allowUnknownTypes := allow }

namespace Manifest

open Json

/-! ### Repairing a document -/

/-- Whether a descriptor is refused for a name that is no type's. -/
def namesUnknown (descriptor : String) : Bool :=
  match AbiType.parse descriptor with
  | .error ⟨.unknownName _, _⟩ => true
  | _ => false

/-- A descriptor that is refused for no unknown name. -/
def repairedDescriptor (descriptor : String) : String :=
  if namesUnknown descriptor then "Any" else descriptor

/-- A document whose descriptors are refused for no unknown name. -/
def Document.repaired (document : Document) : Document :=
  mapDescriptors repairedDescriptor document

/-! ### Descriptors -/

/-- An error that tells of a name that is no type's. -/
def TellsUnknown (error : GenerationError) : Prop :=
  ∃ place descriptor name, error = .unsupportedType place descriptor (.unknownName name)

variable {descriptor : String}

theorem exists_parse_of_namesUnknown (h : namesUnknown descriptor = true) :
    ∃ name offset, AbiType.parse descriptor = .error ⟨.unknownName name, offset⟩ := by
  unfold namesUnknown at h
  split at h
  case h_1 name offset hparse => exact ⟨name, offset, hparse⟩
  case h_2 => cases h

/-- A descriptor that is not refused for an unknown name is read alike by all. -/
theorem loadType_of_namesUnknown_eq_false (h : namesUnknown descriptor = false)
    (options options' : Options) (place : TypePlace) :
    loadType options place descriptor = loadType options' place descriptor := by
  unfold loadType
  cases hparse : AbiType.parse descriptor with
  | ok type => rfl
  | error error =>
    obtain ⟨fault, offset⟩ := error
    rw [namesUnknown, hparse] at h
    cases fault with
    | unknownName name => cases h
    | _ => rfl

theorem loadType_any (options : Options) (place : TypePlace) :
    (loadType options place "Any").result = .ok (.scalar .any) := by
  have hdepth : (AbiType.scalar .any).depth ≤ AbiType.maxDepth := by decide
  have hparse : AbiType.parse "Any" = .ok (.scalar .any) := AbiType.parse_text hdepth
  rw [loadType, hparse]
  rfl

/-- **A lenient reading is a strict reading of the repaired descriptor.** -/
theorem loadType_lenient_eq_repaired (options : Options) (place : TypePlace)
    (descriptor : String) :
    (loadType (options.allowing true) place descriptor).result =
      (loadType (options.allowing false) place (repairedDescriptor descriptor)).result := by
  unfold repairedDescriptor
  split
  case isTrue h =>
    obtain ⟨name, offset, hparse⟩ := exists_parse_of_namesUnknown h
    rw [loadType_any, loadType, hparse]
    rfl
  case isFalse h =>
    rw [loadType_of_namesUnknown_eq_false (Bool.not_eq_true _ ▸ h) (options.allowing true)]

/-- A strict reading is one of the repaired descriptor, unless it ends with the unknown name. -/
theorem matches_loadType_repaired (options : Options) (place : TypePlace) (descriptor : String) :
    Matches TellsUnknown Eq (loadType (options.allowing false) place descriptor).result
      (loadType (options.allowing false) place (repairedDescriptor descriptor)).result := by
  unfold repairedDescriptor
  split
  case isTrue h =>
    obtain ⟨name, offset, hparse⟩ := exists_parse_of_namesUnknown h
    rw [loadType, hparse]
    exact .excused ⟨place, descriptor, name, rfl⟩ _
  case isFalse => exact .of_eq _

/-! ### Loading two documents -/

section Walk

variable {excused : GenerationError → Prop} {options : Options} {allow allow' : Bool}
  {f : String → String}

theorem matches_shaped {α β : Type} {r : α → β → Prop} {x : Except ShapeFault α}
    {y : Except ShapeFault β} (place : ManifestPlace) (h : MatchesShape r x y) :
    Matches excused r (shaped place x).result (shaped place y).result :=
  h.mapError _

theorem matches_unless {α : Type} {x y : Warned α} (condition : Bool) (error : GenerationError)
    (h : Matches excused Eq x.result y.result) :
    Matches excused Eq (if condition then Warned.fail error else x).result
      (if condition then Warned.fail error else y).result := by
  cases condition
  · exact h
  · exact .error error

variable (htype : ∀ place descriptor, Matches excused Eq
  (loadType (options.allowing allow) place descriptor).result
  (loadType (options.allowing allow') place (f descriptor)).result)

include htype

theorem matches_loadParameters (place : Nat → String → TypePlace)
    (records : List ParameterRecord) :
    Matches excused Eq (loadParameters (options.allowing allow) place records).result
      (loadParameters (options.allowing allow') place (records.map (·.map f))).result := by
  rw [loadParameters, loadParameters, result_mapM, result_mapM, List.zipIdx_map, List.mapM_map]
  refine .mapM_eq (fun indexed ↦ ?_) _
  simp only [Warned.result_bind]
  refine .bind (htype _ _) fun type _ heq ↦ ?_
  subst heq
  exact .ok rfl

theorem matches_loadMethod (index : Nat) (entry : Json) :
    Matches excused Eq (loadMethod (options.allowing allow) index entry).result
      (loadMethod (options.allowing allow') index (mapMethod f entry)).result := by
  rw [loadMethod, loadMethod, Warned.result_bind, Warned.result_bind]
  refine .bind (matches_shaped _ (matches_methodShape f entry)) fun record _ hrecord ↦ ?_
  subst hrecord
  refine matches_unless _ _ ?_
  simp only [Warned.result_bind]
  refine .bind (matches_loadParameters htype _ _) fun parameters _ hparameters ↦ ?_
  refine .bind (htype _ _) fun returnType _ hreturnType ↦ ?_
  subst hparameters hreturnType
  exact .ok rfl

theorem matches_loadEvent (index : Nat) (entry : Json) :
    Matches excused Eq (loadEvent (options.allowing allow) index entry).result
      (loadEvent (options.allowing allow') index (mapEvent f entry)).result := by
  rw [loadEvent, loadEvent, Warned.result_bind, Warned.result_bind]
  refine .bind (matches_shaped _ (matches_eventShape f entry)) fun record _ hrecord ↦ ?_
  subst hrecord
  refine matches_unless _ _ ?_
  simp only [Warned.result_bind]
  refine .bind (matches_loadParameters htype _ _) fun parameters _ hparameters ↦ ?_
  subst hparameters
  exact .ok rfl

omit htype in
/-- A list of changed entries, gone through together with the indices. -/
theorem matches_entries {α : Type} {g : Json → Json} {loadEntry loadEntry' : Nat → Json → Warned α}
    (h : ∀ index entry, Matches excused Eq (loadEntry index entry).result
      (loadEntry' index (g entry)).result) (entries : List Json) :
    Matches excused Eq (entries.zipIdx.mapM fun (entry, index) ↦ loadEntry index entry).result
      ((entries.map g).zipIdx.mapM fun (entry, index) ↦ loadEntry' index entry).result := by
  rw [result_mapM, result_mapM, List.zipIdx_map, List.mapM_map]
  exact .mapM_eq (fun (entry, index) ↦ h index entry) _

/-- **Loading a document with other descriptors** goes as loading the document does, if reading the
descriptors does. -/
theorem matches_load (document : Document) :
    Matches excused Eq (load (options.allowing allow) document).result
      (load (options.allowing allow') (mapDescriptors f document)).result := by
  obtain ⟨body, sourceHash⟩ := document
  simp only [load, Warned.result_bind]
  cases body with
  | object members =>
    refine .bind (r := fun m m' ↦ m' = mapMembers _ m) (.ok rfl) fun members _ hmembers ↦ ?_
    subst hmembers
    refine .bind (matches_shaped _ (matches_ofMembers f members)) fun record _ hrecord ↦ ?_
    subst hrecord
    -- Neither the name nor the hash depends on what is made of descriptors.
    refine .bind (.of_eq (contractName (options.allowing allow) record).result)
      fun name _ hname ↦ ?_
    refine .bind (.of_eq (contractHash (options.allowing allow) ⟨.null, sourceHash⟩).result)
      fun scriptHash _ hhash ↦ ?_
    refine .bind (matches_entries (matches_loadMethod htype) _) fun methods _ hmethods ↦ ?_
    refine .bind (matches_entries (matches_loadEvent htype) _) fun events _ hevents ↦ ?_
    subst hname hhash hmethods hevents
    exact .ok rfl
  | _ => exact .error _

end Walk

/-! ### Lenient and strict loading -/

/-- Repairing a document changes nothing for a strict loading that does not end with an unknown
name. -/
theorem matches_load_repaired (options : Options) (document : Document) :
    Matches TellsUnknown Eq (load (options.allowing false) document).result
      (load (options.allowing false) document.repaired).result :=
  matches_load (matches_loadType_repaired options) document

/-- **Lenient loading is strict loading of the repaired document**, for contracts and for errors.
A document that is loaded strictly is therefore loaded leniently as the same contract. -/
theorem load_lenient_eq_repaired (options : Options) (document : Document) :
    (load (options.allowing true) document).result =
        (load (options.allowing false) document.repaired).result ∧
      ∀ c, (load (options.allowing false) document).result = .ok c →
        (load (options.allowing true) document).result = .ok c := by
  have hlenient : (load (options.allowing true) document).result =
      (load (options.allowing false) document.repaired).result :=
    (matches_load (fun place descriptor ↦ loadType_lenient_eq_repaired options place descriptor ▸
      .of_eq _) document).eq
  refine ⟨hlenient, fun c hstrict ↦ ?_⟩
  rw [hlenient]
  exact (matches_load_repaired options document).eq_ok hstrict

/-- A manifest with unknown names in place of types, in one case behind an opened bracket. -/
def oddDocument : Document where
  body := .object
    [("abi", .object
      [("events", .array [.array [.string "Put", .array [.array [.string "key", .string "Odd"]]]]),
        ("methods", .array
          [.array [.string "put", .array [.array [.string "keys", .string "Array<Odd>"]],
            .string "Void"]])]),
      ("name", .string "Store")]
  sourceHash := none

/-- Unknown names read as `Any`, whatever stands around them, and a document without unknown names
loads alike in both ways. -/
theorem load_lenient_eq_repaired_oddDocument :
    (load (Options.allowing {} true) oddDocument).result =
        .ok { name := "Store", scriptHash := none, supportedStandards := []
              methods := [⟨"put", [⟨"keys", .scalar .any, 0⟩], .scalar .void, false, none⟩]
              events := [⟨"Put", [⟨"key", .scalar .any, 0⟩]⟩] } ∧
      ∃ c, (load (Options.allowing {} false) oddDocument.repaired).result = .ok c ∧
        (load (Options.allowing {} true) oddDocument.repaired).result = .ok c := by
  have hrepaired : (load (Options.allowing {} false) oddDocument.repaired).result =
      .ok { name := "Store", scriptHash := none, supportedStandards := []
            methods := [⟨"put", [⟨"keys", .scalar .any, 0⟩], .scalar .void, false, none⟩]
            events := [⟨"Put", [⟨"key", .scalar .any, 0⟩]⟩] } := by decide +kernel
  refine ⟨?_, _, hrepaired, ?_⟩
  · rw [(load_lenient_eq_repaired {} oddDocument).1, hrepaired]
  · exact (load_lenient_eq_repaired {} oddDocument.repaired).2 _ hrepaired

end Manifest

end ContractBindings
