import ContractBindings.Proofs.Manifest.Entries

/-!
# The first fault of a manifest

All that is wrong with a document, at whatever entry, is a list (`faults`): the faults of the whole
document, then those of the methods and then those of the events, entry by entry. The list is
written down without stopping at a fault and without a contract being made; only where a value has
not the shape of a record is there nothing left to look at below it. Loading ends with the first
fault of the list and gives a contract if there is none (`load_reports_first`).

The proof goes through the loader once. Each step of it reports its own faults, and by
`Reports.bind` and `Reports.mapM` a sequence of steps reports what its parts do, in their order.
-/

namespace ContractBindings.Manifest

open Json

/-! ### Places of types -/

/-- The descriptors in records of parameters, each with the place of its type. -/
def placedTypes (place : Nat → String → TypePlace) (records : List ParameterRecord) :
    List (TypePlace × String) :=
  records.zipIdx.map fun (record, index) ↦ (place index record.name, record.type)

/-- The descriptors of a method: those of its parameters from left to right and that of its
result. -/
def MethodRecord.types (record : MethodRecord) : List (TypePlace × String) :=
  placedTypes (.parameter record.name) record.parameters ++
    [(.returnValue record.name, record.returnType)]

/-- The descriptors of an event. -/
def EventRecord.types (record : EventRecord) : List (TypePlace × String) :=
  placedTypes (.eventParameter record.name) record.parameters

/-! ### Faults in their order -/

/-- What is wrong with a descriptor. A name that is no type's is no fault if the options let it
pass. -/
def typeFaults (options : Options) (place : TypePlace) (descriptor : String) :
    List GenerationError :=
  match AbiType.parse descriptor with
  | .ok _ => []
  | .error error =>
    match error.fault with
    | .unknownName name =>
      faultIf (!options.allowUnknownTypes)
        (.unsupportedType place descriptor (.unknownName name))
    | _ => [.malformedType place descriptor (.descriptor error)]

/-- What is wrong with an entry at `place`: its shape or, if it has that of a record, the name and
the types of the record. -/
def entryFaults {ρ : Type} (options : Options) (place : ManifestPlace) (shape : Shape ρ)
    (name : ρ → String) (blankName : ManifestFault) (types : ρ → List (TypePlace × String))
    (entry : Json) : List GenerationError :=
  match shape entry with
  | .error fault => [.malformedManifest place (.shape fault)]
  | .ok record =>
    faultIf (Text.isBlank (name record)) (.malformedManifest place blankName) ++
      (types record).flatMap fun (place, descriptor) ↦ typeFaults options place descriptor

/-- What is wrong with an entry of the list of methods. -/
def methodFaults (options : Options) (index : Nat) : Json → List GenerationError :=
  entryFaults options (.method index) MethodRecord.shape (·.name) .blankMethodName (·.types)

/-- What is wrong with an entry of the list of events. -/
def eventFaults (options : Options) (index : Nat) : Json → List GenerationError :=
  entryFaults options (.event index) EventRecord.shape (·.name) .blankEventName (·.types)

/-- What is wrong with a manifest of the right shape: its name, unless another is chosen, its hash,
if one is to be embedded, and its entries. -/
def recordFaults (options : Options) (sourceHash : Option ScriptHash) (record : ManifestRecord) :
    List GenerationError :=
  faultIf (options.nameOverride.isNone && Text.isBlank record.name)
      (.malformedManifest .name .blankContractName) ++
    (faultIf (options.embedHash && options.hashOverride.isNone && sourceHash.isNone)
        .missingHash ++
      ((record.abi.methods.zipIdx.flatMap fun (entry, index) ↦
          methodFaults options index entry) ++
        record.abi.events.zipIdx.flatMap fun (entry, index) ↦ eventFaults options index entry))

/-- What is wrong with a document, in the order in which it counts. -/
def faults (options : Options) (document : Document) : List GenerationError :=
  match document.body with
  | .object members =>
    match ManifestRecord.ofMembers members with
    | .error fault => [.malformedManifest .document (.shape fault)]
    | .ok record => recordFaults options document.sourceHash record
  | _ => [.malformedManifest .document .notObject]

/-! ### Steps of the loader -/

variable (options : Options)

/-- A failure on a condition, in front of all that comes later. -/
theorem reports_failIf {α : Type} {later : List GenerationError} {x : Warned α}
    {condition : Prop} [Decidable condition] (fault : GenerationError)
    (h : Reports later x.result) :
    Reports (faultIf condition fault ++ later)
      (if condition then Warned.fail fault else x).result := by
  rw [apply_ite Warned.result]
  exact reports_faultIf fault h

theorem reports_loadType (place : TypePlace) (descriptor : String) :
    Reports (typeFaults options place descriptor) (loadType options place descriptor).result := by
  rw [loadType, typeFaults]
  cases AbiType.parse descriptor with
  | ok type => exact reports_ok type
  | error error =>
    obtain ⟨fault, offset⟩ := error
    cases fault with
    | unknownName name =>
      cases options.allowUnknownTypes
      · exact reports_error _ []
      · exact reports_ok _
    | _ => exact reports_error _ []

theorem reports_loadParameters (place : Nat → String → TypePlace)
    (records : List ParameterRecord) :
    Reports ((placedTypes place records).flatMap fun (place, descriptor) ↦
        typeFaults options place descriptor)
      (loadParameters options place records).result := by
  rw [loadParameters, result_mapM, placedTypes, List.flatMap_map]
  refine .mapM (fun indexed ↦ ?_) _
  rw [Warned.result_bind]
  exact (reports_loadType options _ _).bind_ok _

theorem reports_loadMethod (index : Nat) (entry : Json) :
    Reports (methodFaults options index entry) (loadMethod options index entry).result := by
  rw [loadMethod, Warned.result_bind, methodFaults, entryFaults]
  cases MethodRecord.shape entry with
  | error fault => exact reports_error _ []
  | ok record =>
    refine reports_failIf _ ?_
    simp only [Warned.result_bind]
    rw [MethodRecord.types, List.flatMap_append, List.flatMap_singleton]
    exact (reports_loadParameters options _ _).bind fun parameters _ ↦
      (reports_loadType options _ _).bind_ok _

theorem reports_loadEvent (index : Nat) (entry : Json) :
    Reports (eventFaults options index entry) (loadEvent options index entry).result := by
  rw [loadEvent, Warned.result_bind, eventFaults, entryFaults]
  cases EventRecord.shape entry with
  | error fault => exact reports_error _ []
  | ok record =>
    refine reports_failIf _ ?_
    rw [Warned.result_bind]
    exact (reports_loadParameters options _ _).bind_ok _

/-- A list of entries has the faults of its entries, in their order. -/
theorem reports_entries {α : Type} {entryFaults : Nat → Json → List GenerationError}
    {loadEntry : Nat → Json → Warned α}
    (h : ∀ index entry, Reports (entryFaults index entry) (loadEntry index entry).result)
    (entries : List Json) :
    Reports (entries.zipIdx.flatMap fun (entry, index) ↦ entryFaults index entry)
      (entries.zipIdx.mapM fun (entry, index) ↦ loadEntry index entry).result := by
  rw [result_mapM]
  exact .mapM (fun (entry, index) ↦ h index entry) _

theorem reports_contractName (record : ManifestRecord) :
    Reports (faultIf (options.nameOverride.isNone && Text.isBlank record.name)
        (.malformedManifest .name .blankContractName))
      (contractName options record).result := by
  rw [contractName]
  cases options.nameOverride with
  | some name => exact reports_ok name
  | none =>
    rw [← List.append_nil (faultIf _ _)]
    exact reports_failIf _ (reports_ok record.name)

theorem reports_contractHash (document : Document) :
    Reports
      (faultIf (options.embedHash && options.hashOverride.isNone && document.sourceHash.isNone)
        .missingHash)
      (contractHash options document).result := by
  have hnone : (options.hashOverride.or document.sourceHash).isNone =
      (options.hashOverride.isNone && document.sourceHash.isNone) := by
    cases options.hashOverride <;> rfl
  rw [contractHash, hnone, Bool.and_assoc, ← List.append_nil (faultIf _ _)]
  exact reports_failIf _ (reports_ok _)

/-- **Loading reports the faults of the document.** -/
theorem reports_load (document : Document) :
    Reports (faults options document) (load options document).result := by
  simp only [load, faults, Warned.result_bind]
  cases document.body with
  | object members =>
    dsimp only [bodyMembers]
    show Reports _ ((shaped .document (ManifestRecord.ofMembers members)).result >>= _)
    cases ManifestRecord.ofMembers members with
    | error fault => exact reports_error _ []
    | ok record =>
      exact (reports_contractName options record).bind fun name _ ↦
        (reports_contractHash options document).bind fun scriptHash _ ↦
          (reports_entries (reports_loadMethod options) _).bind fun methods _ ↦
            (reports_entries (reports_loadEvent options) _).bind_ok _
  | _ => exact reports_error _ []

/-- **Loading ends with the first fault of a document**, and gives a contract if there is none. The
contract then has the methods and the events of the document, as many, in their order and under
their names, with parameters that are numbered from the left. -/
theorem load_reports_first (options : Options) (document : Document) :
    (∀ error, (load options document).result = .error error ↔
        (faults options document).head? = some error) ∧
      ((∃ c, (load options document).result = .ok c) ↔ faults options document = []) ∧
      ∀ c, (load options document).result = .ok c → Keeps document.body c :=
  ⟨reports_load options document, (reports_load options document).exists_ok_iff,
    fun _ ↦ keeps_of_load⟩

/-- A manifest with a blank name, and entries with an unknown type, a bracket that is not closed, no
members and a blank name. -/
def faultyDocument : Document where
  body := .object
    [("abi", .object
      [("events", .array [.object [("name", .string " ")]]),
        ("methods", .array
          [.object [("name", .string "get"), ("parameters", .array
              [.object [("name", .string "key"), ("type", .string "Odd")]]),
              ("returntype", .string "Array<Any")],
            .object []])]),
      ("name", .string "")]
  sourceHash := none

/-- A manifest with a method of two parameters and an event of one. -/
def plainDocument : Document where
  body := .object
    [("abi", .object
      [("events", .array [.array [.string "Put", .array [.array [.string "key", .string "Any"]]]]),
        ("methods", .array
          [.array [.string "put", .array [.array [.string "key", .string "String"],
            .array [.string "value", .string "Any"]], .string "Void"]])]),
      ("name", .string "Store")]
  sourceHash := none

/-- Faults in the order in which they are met, each as the options leave the ones before it out, and
a contract that has no fault. -/
theorem load_reports_first_faultyDocument :
    (load { embedHash := true } faultyDocument).result =
        .error (.malformedManifest .name .blankContractName) ∧
      (load { nameOverride := some "Store", embedHash := true } faultyDocument).result =
        .error .missingHash ∧
      (load { nameOverride := some "Store" } faultyDocument).result =
        .error (.unsupportedType (.parameter "get" 0 "key") "Odd" (.unknownName "Odd")) ∧
      (load { nameOverride := some "Store", allowUnknownTypes := true } faultyDocument).result =
        .error (.malformedType (.returnValue "get") "Array<Any"
          (.descriptor ⟨.delimiterExpected '>' none, 9⟩)) ∧
      ∃ c, (load {} plainDocument).result = .ok c ∧ Keeps plainDocument.body c := by
  refine ⟨((load_reports_first _ faultyDocument).1 _).2 (by decide +kernel),
    ((load_reports_first _ faultyDocument).1 _).2 (by decide +kernel),
    ((load_reports_first _ faultyDocument).1 _).2 (by decide +kernel),
    ((load_reports_first _ faultyDocument).1 _).2 (by decide +kernel), ?_⟩
  obtain ⟨-, hclean, hkeeps⟩ := load_reports_first {} plainDocument
  obtain ⟨c, hc⟩ := hclean.2 (by decide +kernel)
  exact ⟨c, hc, hkeeps c hc⟩

end ContractBindings.Manifest
