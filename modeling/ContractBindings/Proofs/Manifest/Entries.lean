import ContractBindings.Proofs.Manifest.Loaded

/-!
# What loading keeps of entries

A contract that is loaded has a method for each entry of the list of methods and an event for each
entry of the list of events, in the same order and under the same name, and each of these has the
parameters of its entry, numbered from the left (`keeps_of_load`). Lists that a document may leave
out are read as empty ones (`optionalList?`); which ones these are is part of where the document has
its entries, and is said here for events as `Loaded` says it for methods.

Types are left out: what a descriptor stands for is a matter of the options, the order of entries is
not.
-/

namespace ContractBindings.Manifest

open Json

/-! ### Parts that may be left out -/

/-- The elements of an array, or none if there is no array. -/
def optionalList? : Option Json → Option (List Json)
  | some value => list? value
  | none => some []

/-- The entries of the list of events. -/
def eventEntries? (body : Json) : Option (List Json) := do
  let interface ← interface? body
  optionalList? (part? interface "events" 1)

/-- The parameters in the entry of an event. -/
def eventParameterEntries? (entry : Json) : Option (List Json) :=
  optionalList? (part? entry "parameters" 1)

/-! ### What is kept -/

/-- Parameters are those of a list of entries: as many, in their order and with their names, each at
its own position. -/
structure KeepsParameters (entries : List Json) (parameters : List Parameter) : Prop where
  names : entries.map entryName? = parameters.map fun p ↦ some p.name
  positions : parameters.map (·.position) = List.range parameters.length

/-- A method has the name and the parameters of its entry. -/
structure KeepsMethod (entry : Json) (m : Method) : Prop where
  name : entryName? entry = some m.name
  parameters : ∃ entries, parameterEntries? entry = some entries ∧
    KeepsParameters entries m.parameters

/-- An event has the name and the parameters of its entry. -/
structure KeepsEvent (entry : Json) (e : Event) : Prop where
  name : entryName? entry = some e.name
  parameters : ∃ entries, eventParameterEntries? entry = some entries ∧
    KeepsParameters entries e.parameters

/-- A contract has the methods and the events of a document, one for each entry and in order. -/
structure Keeps (body : Json) (c : Contract) : Prop where
  methods : ∃ entries, methodEntries? body = some entries ∧
    List.Forall₂ KeepsMethod entries c.methods
  events : ∃ entries, eventEntries? body = some entries ∧
    List.Forall₂ KeepsEvent entries c.events

/-! ### Shapes that are met -/

section Shapes

variable {α : Type} {shape : Shape α} {members : List (String × Json)} {elements : List Json}
  {found : Option (List α)} {name : String} {index : Nat}

/-- A list that may be left out, behind a part that is there. -/
theorem exists_optionalList?_of_map {value : Json}
    (h : some <$> Shape.list shape value = .ok found) :
    ∃ entries, optionalList? (some value) = some entries ∧
      List.Forall₂ (fun entry a ↦ shape entry = .ok a) entries (found.getD []) := by
  cases hshape : Shape.list shape value with
  | error fault =>
    rw [hshape] at h
    cases h
  | ok out =>
    rw [hshape] at h
    cases h
    exact exists_list?_of_list hshape

theorem exists_optionalList?_of_field?
    (h : Shape.field? members name (Shape.list shape) = .ok found) (index : Nat) :
    ∃ entries, optionalList? (part? (.object members) name index) = some entries ∧
      List.Forall₂ (fun entry a ↦ shape entry = .ok a) entries (found.getD []) := by
  rw [Shape.field?] at h
  rw [part?]
  split at h
  case h_1 hget =>
    cases h
    rw [hget]
    exact ⟨[], rfl, .nil⟩
  case h_2 value hget =>
    rw [hget]
    exact exists_optionalList?_of_map h

theorem exists_optionalList?_of_element?
    (h : Shape.element? elements index (Shape.list shape) = .ok found) (name : String) :
    ∃ entries, optionalList? (part? (.array elements) name index) = some entries ∧
      List.Forall₂ (fun entry a ↦ shape entry = .ok a) entries (found.getD []) := by
  rw [Shape.element?] at h
  rw [part?]
  split at h
  case h_1 hget =>
    cases h
    rw [hget]
    exact ⟨[], rfl, .nil⟩
  case h_2 value hget =>
    rw [hget]
    exact exists_optionalList?_of_map h

end Shapes

/-! ### Records that are read -/

/-- The name and the parameters of a record, in the entry that it was read from. -/
theorem entry_of_eventShape {entry : Json} {record : EventRecord}
    (h : EventRecord.shape entry = .ok record) :
    entryName? entry = some record.name ∧
    ∃ entries, eventParameterEntries? entry = some entries ∧
      List.Forall₂ (fun entry p ↦ ParameterRecord.shape entry = .ok p) entries
        record.parameters := by
  cases entry with
  | object members =>
    obtain ⟨name?, hname?, h⟩ := exists_of_bind_eq_ok h
    obtain ⟨parameters?, hparameters?, h⟩ := exists_of_bind_eq_ok h
    obtain ⟨name, hname, h⟩ := exists_of_bind_eq_ok h
    cases h
    obtain ⟨value, hpart, hvalue⟩ := exists_part?_of_field? hname? hname 0
    exact ⟨entryName?_of_part hpart hvalue, exists_optionalList?_of_field? hparameters? 1⟩
  | array elements =>
    obtain ⟨name, hname, h⟩ := exists_of_bind_eq_ok h
    obtain ⟨parameters?, hparameters?, h⟩ := exists_of_bind_eq_ok h
    obtain ⟨_, -, h⟩ := exists_of_bind_eq_ok h
    cases h
    obtain ⟨value, hpart, hvalue⟩ := exists_part?_of_element hname "name"
    exact ⟨entryName?_of_part hpart hvalue,
      exists_optionalList?_of_element? hparameters? "parameters"⟩
  | _ => cases h

theorem eventEntries?_of_members {members : List (String × Json)} {record : ManifestRecord}
    (h : ManifestRecord.ofMembers members = .ok record) :
    eventEntries? (.object members) = some record.abi.events := by
  obtain ⟨interface, hinterface, hshape⟩ := exists_interface_of_members h
  have hpart : ∃ entries, optionalList? (part? interface "events" 1) = some entries ∧
      List.Forall₂ (fun entry a ↦ Shape.any entry = .ok a) entries record.abi.events := by
    cases interface with
    | object members =>
      obtain ⟨events?, hevents?, hshape⟩ := exists_of_bind_eq_ok hshape
      obtain ⟨_, -, hshape⟩ := exists_of_bind_eq_ok hshape
      obtain ⟨_, -, hshape⟩ := exists_of_bind_eq_ok hshape
      rw [← Except.ok.inj hshape]
      exact exists_optionalList?_of_field? hevents? 1
    | array elements =>
      obtain ⟨_, -, hshape⟩ := exists_of_bind_eq_ok hshape
      obtain ⟨events?, hevents?, hshape⟩ := exists_of_bind_eq_ok hshape
      obtain ⟨_, -, hshape⟩ := exists_of_bind_eq_ok hshape
      rw [← Except.ok.inj hshape]
      exact exists_optionalList?_of_element? hevents? "events"
    | _ => cases hshape
  obtain ⟨entries, hentries, hall⟩ := hpart
  rw [eventEntries?, hinterface, ← eq_of_forall₂_any hall]
  exact hentries

/-! ### Loading -/

section Parameters

variable {options : Options} {place : Nat → String → TypePlace} {entries : List Json}
  {records : List ParameterRecord} {parameters : List Parameter}

/-- Parameters have the names and the indices of their records. -/
theorem map_of_loadParameters
    (h : (loadParameters options place records).result = .ok parameters) :
    records.zipIdx.map (fun (record, index) ↦ (record.name, index)) =
      parameters.map fun p ↦ (p.name, p.position) := by
  rw [loadParameters, result_mapM] at h
  refine map_eq_map_of_forall₂ ((forall₂_of_mapM_eq_ok h).imp fun (record, index) p hp ↦ ?_)
  rw [Warned.result_bind] at hp
  obtain ⟨type, -, hp⟩ := exists_of_bind_eq_ok hp
  cases hp
  rfl

theorem keepsParameters_of_loadParameters
    (hentries : List.Forall₂ (fun entry p ↦ ParameterRecord.shape entry = .ok p) entries records)
    (h : (loadParameters options place records).result = .ok parameters) :
    KeepsParameters entries parameters := by
  have hmap := map_of_loadParameters h
  have hlength : records.length = parameters.length := by
    simpa using congrArg List.length hmap
  have hnames : records.map (·.name) = parameters.map (·.name) := by
    have hfst := congrArg (List.map Prod.fst) hmap
    rw [List.map_map, List.map_map] at hfst
    rw [← List.zipIdx_map_fst 0 records, List.map_map]
    exact hfst
  have hpositions : List.range' 0 records.length = parameters.map (·.position) := by
    have hsnd := congrArg (List.map Prod.snd) hmap
    rw [List.map_map, List.map_map] at hsnd
    rw [← List.zipIdx_map_snd 0 records]
    exact hsnd
  constructor
  · calc entries.map entryName?
      _ = records.map (fun r ↦ some r.name) := map_eq_map_of_forall₂
          (hentries.imp fun entry r hr ↦ (entry_of_parameterShape hr).1)
      _ = (records.map (·.name)).map some := by rw [List.map_map]; rfl
      _ = (parameters.map (·.name)).map some := by rw [hnames]
      _ = parameters.map (fun p ↦ some p.name) := by rw [List.map_map]; rfl
  · rw [← hpositions, hlength, List.range_eq_range']

end Parameters

variable {options : Options} {index : Nat} {entry : Json}

theorem keepsMethod_of_loadMethod {m : Method}
    (h : (loadMethod options index entry).result = .ok m) : KeepsMethod entry m := by
  obtain ⟨record, hshape, hloads⟩ := exists_loadsMethod h
  obtain ⟨hname, entries, hentries, hall⟩ := entry_of_shape hshape
  exact ⟨hloads.name ▸ hname, entries, hentries,
    keepsParameters_of_loadParameters hall hloads.parameters⟩

theorem keepsEvent_of_loadEvent {e : Event}
    (h : (loadEvent options index entry).result = .ok e) : KeepsEvent entry e := by
  obtain ⟨record, hshape, hloads⟩ := exists_loadsEvent h
  obtain ⟨hname, entries, hentries, hall⟩ := entry_of_eventShape hshape
  exact ⟨hloads.name ▸ hname, entries, hentries,
    keepsParameters_of_loadParameters hall hloads.parameters⟩

/-- **A contract that is loaded has the methods and the events of its document**, as many, in their
order and with their names and parameters. -/
theorem keeps_of_load {document : Document} {c : Contract}
    (h : (load options document).result = .ok c) : Keeps document.body c := by
  obtain ⟨members, record, hbody, hshape, hloads⟩ := exists_loads h
  rw [hbody]
  constructor
  · exact ⟨_, methodEntries?_of_members hshape,
      hloads.methods.imp fun entry m ⟨index, hm⟩ ↦ keepsMethod_of_loadMethod hm⟩
  · exact ⟨_, eventEntries?_of_members hshape,
      hloads.events.imp fun entry e ⟨index, he⟩ ↦ keepsEvent_of_loadEvent he⟩

end ContractBindings.Manifest
