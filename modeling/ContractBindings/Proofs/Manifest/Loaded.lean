import ContractBindings.Manifest.Loading
import ContractBindings.Proofs.Results

/-!
# What a loaded contract was read from

The methods of a loaded contract, seen from the document. Where the document has the methods, their
names, their parameters and the descriptors of their types is said by accessors that take no notice
of the loader (`methodEntries?` and its companions): a record is an object, which has a part under
its name, or an array, which has it at its index. What the loader makes of an entry is then a
relation between the entry and a method (`Describes`), and a contract that is loaded at all has one
method for each entry, in the same order (`describes_of_load`).

The proof follows the loader from the entry inwards. A shape that is met gives back the values it
was met by, and a result with warnings is opened like one without, since the result does not see
them (`result_mapM`). Each stage of the loader is opened once (`exists_loads` and its companions);
what else is said of loaded contracts starts from there.
-/

namespace ContractBindings.Manifest

open Json

/-! ### Parts of a document -/

/-- The part of a record that an object has under `name` and an array at `index`. -/
def part? (record : Json) (name : String) (index : Nat) : Option Json :=
  match record with
  | .object members => Members.get? name members
  | .array elements => elements[index]?
  | _ => none

/-- The text of a string. -/
def text? : Json → Option String
  | .string value => some value
  | _ => none

/-- The elements of an array. -/
def list? : Json → Option (List Json)
  | .array elements => some elements
  | _ => none

/-- The interface of a manifest, which is an object itself. -/
def interface? : Json → Option Json
  | .object members => Members.get? "abi" members
  | _ => none

/-- The entries of the list of methods. -/
def methodEntries? (body : Json) : Option (List Json) := do
  let interface ← interface? body
  let methods ← part? interface "methods" 0
  list? methods

/-- The name in the entry of a method. -/
def entryName? (entry : Json) : Option String := do
  let name ← part? entry "name" 0
  text? name

/-- The parameters in the entry of a method. -/
def parameterEntries? (entry : Json) : Option (List Json) := do
  let parameters ← part? entry "parameters" 1
  list? parameters

/-- The descriptor of the type of a parameter. -/
def descriptor? (parameter : Json) : Option String := do
  let type ← part? parameter "type" 1
  text? type

/-- The type that a descriptor stands for: the one that it writes, or any type if it is a name that
is not known and the options let it pass. -/
inductive StandsFor (options : Options) (descriptor : String) : AbiType → Prop
  | parsed {type : AbiType} (h : AbiType.parse descriptor = .ok type) :
    StandsFor options descriptor type
  | unknown (hallowed : options.allowUnknownTypes = true) {error : DescriptorError} {name : String}
    (h : AbiType.parse descriptor = .error error) (hfault : error.fault = .unknownName name) :
    StandsFor options descriptor (.scalar .any)

/-- A parameter has the type that its own descriptor stands for. -/
def DescribesParameter (options : Options) (entry : Json) (p : Parameter) : Prop :=
  ∃ descriptor, descriptor? entry = some descriptor ∧ StandsFor options descriptor p.type

/-- A method has the name of its entry and a parameter for each of its parameters, in order. -/
structure Describes (options : Options) (entry : Json) (m : Method) : Prop where
  name : entryName? entry = some m.name
  parameters : ∃ entries, parameterEntries? entry = some entries ∧
    List.Forall₂ (DescribesParameter options) entries m.parameters

/-! ### Shapes that are met -/

section Shapes

variable {α : Type} {shape : Shape α} {members : List (String × Json)} {elements : List Json}
  {value : Json} {found : Option α} {a : α} {name wanted : String} {index : Nat}

theorem exists_part?_of_field? (h : Shape.field? members name shape = .ok found)
    (hfound : Shape.required name found = .ok a) (index : Nat) :
    ∃ value, part? (.object members) name index = some value ∧ shape value = .ok a := by
  rw [Shape.field?] at h
  split at h
  case h_1 =>
    cases h
    cases hfound
  case h_2 value hget =>
    cases hshape : shape value with
    | error fault =>
      rw [hshape] at h
      cases h
    | ok b =>
      rw [hshape] at h
      cases h
      cases hfound
      exact ⟨value, hget, hshape⟩

theorem exists_part?_of_element (h : Shape.element elements index wanted shape = .ok a)
    (name : String) :
    ∃ value, part? (.array elements) name index = some value ∧ shape value = .ok a := by
  obtain ⟨found, hfound, h⟩ := exists_of_bind_eq_ok h
  rw [Shape.element?] at hfound
  split at hfound
  case h_1 =>
    cases hfound
    cases h
  case h_2 value hget =>
    cases hshape : shape value with
    | error fault =>
      rw [hshape] at hfound
      cases hfound
    | ok b =>
      rw [hshape] at hfound
      cases hfound
      cases h
      exact ⟨value, hget, hshape⟩

theorem text?_of_string {s : String} (h : Shape.string value = .ok s) : text? value = some s := by
  cases value <;> cases h
  rfl

theorem exists_list?_of_list {out : List α} (h : Shape.list shape value = .ok out) :
    ∃ entries, list? value = some entries ∧
      List.Forall₂ (fun entry a ↦ shape entry = .ok a) entries out := by
  cases value with
  | array elements => exact ⟨elements, rfl, forall₂_of_mapM_eq_ok h⟩
  | _ => cases h

end Shapes

/-! ### Records that are read -/

theorem entryName?_of_part {entry value : Json} {name : String}
    (hpart : part? entry "name" 0 = some value) (h : Shape.string value = .ok name) :
    entryName? entry = some name := by
  rw [entryName?, hpart]
  exact text?_of_string h

/-- The name and the type of a record, in the entry that it was read from. -/
theorem entry_of_parameterShape {entry : Json} {record : ParameterRecord}
    (h : ParameterRecord.shape entry = .ok record) :
    entryName? entry = some record.name ∧ descriptor? entry = some record.type := by
  -- An object and an array differ in where the two parts stand, not in what is made of them.
  suffices hparts : ∃ name type, part? entry "name" 0 = some name ∧
      Shape.string name = .ok record.name ∧ part? entry "type" 1 = some type ∧
      Shape.string type = .ok record.type by
    obtain ⟨name, type, hname, hstring, htype, hdescriptor⟩ := hparts
    refine ⟨entryName?_of_part hname hstring, ?_⟩
    rw [descriptor?, htype]
    exact text?_of_string hdescriptor
  cases entry with
  | object members =>
    obtain ⟨name?, hname?, h⟩ := exists_of_bind_eq_ok h
    obtain ⟨type?, htype?, h⟩ := exists_of_bind_eq_ok h
    obtain ⟨name, hname, h⟩ := exists_of_bind_eq_ok h
    obtain ⟨type, htype, h⟩ := exists_of_bind_eq_ok h
    cases h
    obtain ⟨value, hpart, hvalue⟩ := exists_part?_of_field? hname? hname 0
    obtain ⟨value', hpart', hvalue'⟩ := exists_part?_of_field? htype? htype 1
    exact ⟨value, value', hpart, hvalue, hpart', hvalue'⟩
  | array elements =>
    obtain ⟨name, hname, h⟩ := exists_of_bind_eq_ok h
    obtain ⟨type, htype, h⟩ := exists_of_bind_eq_ok h
    obtain ⟨_, -, h⟩ := exists_of_bind_eq_ok h
    cases h
    obtain ⟨value, hpart, hvalue⟩ := exists_part?_of_element hname "name"
    obtain ⟨value', hpart', hvalue'⟩ := exists_part?_of_element htype "type"
    exact ⟨value, value', hpart, hvalue, hpart', hvalue'⟩
  | _ => cases h

/-- The name and the parameters of a record, in the entry that it was read from. -/
theorem entry_of_shape {entry : Json} {record : MethodRecord}
    (h : MethodRecord.shape entry = .ok record) :
    entryName? entry = some record.name ∧
    ∃ entries, parameterEntries? entry = some entries ∧
      List.Forall₂ (fun entry p ↦ ParameterRecord.shape entry = .ok p) entries
        record.parameters := by
  suffices hparts : ∃ name parameters, part? entry "name" 0 = some name ∧
      Shape.string name = .ok record.name ∧ part? entry "parameters" 1 = some parameters ∧
      Shape.list ParameterRecord.shape parameters = .ok record.parameters by
    obtain ⟨name, parameters, hname, hstring, hparameters, hlist⟩ := hparts
    obtain ⟨entries, hentries, hall⟩ := exists_list?_of_list hlist
    refine ⟨entryName?_of_part hname hstring, entries, ?_, hall⟩
    rw [parameterEntries?, hparameters]
    exact hentries
  cases entry with
  | object members =>
    obtain ⟨name?, hname?, h⟩ := exists_of_bind_eq_ok h
    obtain ⟨_, -, h⟩ := exists_of_bind_eq_ok h
    obtain ⟨parameters?, hparameters?, h⟩ := exists_of_bind_eq_ok h
    obtain ⟨_, -, h⟩ := exists_of_bind_eq_ok h
    obtain ⟨_, -, h⟩ := exists_of_bind_eq_ok h
    obtain ⟨name, hname, h⟩ := exists_of_bind_eq_ok h
    obtain ⟨parameters, hparameters, h⟩ := exists_of_bind_eq_ok h
    obtain ⟨_, -, h⟩ := exists_of_bind_eq_ok h
    cases h
    obtain ⟨value, hpart, hvalue⟩ := exists_part?_of_field? hname? hname 0
    obtain ⟨list, hpart', hlist⟩ := exists_part?_of_field? hparameters? hparameters 1
    exact ⟨value, list, hpart, hvalue, hpart', hlist⟩
  | array elements =>
    obtain ⟨name, hname, h⟩ := exists_of_bind_eq_ok h
    obtain ⟨parameters, hparameters, h⟩ := exists_of_bind_eq_ok h
    obtain ⟨_, -, h⟩ := exists_of_bind_eq_ok h
    obtain ⟨_, -, h⟩ := exists_of_bind_eq_ok h
    obtain ⟨_, -, h⟩ := exists_of_bind_eq_ok h
    obtain ⟨_, -, h⟩ := exists_of_bind_eq_ok h
    cases h
    obtain ⟨value, hpart, hvalue⟩ := exists_part?_of_element hname "name"
    obtain ⟨list, hpart', hlist⟩ := exists_part?_of_element hparameters "parameters"
    exact ⟨value, list, hpart, hvalue, hpart', hlist⟩
  | _ => cases h

/-- Entries that are not looked at yet are the elements themselves. -/
theorem eq_of_forall₂_any {entries out : List Json}
    (h : List.Forall₂ (fun entry a ↦ Shape.any entry = .ok a) entries out) : entries = out := by
  induction h with
  | nil => rfl
  | cons hab _ ih =>
    cases hab
    rw [ih]

theorem list?_of_list_any {value : Json} {out : List Json}
    (h : Shape.list Shape.any value = .ok out) : list? value = some out := by
  obtain ⟨entries, hentries, hall⟩ := exists_list?_of_list h
  rw [hentries, eq_of_forall₂_any hall]

/-- The interface in the members that a manifest was read from. -/
theorem exists_interface_of_members {members : List (String × Json)} {record : ManifestRecord}
    (h : ManifestRecord.ofMembers members = .ok record) :
    ∃ interface, interface? (.object members) = some interface ∧
      AbiRecord.shape interface = .ok record.abi := by
  obtain ⟨abi?, habi?, h⟩ := exists_of_bind_eq_ok h
  obtain ⟨_, -, h⟩ := exists_of_bind_eq_ok h
  obtain ⟨_, -, h⟩ := exists_of_bind_eq_ok h
  obtain ⟨_, -, h⟩ := exists_of_bind_eq_ok h
  obtain ⟨abi, habi, h⟩ := exists_of_bind_eq_ok h
  cases h
  exact exists_part?_of_field? habi? habi 0

theorem methodEntries?_of_members {members : List (String × Json)} {record : ManifestRecord}
    (h : ManifestRecord.ofMembers members = .ok record) :
    methodEntries? (.object members) = some record.abi.methods := by
  obtain ⟨interface, hinterface, hshape⟩ := exists_interface_of_members h
  have hpart : ∃ methods, part? interface "methods" 0 = some methods ∧
      Shape.list Shape.any methods = .ok record.abi.methods := by
    cases interface with
    | object members =>
      obtain ⟨_, -, hshape⟩ := exists_of_bind_eq_ok hshape
      obtain ⟨methods?, hmethods?, hshape⟩ := exists_of_bind_eq_ok hshape
      obtain ⟨methods, hmethods, hshape⟩ := exists_of_bind_eq_ok hshape
      rw [← Except.ok.inj hshape]
      exact exists_part?_of_field? hmethods? hmethods 0
    | array elements =>
      obtain ⟨methods, hmethods, hshape⟩ := exists_of_bind_eq_ok hshape
      obtain ⟨_, -, hshape⟩ := exists_of_bind_eq_ok hshape
      obtain ⟨_, -, hshape⟩ := exists_of_bind_eq_ok hshape
      rw [← Except.ok.inj hshape]
      exact exists_part?_of_element hmethods "methods"
    | _ => cases hshape
  obtain ⟨methods, hmethods, hlist⟩ := hpart
  rw [methodEntries?, hinterface]
  show (part? interface "methods" 0 >>= list?) = _
  rw [hmethods]
  exact list?_of_list_any hlist

/-! ### Loading -/

/-- The result does not see the warnings, also through a list. -/
theorem result_mapM {α β : Type} (f : α → Warned β) (l : List α) :
    (l.mapM f).result = l.mapM fun a ↦ (f a).result := by
  -- `mapM` goes through the list with an accumulator, which the induction has to leave free.
  suffices hloop : ∀ acc, (List.mapM.loop f l acc).result =
      List.mapM.loop (fun a ↦ (f a).result) l acc from hloop []
  induction l with
  | nil => exact fun acc ↦ rfl
  | cons a l ih =>
    intro acc
    rw [List.mapM.loop, List.mapM.loop, Warned.result_bind]
    simp only [ih]

/-- Elements that are gone through together with their indices are gone through. -/
theorem forall₂_of_mapM_zipIdx {α β : Type} {f : α × Nat → Warned β} {l : List α} {out : List β}
    {r : α → β → Prop} (hf : ∀ a i b, (f (a, i)).result = .ok b → r a b)
    (h : (l.zipIdx.mapM f).result = .ok out) : List.Forall₂ r l out := by
  rw [result_mapM] at h
  have hall := forall₂_of_mapM_eq_ok h
  rw [← List.zipIdx_map_fst 0 l, List.forall₂_map_left_iff]
  exact hall.imp fun ⟨a, i⟩ b hab ↦ hf a i b hab

theorem standsFor_of_loadType {options : Options} {place : TypePlace} {descriptor : String}
    {type : AbiType} (h : (loadType options place descriptor).result = .ok type) :
    StandsFor options descriptor type := by
  rw [loadType] at h
  split at h
  case h_1 parsed hparse =>
    cases h
    exact .parsed hparse
  case h_2 error hparse =>
    split at h
    case h_1 name hfault =>
      split at h
      case isTrue hallowed =>
        cases h
        exact .unknown hallowed hparse hfault
      case isFalse => cases h
    case h_2 => cases h

/-- The members of a body are those of an object. -/
theorem body_eq_of_bodyMembers {body : Json} {members : List (String × Json)}
    (h : (bodyMembers body).result = .ok members) : body = .object members := by
  unfold bodyMembers at h
  split at h
  case h_1 => cases h; rfl
  case h_2 => cases h

/-- A method is what loading makes of a record. -/
structure LoadsMethod (options : Options) (record : MethodRecord) (m : Method) : Prop where
  name : m.name = record.name
  parameters : (loadParameters options (.parameter record.name) record.parameters).result =
    .ok m.parameters
  returnType : (loadType options (.returnValue record.name) record.returnType).result =
    .ok m.returnType

/-- An event is what loading makes of a record. -/
structure LoadsEvent (options : Options) (record : EventRecord) (e : Event) : Prop where
  name : e.name = record.name
  parameters : (loadParameters options (.eventParameter record.name) record.parameters).result =
    .ok e.parameters

/-- A contract is what loading makes of a document whose body is read as `record`. -/
structure Loads (options : Options) (document : Document) (record : ManifestRecord)
    (c : Contract) : Prop where
  scriptHash : (contractHash options document).result = .ok c.scriptHash
  methods : List.Forall₂ (fun entry m ↦ ∃ index, (loadMethod options index entry).result = .ok m)
    record.abi.methods c.methods
  events : List.Forall₂ (fun entry e ↦ ∃ index, (loadEvent options index entry).result = .ok e)
    record.abi.events c.events

section Stages

variable {options : Options} {index : Nat} {entry : Json}

theorem exists_loadsMethod {m : Method} (h : (loadMethod options index entry).result = .ok m) :
    ∃ record, MethodRecord.shape entry = .ok record ∧ LoadsMethod options record m := by
  rw [loadMethod, Warned.result_bind] at h
  obtain ⟨record, hrecord, h⟩ := exists_of_bind_eq_ok h
  refine ⟨record, ok_of_mapError_eq_ok hrecord, ?_⟩
  split at h
  case isTrue => cases h
  case isFalse =>
    rw [Warned.result_bind] at h
    obtain ⟨parameters, hparameters, h⟩ := exists_of_bind_eq_ok h
    rw [Warned.result_bind] at h
    obtain ⟨returnType, hreturnType, h⟩ := exists_of_bind_eq_ok h
    cases h
    exact ⟨rfl, hparameters, hreturnType⟩

theorem exists_loadsEvent {e : Event} (h : (loadEvent options index entry).result = .ok e) :
    ∃ record, EventRecord.shape entry = .ok record ∧ LoadsEvent options record e := by
  rw [loadEvent, Warned.result_bind] at h
  obtain ⟨record, hrecord, h⟩ := exists_of_bind_eq_ok h
  refine ⟨record, ok_of_mapError_eq_ok hrecord, ?_⟩
  split at h
  case isTrue => cases h
  case isFalse =>
    rw [Warned.result_bind] at h
    obtain ⟨parameters, hparameters, h⟩ := exists_of_bind_eq_ok h
    cases h
    exact ⟨rfl, hparameters⟩

/-- What a contract that is loaded was read from, one stage of the loader per part. -/
theorem exists_loads {document : Document} {c : Contract}
    (h : (load options document).result = .ok c) :
    ∃ members record, document.body = .object members ∧
      ManifestRecord.ofMembers members = .ok record ∧ Loads options document record c := by
  simp only [load, Warned.result_bind] at h
  obtain ⟨members, hmembers, h⟩ := exists_of_bind_eq_ok h
  obtain ⟨record, hrecord, h⟩ := exists_of_bind_eq_ok h
  obtain ⟨name, -, h⟩ := exists_of_bind_eq_ok h
  obtain ⟨scriptHash, hhash, h⟩ := exists_of_bind_eq_ok h
  obtain ⟨methods, hmethods, h⟩ := exists_of_bind_eq_ok h
  obtain ⟨events, hevents, h⟩ := exists_of_bind_eq_ok h
  cases h
  exact ⟨members, record, body_eq_of_bodyMembers hmembers, ok_of_mapError_eq_ok hrecord, hhash,
    forall₂_of_mapM_zipIdx (fun entry index m hm ↦ ⟨index, hm⟩) hmethods,
    forall₂_of_mapM_zipIdx (fun entry index e he ↦ ⟨index, he⟩) hevents⟩

end Stages

theorem describes_of_loadMethod {options : Options} {index : Nat} {entry : Json} {m : Method}
    (h : (loadMethod options index entry).result = .ok m) : Describes options entry m := by
  obtain ⟨record, hshape, hloads⟩ := exists_loadsMethod h
  obtain ⟨hname, entries, hentries, hall⟩ := entry_of_shape hshape
  -- Entries to records by their shape, records to parameters by their type.
  have hloaded : List.Forall₂ (fun (r : ParameterRecord) (p : Parameter) ↦
      StandsFor options r.type p.type) record.parameters m.parameters := by
    refine forall₂_of_mapM_zipIdx (fun r i p hp ↦ ?_) hloads.parameters
    rw [Warned.result_bind] at hp
    obtain ⟨type, htype, hp⟩ := exists_of_bind_eq_ok hp
    cases hp
    exact standsFor_of_loadType htype
  refine ⟨hloads.name ▸ hname, entries, hentries, ?_⟩
  refine forall₂_comp (fun entry r p hr hp ↦ ?_) hall hloaded
  exact ⟨r.type, (entry_of_parameterShape hr).2, hp⟩

/-- **A loaded contract has one method for each entry**, in the order of the entries. -/
theorem describes_of_load {options : Options} {document : Document} {c : Contract}
    (h : (load options document).result = .ok c) :
    ∃ entries, methodEntries? document.body = some entries ∧
      List.Forall₂ (Describes options) entries c.methods := by
  obtain ⟨members, record, hbody, hshape, hloads⟩ := exists_loads h
  refine ⟨record.abi.methods, ?_, hloads.methods.imp fun entry m ⟨index, hm⟩ ↦
    describes_of_loadMethod hm⟩
  rw [hbody]
  exact methodEntries?_of_members hshape

end ContractBindings.Manifest
