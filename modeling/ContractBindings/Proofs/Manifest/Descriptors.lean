import ContractBindings.Proofs.Manifest.Entries

/-!
# Other descriptors in a document

A document with its descriptors changed, and nothing else (`mapDescriptors`): a descriptor is the
text that stands for the type of a parameter of a method, of its result or of a parameter of an
event, in an entry that is an object or an array. The records that are read from such a document are
those of the document itself with their descriptors changed, and whatever else is wrong with the
shape of one is wrong with that of the other in the same way (`matches_ofMembers`). For nowhere is a
descriptor looked at but where a text has to stand, and a text it stays.
-/

namespace ContractBindings.Manifest

open Json

/-! ### Documents with other descriptors -/

/-- Members with other values under their names. -/
def mapMembers (byName : String → Json → Json) (members : List (String × Json)) :
    List (String × Json) :=
  members.map fun (name, value) ↦ (name, byName name value)

/-- A record with other values for its parts, which an object has under their names and an array at
their indices. -/
def mapParts (byName : String → Json → Json) (byIndex : Nat → Json → Json) : Json → Json
  | .object members => .object (mapMembers byName members)
  | .array elements => .array (elements.mapIdx byIndex)
  | value => value

/-- An array with other elements. -/
def mapElements (g : Json → Json) : Json → Json
  | .array elements => .array (elements.map g)
  | value => value

/-- A string with another text. -/
def mapText (f : String → String) : Json → Json
  | .string s => .string (f s)
  | value => value

section Documents

variable (f : String → String)

/-- A parameter with another descriptor. -/
def mapParameter : Json → Json :=
  mapParts (fun | "type" => mapText f | _ => id) (fun | 1 => mapText f | _ => id)

/-- The entry of a method with other descriptors for its parameters and its result. -/
def mapMethod : Json → Json :=
  mapParts
    (fun | "parameters" => mapElements (mapParameter f) | "returntype" => mapText f | _ => id)
    (fun | 1 => mapElements (mapParameter f) | 2 => mapText f | _ => id)

/-- The entry of an event with other descriptors for its parameters. -/
def mapEvent : Json → Json :=
  mapParts (fun | "parameters" => mapElements (mapParameter f) | _ => id)
    (fun | 1 => mapElements (mapParameter f) | _ => id)

/-- An interface with other descriptors. -/
def mapInterface : Json → Json :=
  mapParts
    (fun | "methods" => mapElements (mapMethod f) | "events" => mapElements (mapEvent f) | _ => id)
    (fun | 0 => mapElements (mapMethod f) | 1 => mapElements (mapEvent f) | _ => id)

/-- A document with other descriptors. -/
def mapDescriptors (document : Document) : Document :=
  { document with
    body := mapParts (fun | "abi" => mapInterface f | _ => id) (fun _ ↦ id) document.body }

/-- A parameter with another descriptor. -/
def ParameterRecord.map (record : ParameterRecord) : ParameterRecord :=
  { record with type := f record.type }

/-- A method with other descriptors. -/
def MethodRecord.map (record : MethodRecord) : MethodRecord :=
  { record with
    parameters := record.parameters.map (·.map f)
    returnType := f record.returnType }

/-- An event with other descriptors. -/
def EventRecord.map (record : EventRecord) : EventRecord :=
  { record with parameters := record.parameters.map (·.map f) }

end Documents

/-! ### Shapes of changed parts -/

/-- Two results of shapes that match without excuse. -/
abbrev MatchesShape {α β : Type} (r : α → β → Prop) :
    Except ShapeFault α → Except ShapeFault β → Prop :=
  Matches (fun _ ↦ False) r

section Shapes

variable {α β : Type} {r : α → β → Prop} {shape : Shape α} {shape' : Shape β}
  {byName : String → Json → Json} {byIndex : Nat → Json → Json} {g : Json → Json}
  {name wanted : String} {index : Nat}

theorem get?_mapMembers (byName : String → Json → Json) (name : String)
    (members : List (String × Json)) :
    Members.get? name (mapMembers byName members) =
      (Members.get? name members).map (byName name) := by
  rw [Members.get?, Members.get?, mapMembers]
  induction members with
  | nil => rfl
  | cons member members ih =>
    obtain ⟨other, value⟩ := member
    rw [List.map_cons, List.lookup_cons, List.lookup_cons, ih]
    cases heq : name == other with
    | true => rw [eq_of_beq heq]; rfl
    | false => rfl

/-- A field is as it was, if its value is. -/
theorem matches_field?_of_eq_id (h : byName name = id) (members : List (String × Json))
    (shape : Shape α) :
    MatchesShape Eq (Shape.field? members name shape)
      (Shape.field? (mapMembers byName members) name shape) := by
  rw [Shape.field?, Shape.field?, get?_mapMembers, h, Option.map_id]
  exact .of_eq _

/-- A field that is changed matches what it was, if its values do. -/
theorem matches_field?_mapMembers
    (h : ∀ value, MatchesShape r (shape value) (shape' (byName name value)))
    (members : List (String × Json)) :
    MatchesShape (Option.Rel r) (Shape.field? members name shape)
      (Shape.field? (mapMembers byName members) name shape') := by
  rw [Shape.field?, Shape.field?, get?_mapMembers]
  cases Members.get? name members with
  | none => exact .ok .none
  | some value => exact (h value).bind fun a b hab ↦ .ok (.some hab)

theorem matches_required {a : Option α} {b : Option β} (h : Option.Rel r a b) :
    MatchesShape r (Shape.required name a) (Shape.required name b) := by
  cases h with
  | some hab => exact .ok hab
  | none => exact .error _

theorem matches_element?_of_eq_id (h : byIndex index = id) (elements : List Json)
    (shape : Shape α) :
    MatchesShape Eq (Shape.element? elements index shape)
      (Shape.element? (elements.mapIdx byIndex) index shape) := by
  rw [Shape.element?, Shape.element?, List.getElem?_mapIdx, h, Option.map_id]
  exact .of_eq _

theorem matches_element?_mapIdx
    (h : ∀ value, MatchesShape r (shape value) (shape' (byIndex index value)))
    (elements : List Json) :
    MatchesShape (Option.Rel r) (Shape.element? elements index shape)
      (Shape.element? (elements.mapIdx byIndex) index shape') := by
  rw [Shape.element?, Shape.element?, List.getElem?_mapIdx]
  cases elements[index]? with
  | none => exact .ok .none
  | some value => exact (h value).bind fun a b hab ↦ .ok (.some hab)

theorem matches_element_of_eq_id (h : byIndex index = id) (elements : List Json)
    (shape : Shape α) :
    MatchesShape Eq (Shape.element elements index wanted shape)
      (Shape.element (elements.mapIdx byIndex) index wanted shape) :=
  (matches_element?_of_eq_id h elements shape).bind fun _ _ hab ↦ hab ▸ .of_eq _

theorem matches_element_mapIdx
    (h : ∀ value, MatchesShape r (shape value) (shape' (byIndex index value)))
    (elements : List Json) :
    MatchesShape r (Shape.element elements index wanted shape)
      (Shape.element (elements.mapIdx byIndex) index wanted shape') :=
  (matches_element?_mapIdx h elements).bind fun a b hab ↦ by
    cases hab with
    | some hab => exact .ok hab
    | none => exact .error _

theorem matches_noMore (byIndex : Nat → Json → Json) (elements : List Json) (count : Nat) :
    MatchesShape Eq (Shape.noMore elements count)
      (Shape.noMore (elements.mapIdx byIndex) count) := by
  rw [Shape.noMore, Shape.noMore, List.length_mapIdx]
  exact .of_eq _

/-- A list of which each element is changed gives the list of the changed values. -/
theorem matches_list_mapElements {m : α → α}
    (h : ∀ value, MatchesShape (fun a b ↦ b = m a) (shape value) (shape (g value)))
    (value : Json) :
    MatchesShape (fun as bs ↦ bs = as.map m) (Shape.list shape value)
      (Shape.list shape (mapElements g value)) := by
  cases value with
  | array elements =>
    show Matches _ _ _ ((elements.map g).mapM shape)
    rw [List.mapM_map]
    exact (Matches.mapM h elements).mono fun as bs ↦ eq_map_of_forall₂
  | _ => exact .error _

theorem matches_string_mapText (f : String → String) (value : Json) :
    MatchesShape (fun s t ↦ t = f s) (Shape.string value) (Shape.string (mapText f value)) := by
  cases value with
  | string s => exact .ok rfl
  | _ => exact .error _

end Shapes

/-- A list that may be left out has changed elements if it is there. -/
theorem getD_eq_map {α : Type} {m : α → α} {as bs : Option (List α)}
    (h : Option.Rel (fun as bs ↦ bs = as.map m) as bs) : bs.getD [] = (as.getD []).map m := by
  cases h with
  | some hab => exact hab
  | none => rfl

/-! ### Records of changed entries -/

variable (f : String → String)

theorem matches_parameterShape (entry : Json) :
    MatchesShape (fun r r' ↦ r' = r.map f) (ParameterRecord.shape entry)
      (ParameterRecord.shape (mapParameter f entry)) := by
  cases entry with
  | object members =>
    refine .bind (matches_field?_of_eq_id rfl members _) fun name _ hname ↦ ?_
    refine .bind (matches_field?_mapMembers (matches_string_mapText f) members)
      fun type type' htype ↦ ?_
    subst hname
    refine .bind (.of_eq _) fun name _ hname ↦ ?_
    refine .bind (matches_required htype) fun type type' htype ↦ ?_
    subst hname htype
    exact .ok rfl
  | array elements =>
    refine .bind (matches_element_of_eq_id rfl elements _) fun name _ hname ↦ ?_
    refine .bind (matches_element_mapIdx (matches_string_mapText f) elements)
      fun type type' htype ↦ ?_
    refine .bind (matches_noMore _ elements 2) fun _ _ _ ↦ ?_
    subst hname htype
    exact .ok rfl
  | _ => exact .error _

theorem matches_methodShape (entry : Json) :
    MatchesShape (fun r r' ↦ r' = r.map f) (MethodRecord.shape entry)
      (MethodRecord.shape (mapMethod f entry)) := by
  have hlist := matches_list_mapElements (matches_parameterShape f)
  have htext := matches_string_mapText f
  cases entry with
  | object members =>
    refine .bind (matches_field?_of_eq_id rfl members _) fun name _ hname ↦ ?_
    refine .bind (matches_field?_of_eq_id rfl members _) fun offset _ hoffset ↦ ?_
    refine .bind (matches_field?_mapMembers hlist members) fun parameters _ hparameters ↦ ?_
    refine .bind (matches_field?_mapMembers htext members) fun returnType _ hreturnType ↦ ?_
    refine .bind (matches_field?_of_eq_id rfl members _) fun safe _ hsafe ↦ ?_
    subst hname hoffset hsafe
    refine .bind (.of_eq _) fun name _ hname ↦ ?_
    refine .bind (matches_required hparameters) fun parameters _ hparameters ↦ ?_
    refine .bind (matches_required hreturnType) fun returnType _ hreturnType ↦ ?_
    subst hname hparameters hreturnType
    exact .ok rfl
  | array elements =>
    refine .bind (matches_element_of_eq_id rfl elements _) fun name _ hname ↦ ?_
    refine .bind (matches_element_mapIdx hlist elements) fun parameters _ hparameters ↦ ?_
    refine .bind (matches_element_mapIdx htext elements) fun returnType _ hreturnType ↦ ?_
    refine .bind (matches_element?_of_eq_id rfl elements _) fun safe _ hsafe ↦ ?_
    refine .bind (matches_element?_of_eq_id rfl elements _) fun offset _ hoffset ↦ ?_
    refine .bind (matches_noMore _ elements 5) fun _ _ _ ↦ ?_
    subst hname hparameters hreturnType hsafe hoffset
    exact .ok rfl
  | _ => exact .error _

theorem matches_eventShape (entry : Json) :
    MatchesShape (fun r r' ↦ r' = r.map f) (EventRecord.shape entry)
      (EventRecord.shape (mapEvent f entry)) := by
  have hlist := matches_list_mapElements (matches_parameterShape f)
  cases entry with
  | object members =>
    refine .bind (matches_field?_of_eq_id rfl members _) fun name _ hname ↦ ?_
    refine .bind (matches_field?_mapMembers hlist members) fun parameters _ hparameters ↦ ?_
    subst hname
    refine .bind (.of_eq _) fun name _ hname ↦ ?_
    subst hname
    exact .ok (congrArg (EventRecord.mk name) (getD_eq_map hparameters))
  | array elements =>
    refine .bind (matches_element_of_eq_id rfl elements _) fun name _ hname ↦ ?_
    refine .bind (matches_element?_mapIdx hlist elements) fun parameters _ hparameters ↦ ?_
    refine .bind (matches_noMore _ elements 2) fun _ _ _ ↦ ?_
    subst hname
    exact .ok (congrArg (EventRecord.mk name) (getD_eq_map hparameters))
  | _ => exact .error _

/-- An interface with changed entries. -/
def AbiRecord.mapEntries (record : AbiRecord) : AbiRecord :=
  ⟨record.methods.map (mapMethod f), record.events.map (mapEvent f)⟩

/-- A manifest with changed entries. -/
def ManifestRecord.mapEntries (record : ManifestRecord) : ManifestRecord :=
  { record with abi := record.abi.mapEntries f }

theorem matches_abiShape (interface : Json) :
    MatchesShape (fun r r' ↦ r' = r.mapEntries f) (AbiRecord.shape interface)
      (AbiRecord.shape (mapInterface f interface)) := by
  have hlist : ∀ (g : Json → Json) (value : Json),
      MatchesShape (fun as bs ↦ bs = as.map g) (Shape.list .any value)
        (Shape.list .any (mapElements g value)) :=
    fun g ↦ matches_list_mapElements fun _ ↦ .ok rfl
  cases interface with
  | object members =>
    refine .bind (matches_field?_mapMembers (hlist _) members) fun events _ hevents ↦ ?_
    refine .bind (matches_field?_mapMembers (hlist _) members) fun methods _ hmethods ↦ ?_
    refine .bind (matches_required hmethods) fun methods _ hmethods ↦ ?_
    subst hmethods
    exact .ok (congrArg (AbiRecord.mk _) (getD_eq_map hevents))
  | array elements =>
    refine .bind (matches_element_mapIdx (hlist _) elements) fun methods _ hmethods ↦ ?_
    refine .bind (matches_element?_mapIdx (hlist _) elements) fun events _ hevents ↦ ?_
    refine .bind (matches_noMore _ elements 2) fun _ _ _ ↦ ?_
    subst hmethods
    exact .ok (congrArg (AbiRecord.mk _) (getD_eq_map hevents))
  | _ => exact .error _

/-- **The record of a document with other descriptors** is that of the document with its entries
changed. -/
theorem matches_ofMembers (members : List (String × Json)) :
    MatchesShape (fun r r' ↦ r' = r.mapEntries f) (ManifestRecord.ofMembers members)
      (ManifestRecord.ofMembers
        (mapMembers (fun | "abi" => mapInterface f | _ => id) members)) := by
  refine .bind (matches_field?_mapMembers (matches_abiShape f) members) fun abi _ habi ↦ ?_
  refine .bind (matches_field?_of_eq_id rfl members _) fun name _ hname ↦ ?_
  refine .bind (matches_field?_of_eq_id rfl members _) fun standards _ hstandards ↦ ?_
  subst hname hstandards
  refine .bind (.of_eq _) fun name _ hname ↦ ?_
  refine .bind (matches_required habi) fun abi _ habi ↦ ?_
  subst hname habi
  exact .ok rfl

end ContractBindings.Manifest
