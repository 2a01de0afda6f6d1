import ContractBindings.Proofs.Manifest.Descriptors

/-!
# Members that are not known

Of the objects of a document only the members with known names are looked at, so documents that
differ in other members alone are loaded alike, with the same contract or the same error and the
same warnings (`load_congr_of_sameManifest`).

That two documents differ in nothing else is said level by level (`SameRecord`). A record has parts,
in declared order, and each of them may differ in a way of its own. Two objects are the same record
if they can be gone through together, member by member, where a member whose name is that of no part
may stand in either of them alone (`SameMembers`). What is read from them agrees part by part, and
as nothing else is read, no such member comes up in an error either.
-/

namespace ContractBindings.Manifest

open Json

/-! ### Documents that differ in members that are not known -/

/-- The names of the parts of a record, in declared order, each with the relation between its values
in two records that are the same. -/
abbrev Parts := List (String × (Json → Json → Prop))

/-- Members that differ in those that are the name of no part. -/
inductive SameMembers (parts : Parts) :
    (members members' : List (String × Json)) → Prop where
  | nil : SameMembers parts [] []
  | known {name : String} {same : Json → Json → Prop} {value value' : Json}
    {members members' : List (String × Json)} (hname : parts.lookup name = some same)
    (hvalue : same value value') (h : SameMembers parts members members') :
    SameMembers parts ((name, value) :: members) ((name, value') :: members')
  | added {name : String} (value : Json) {members members' : List (String × Json)}
    (hname : parts.lookup name = none) (h : SameMembers parts members members') :
    SameMembers parts members ((name, value) :: members')
  | removed {name : String} (value : Json) {members members' : List (String × Json)}
    (hname : parts.lookup name = none) (h : SameMembers parts members members') :
    SameMembers parts ((name, value) :: members) members'

/-- The elements of two arrays in place of records. Elements behind those of the parts are the
same. -/
inductive SameElements : Parts → (elements elements' : List Json) → Prop where
  | short (parts : Parts) : SameElements parts [] []
  | beyond (elements : List Json) : SameElements [] elements elements
  | cons {name : String} {same : Json → Json → Prop} {parts : Parts} {value value' : Json}
    {elements elements' : List Json} (hvalue : same value value')
    (h : SameElements parts elements elements') :
    SameElements ((name, same) :: parts) (value :: elements) (value' :: elements')

/-- Records that differ, on their own level, in members that are not known. -/
inductive SameRecord (parts : Parts) : (value value' : Json) → Prop where
  | refl (value : Json) : SameRecord parts value value
  | object {members members' : List (String × Json)} (h : SameMembers parts members members') :
    SameRecord parts (.object members) (.object members')
  | array {elements elements' : List Json} (h : SameElements parts elements elements') :
    SameRecord parts (.array elements) (.array elements')

/-- Arrays of as many elements, which are the same one by one. -/
inductive SameList (same : Json → Json → Prop) : (value value' : Json) → Prop where
  | refl (value : Json) : SameList same value value
  | array {elements elements' : List Json} (h : List.Forall₂ same elements elements') :
    SameList same (.array elements) (.array elements')

/-- Parameters that differ in members that are not known. -/
def SameParameter : Json → Json → Prop :=
  SameRecord [("name", Eq), ("type", Eq)]

/-- Methods that differ in members that are not known, their own or those of their parameters. -/
def SameMethod : Json → Json → Prop :=
  SameRecord [("name", Eq), ("parameters", SameList SameParameter), ("returntype", Eq),
    ("safe", Eq), ("offset", Eq)]

/-- Events that differ in members that are not known, their own or those of their parameters. -/
def SameEvent : Json → Json → Prop :=
  SameRecord [("name", Eq), ("parameters", SameList SameParameter)]

/-- Interfaces that differ in members that are not known. -/
def SameInterface : Json → Json → Prop :=
  SameRecord [("methods", SameList SameMethod), ("events", SameList SameEvent)]

/-- The parts of manifests. -/
abbrev manifestParts : Parts :=
  [("name", Eq), ("supportedstandards", Eq), ("abi", SameInterface)]

/-- Manifests that differ in members that are not known. -/
def SameManifest : Json → Json → Prop :=
  SameRecord manifestParts

/-! ### Parts of records -/

section Parts

variable {α β : Type} {r : α → α → Prop} {parts : Parts} {same : Json → Json → Prop}
  {members members' : List (String × Json)} {elements elements' : List Json}
  {shape : Shape α} {name wanted : String} {index : Nat}

/-- **What is found under the name of a part** is the same. -/
theorem SameMembers.rel_get? (h : SameMembers parts members members')
    (hname : parts.lookup name = some same) :
    Option.Rel same (Members.get? name members) (Members.get? name members') := by
  have hother : ∀ {other}, parts.lookup other = none → (name == other) = false := by
    intro other hnone
    refine beq_eq_false_iff_ne.2 ?_
    rintro rfl
    rw [hname] at hnone
    cases hnone
  simp only [Members.get?]
  induction h with
  | nil => exact .none
  | @known found _ value value' _ _ hfound hvalue _ ih =>
    rw [List.lookup_cons, List.lookup_cons]
    cases heq : name == found with
    | true =>
      rw [← eq_of_beq heq, hname] at hfound
      cases hfound
      exact .some hvalue
    | false => exact ih
  | added value hnone _ ih => rwa [List.lookup_cons, hother hnone]
  | removed value hnone _ ih => rwa [List.lookup_cons, hother hnone]

theorem SameMembers.matches_field? (h : SameMembers parts members members')
    (hname : parts.lookup name = some same)
    (hshape : ∀ value value', same value value' → MatchesShape r (shape value) (shape value')) :
    MatchesShape (Option.Rel r) (Shape.field? members name shape)
      (Shape.field? members' name shape) := by
  have hrel := h.rel_get? hname
  rw [Shape.field?, Shape.field?]
  generalize Members.get? name members = found, Members.get? name members' = found' at hrel ⊢
  cases hrel with
  | none => exact .ok .none
  | some hvalue => exact (hshape _ _ hvalue).bind fun a b hab ↦ .ok (.some hab)

/-- What is read alike is the same. -/
theorem eq_of_matches_rel {x y : Except ShapeFault (Option α)}
    (h : MatchesShape (Option.Rel Eq) x y) : x = y := by
  refine (h.mono fun found found' hfound ↦ ?_).eq
  cases hfound with
  | some hvalue => rw [hvalue]
  | none => rfl

theorem SameMembers.field?_eq (h : SameMembers parts members members')
    (hname : parts.lookup name = some same)
    (hshape : ∀ value value', same value value' → shape value = shape value') :
    Shape.field? members name shape = Shape.field? members' name shape :=
  eq_of_matches_rel (h.matches_field? hname fun value value' hvalue ↦
    hshape value value' hvalue ▸ .of_eq _)

/-- **What is found at the index of a part** is the same. -/
theorem SameElements.rel_getElem? (h : SameElements parts elements elements')
    (hindex : parts[index]? = some (name, same)) :
    Option.Rel same elements[index]? elements'[index]? := by
  induction h generalizing index with
  | short => exact .none
  | beyond => cases hindex
  | cons hvalue _ ih =>
    cases index with
    | zero =>
      cases hindex
      exact .some hvalue
    | succ index => exact ih hindex

theorem SameElements.matches_element? (h : SameElements parts elements elements')
    (hindex : parts[index]? = some (name, same))
    (hshape : ∀ value value', same value value' → MatchesShape r (shape value) (shape value')) :
    MatchesShape (Option.Rel r) (Shape.element? elements index shape)
      (Shape.element? elements' index shape) := by
  have hrel := h.rel_getElem? hindex
  rw [Shape.element?, Shape.element?]
  generalize elements[index]? = found, elements'[index]? = found' at hrel ⊢
  cases hrel with
  | none => exact .ok .none
  | some hvalue => exact (hshape _ _ hvalue).bind fun a b hab ↦ .ok (.some hab)

theorem SameElements.element?_eq (h : SameElements parts elements elements')
    (hindex : parts[index]? = some (name, same))
    (hshape : ∀ value value', same value value' → shape value = shape value') :
    Shape.element? elements index shape = Shape.element? elements' index shape :=
  eq_of_matches_rel (h.matches_element? hindex fun value value' hvalue ↦
    hshape value value' hvalue ▸ .of_eq _)

theorem SameElements.matches_element (h : SameElements parts elements elements')
    (hindex : parts[index]? = some (name, same))
    (hshape : ∀ value value', same value value' → MatchesShape r (shape value) (shape value')) :
    MatchesShape r (Shape.element elements index wanted shape)
      (Shape.element elements' index wanted shape) :=
  (h.matches_element? hindex hshape).bind fun a b hab ↦ by
    cases hab with
    | some hab => exact .ok hab
    | none => exact .error _

theorem SameElements.element_eq (h : SameElements parts elements elements')
    (hindex : parts[index]? = some (name, same))
    (hshape : ∀ value value', same value value' → shape value = shape value') :
    Shape.element elements index wanted shape = Shape.element elements' index wanted shape := by
  rw [Shape.element, Shape.element, h.element?_eq hindex hshape]

theorem SameElements.noMore_eq (h : SameElements parts elements elements') (count : Nat) :
    Shape.noMore elements count = Shape.noMore elements' count := by
  have hlength : elements.length = elements'.length := by
    induction h with
    | short => rfl
    | beyond => rfl
    | cons _ _ ih => rw [List.length_cons, List.length_cons, ih]
  rw [Shape.noMore, Shape.noMore, hlength]

theorem SameList.list_eq (hshape : ∀ value value', same value value' → shape value = shape value')
    {value value' : Json} (h : SameList same value value') :
    Shape.list shape value = Shape.list shape value' := by
  cases h with
  | refl => rfl
  | @array elements elements' h =>
    show elements.mapM shape = elements'.mapM shape
    induction h with
    | nil => rfl
    | cons hvalue _ ih => rw [List.mapM_cons, List.mapM_cons, hshape _ _ hvalue, ih]

/-- Elements that are not looked at yet are related one by one. -/
theorem SameList.matches_list_any (hrefl : ∀ value, same value value) {value value' : Json}
    (h : SameList same value value') :
    MatchesShape (List.Forall₂ same) (Shape.list .any value) (Shape.list .any value') := by
  cases h with
  | refl =>
    refine (Matches.of_eq _).mono fun elements _ heq ↦ ?_
    subst heq
    exact List.forall₂_same.2 fun element _ ↦ hrefl element
  | @array elements elements' h =>
    show Matches _ _ (elements.mapM Shape.any) (elements'.mapM Shape.any)
    induction h with
    | nil => exact .ok .nil
    | cons hvalue _ ih =>
      rw [List.mapM_cons, List.mapM_cons]
      exact .bind (.ok hvalue) fun _ _ hvalue ↦ ih.bind fun _ _ h ↦ .ok (.cons hvalue h)

end Parts

/-! ### Records -/

theorem SameParameter.shape_eq (entry entry' : Json) (h : SameParameter entry entry') :
    ParameterRecord.shape entry = ParameterRecord.shape entry' := by
  cases h with
  | refl => rfl
  | object h =>
    rw [ParameterRecord.shape, ParameterRecord.shape, h.field?_eq rfl fun _ _ ↦ congrArg _,
      h.field?_eq rfl fun _ _ ↦ congrArg _]
  | array h =>
    rw [ParameterRecord.shape, ParameterRecord.shape, h.element_eq rfl fun _ _ ↦ congrArg _,
      h.element_eq rfl fun _ _ ↦ congrArg _, h.noMore_eq]

theorem sameParameters_list_eq (value value' : Json) (h : SameList SameParameter value value') :
    Shape.list ParameterRecord.shape value = Shape.list ParameterRecord.shape value' :=
  h.list_eq SameParameter.shape_eq

theorem SameMethod.shape_eq (entry entry' : Json) (h : SameMethod entry entry') :
    MethodRecord.shape entry = MethodRecord.shape entry' := by
  cases h with
  | refl => rfl
  | object h =>
    rw [MethodRecord.shape, MethodRecord.shape, h.field?_eq rfl fun _ _ ↦ congrArg _,
      h.field?_eq rfl fun _ _ ↦ congrArg _, h.field?_eq rfl sameParameters_list_eq,
      h.field?_eq rfl fun _ _ ↦ congrArg _, h.field?_eq rfl fun _ _ ↦ congrArg _]
  | array h =>
    rw [MethodRecord.shape, MethodRecord.shape, h.element_eq rfl fun _ _ ↦ congrArg _,
      h.element_eq rfl sameParameters_list_eq, h.element_eq rfl fun _ _ ↦ congrArg _,
      h.element?_eq rfl fun _ _ ↦ congrArg _, h.element?_eq rfl fun _ _ ↦ congrArg _, h.noMore_eq]

theorem SameEvent.shape_eq (entry entry' : Json) (h : SameEvent entry entry') :
    EventRecord.shape entry = EventRecord.shape entry' := by
  cases h with
  | refl => rfl
  | object h =>
    rw [EventRecord.shape, EventRecord.shape, h.field?_eq rfl fun _ _ ↦ congrArg _,
      h.field?_eq rfl sameParameters_list_eq]
  | array h =>
    rw [EventRecord.shape, EventRecord.shape, h.element_eq rfl fun _ _ ↦ congrArg _,
      h.element?_eq rfl sameParameters_list_eq, h.noMore_eq]

/-- Interfaces with entries that are the same one by one. -/
structure AbiRecord.Same (record record' : AbiRecord) : Prop where
  methods : List.Forall₂ SameMethod record.methods record'.methods
  events : List.Forall₂ SameEvent record.events record'.events

theorem AbiRecord.Same.refl (record : AbiRecord) : record.Same record where
  methods := List.forall₂_same.2 fun entry _ ↦ .refl entry
  events := List.forall₂_same.2 fun entry _ ↦ .refl entry

/-- Manifests with the same interface, and alike in the rest. -/
structure ManifestRecord.Same (record record' : ManifestRecord) : Prop where
  name : record.name = record'.name
  supportedStandards : record.supportedStandards = record'.supportedStandards
  abi : record.abi.Same record'.abi

/-- A list that may be left out. -/
theorem forall₂_getD {α : Type} {r : α → α → Prop} {as bs : Option (List α)}
    (h : Option.Rel (List.Forall₂ r) as bs) : List.Forall₂ r (as.getD []) (bs.getD []) := by
  cases h with
  | some h => exact h
  | none => exact .nil

theorem SameInterface.matches_shape (interface interface' : Json)
    (h : SameInterface interface interface') :
    MatchesShape AbiRecord.Same (AbiRecord.shape interface) (AbiRecord.shape interface') := by
  have hmethods : ∀ value value', SameList SameMethod value value' →
      MatchesShape (List.Forall₂ SameMethod) (Shape.list .any value) (Shape.list .any value') :=
    fun _ _ ↦ SameList.matches_list_any .refl
  have hevents : ∀ value value', SameList SameEvent value value' →
      MatchesShape (List.Forall₂ SameEvent) (Shape.list .any value) (Shape.list .any value') :=
    fun _ _ ↦ SameList.matches_list_any .refl
  cases h with
  | refl =>
    refine (Matches.of_eq _).mono fun record _ heq ↦ ?_
    subst heq
    exact .refl record
  | object h =>
    refine .bind (h.matches_field? rfl hevents) fun events events' hevents ↦ ?_
    refine .bind (h.matches_field? rfl hmethods) fun methods methods' hmethods ↦ ?_
    refine .bind (matches_required hmethods) fun methods methods' hmethods ↦ ?_
    exact .ok ⟨hmethods, forall₂_getD hevents⟩
  | array h =>
    refine .bind (h.matches_element rfl hmethods) fun methods methods' hmethods ↦ ?_
    refine .bind (h.matches_element? rfl hevents) fun events events' hevents ↦ ?_
    rw [h.noMore_eq]
    exact .bind (.of_eq _) fun _ _ _ ↦ .ok ⟨hmethods, forall₂_getD hevents⟩

/-- **The records of two manifests that are the same** differ in nothing but entries that are the
same, or are refused for the same fault. -/
theorem SameMembers.matches_ofMembers {members members' : List (String × Json)}
    (h : SameMembers manifestParts members members') :
    MatchesShape ManifestRecord.Same (ManifestRecord.ofMembers members)
      (ManifestRecord.ofMembers members') := by
  rw [ManifestRecord.ofMembers, ManifestRecord.ofMembers,
    h.field?_eq (show manifestParts.lookup "name" = some Eq from rfl) fun _ _ ↦ congrArg _,
    h.field?_eq (show manifestParts.lookup "supportedstandards" = some Eq from rfl)
      fun _ _ ↦ congrArg _]
  refine .bind (h.matches_field? rfl SameInterface.matches_shape) fun abi abi' habi ↦ ?_
  refine .bind (.of_eq _) fun name _ hname ↦ ?_
  refine .bind (.of_eq _) fun standards _ hstandards ↦ ?_
  subst hname hstandards
  refine .bind (.of_eq _) fun name _ hname ↦ ?_
  refine .bind (matches_required habi) fun abi abi' habi ↦ ?_
  exact .ok ⟨hname, rfl, habi⟩

/-! ### Loading -/

section Loading

variable {α β : Type} {r : α → α → Prop}

/-- Two results with warnings that go on alike from related values. -/
theorem bind_congr_of_matches {x y : Warned α} {f g : α → Warned β}
    (hwarnings : x.warnings = y.warnings) (h : Matches (fun _ ↦ False) r x.result y.result)
    (hfg : ∀ a b, r a b → f a = g b) : x >>= f = y >>= g := by
  obtain ⟨warnings, x⟩ := x
  obtain ⟨_, y⟩ := y
  subst hwarnings
  cases h with
  | error e => rfl
  | @ok a b hab =>
    show Warned.mk (warnings ++ (f a).warnings) (f a).result =
      Warned.mk (warnings ++ (g b).warnings) (g b).result
    rw [hfg a b hab]
  | excused h => exact h.elim

/-- Lists of entries that are loaded alike one by one, each under its index. -/
theorem mapM_zipIdx_congr {loadEntry : Nat → α → Warned β}
    (hload : ∀ index a b, r a b → loadEntry index a = loadEntry index b) {as bs : List α}
    (h : List.Forall₂ r as bs) :
    as.zipIdx.mapM (fun (a, index) ↦ loadEntry index a) =
      bs.zipIdx.mapM fun (b, index) ↦ loadEntry index b := by
  -- `mapM` goes through the list with an accumulator, which the induction has to leave free.
  suffices hloop : ∀ start acc,
      List.mapM.loop (fun (a, index) ↦ loadEntry index a) (as.zipIdx start) acc =
        List.mapM.loop (fun (b, index) ↦ loadEntry index b) (bs.zipIdx start) acc from hloop 0 []
  induction h with
  | nil => exact fun _ _ ↦ rfl
  | cons hab _ ih =>
    intro start acc
    rw [List.zipIdx_cons, List.zipIdx_cons, List.mapM.loop, List.mapM.loop]
    simp only [hload _ _ _ hab, ih]

end Loading

theorem SameMethod.loadMethod_eq (options : Options) (index : Nat) (entry entry' : Json)
    (h : SameMethod entry entry') :
    loadMethod options index entry = loadMethod options index entry' := by
  rw [loadMethod, loadMethod, SameMethod.shape_eq _ _ h]

theorem SameEvent.loadEvent_eq (options : Options) (index : Nat) (entry entry' : Json)
    (h : SameEvent entry entry') :
    loadEvent options index entry = loadEvent options index entry' := by
  rw [loadEvent, loadEvent, SameEvent.shape_eq _ _ h]

/-- **Members that are not known have no part in loading**: with any options, two documents that
differ in nothing else come to the same contract or the same error, after the same warnings. -/
theorem load_congr_of_sameManifest {body body' : Json} (h : SameManifest body body')
    (options : Options) (sourceHash : Option ScriptHash) :
    load options ⟨body, sourceHash⟩ = load options ⟨body', sourceHash⟩ := by
  cases h with
  | refl => rfl
  -- An array in place of a manifest is refused before it is looked at.
  | array => rfl
  | object h =>
    refine bind_congr_of_matches rfl (.ok h) fun members members' h ↦ ?_
    refine bind_congr_of_matches rfl (h.matches_ofMembers.mapError _) fun record record' h ↦ ?_
    have hname : contractName options record = contractName options record' := by
      rw [contractName, contractName, h.name]
    have hmethods := mapM_zipIdx_congr (SameMethod.loadMethod_eq options) h.abi.methods
    have hevents := mapM_zipIdx_congr (SameEvent.loadEvent_eq options) h.abi.events
    rw [hname, hmethods, hevents, h.supportedStandards]
    rfl

/-- The manifest of a store. -/
def plainManifest : Json :=
  .object
    [("abi", .object
      [("events", .array
        [.object [("name", .string "Put"), ("parameters", .array [])]]),
        ("methods", .array
          [.object
            [("name", .string "put"),
              ("parameters", .array
                [.object [("name", .string "key"), ("type", .string "String")]]),
              ("returntype", .string "Void")]])]),
      ("name", .string "Store")]

/-- The manifest of a store with other members on every level. -/
def annotatedManifest : Json :=
  .object
    [("abi", .object
      [("events", .array
        [.object [("name", .string "Put"), ("note", .null), ("parameters", .array [])]]),
        ("methods", .array
          [.object
            [("name", .string "put"), ("note", .string "writes"),
              ("parameters", .array
                [.object
                  [("index", .number (.integer 0)), ("name", .string "key"),
                    ("type", .string "String")]]),
              ("returntype", .string "Void")]]),
        ("version", .bool true)]),
      ("groups", .array [.object []]), ("name", .string "Store")]

/-- A method, an event, a parameter, an interface and a manifest with members of other names are
read as without them. -/
theorem load_congr_annotatedManifest :
    SameManifest plainManifest annotatedManifest ∧
      load {} ⟨plainManifest, none⟩ = load {} ⟨annotatedManifest, none⟩ ∧
      (load {} ⟨annotatedManifest, none⟩).result =
        .ok { name := "Store", scriptHash := none, supportedStandards := []
              methods := [⟨"put", [⟨"key", .scalar .string, 0⟩], .scalar .void, false, none⟩]
              events := [⟨"Put", []⟩] } := by
  have h : SameManifest plainManifest annotatedManifest := by
    refine .object (.known rfl ?_ (.added _ rfl (.known rfl rfl .nil)))
    refine .object (.known rfl (.array (.cons ?event .nil))
      (.known rfl (.array (.cons ?method .nil)) (.added _ rfl .nil)))
    case event =>
      exact .object (.known rfl rfl (.added _ rfl (.known rfl (.refl _) .nil)))
    case method =>
      refine .object (.known rfl rfl (.added _ rfl (.known rfl (.array (.cons ?_ .nil))
        (.known rfl rfl .nil))))
      exact .object (.added _ rfl (.known rfl rfl (.known rfl rfl .nil)))
  have hload := load_congr_of_sameManifest h {} none
  refine ⟨h, hload, ?_⟩
  rw [← hload]
  decide +kernel

end ContractBindings.Manifest
