import ContractBindings.Proofs.Identifier.Occurrences
import ContractBindings.Proofs.Module.SameInvocations
import ContractBindings.Proofs.Module.TopLevel

/-!
# Imports are what is used

An implementation module imports what its class refers to and nothing else (`imports_used`). What
the class refers to is read from its text: the identifiers in the types of its members, whether any
member is called with arguments, and whether a script hash is declared. What the module imports is
decided when the plan is made, by a recursion over the types of the contract; the two agree because
both follow the types, one in the contract and the other in the expressions written for them.
-/

namespace ContractBindings.Module

open Binding Identifier

/-! ### What a class refers to -/

/-- The identifiers in the types of a member. -/
def Head.references (h : Head) : List String :=
  (h.parameters.flatMap fun declaration ↦ identifiers (shorthand declaration).2.toList) ++
    identifiers h.result.toList

/-- The types of the client module that a class refers to: four that every class does, and the
aliases in the types of its members. -/
def UsesType (i : ClassText Call) (name : String) : Prop :=
  name ∈ ["ContractArg", "ContractInvoker", "Hash160", "ResultDecoder"] ∨
    name ∈ ["Hash160", "Hash256", "PublicKey"] ∧ ∃ m ∈ i.members, name ∈ m.1.references

/-- The values of the client module that a class refers to: the functions that encode arguments if
there are any, and the client class if its script hash is declared. -/
def UsesValue (client : String) (i : ClassText Call) (name : String) : Prop :=
  name = "Encode" ∧ (∃ m ∈ i.members, m.2.arguments ≠ "[]") ∨
    name = client ∧ i.hashConstant.isSome = true

/-! ### Types of members -/

theorem shorthand_declaration {q : PlannedParameter} (h : q.Spelled) :
    shorthand q.declaration = (q.ident, q.mapped.typeExpr.text) := by
  have hcolon : ':' ∉ q.ident.toList := (over_of_isLegal h.ident).not_mem (by decide)
  have hread : readField? q.declaration.toList =
      some (q.ident.toList, q.mapped.typeExpr.text.toList) := by
    rw [PlannedParameter.declaration, String.toList_append, String.toList_append, List.append_assoc,
      readField?_append hcolon]
  rw [shorthand, hread]
  show (String.ofList _, String.ofList _) = _
  rw [String.ofList_toList, String.ofList_toList]

/-- The types of a member are those of its method. -/
theorem references_sketchMethod (m : Method) (ident : String) :
    (memberHeadText (sketchMethod m ident)).references =
      (declaredTypes m).flatMap fun type ↦ identifiers (typeExpr type).text.toList := by
  have hparameters : ((memberHeadText (sketchMethod m ident)).parameters.flatMap
      fun declaration ↦ identifiers (shorthand declaration).2.toList) =
        m.parameterTypes.flatMap fun type ↦ identifiers (typeExpr type).text.toList := by
    rw [Method.parameterTypes, ← map_type_sketchParameters, List.flatMap_map]
    show ((sketchParameters m.parameters).map (·.declaration)).flatMap _ = _
    rw [List.flatMap_map]
    refine List.flatMap_congr fun q hq ↦ ?_
    have hspelled := spelled_sketchParameters m.parameters q hq
    rw [shorthand_declaration hspelled, hspelled.mapped]
    rfl
  rw [Head.references, hparameters, declaredTypes, List.flatMap_append, List.flatMap_singleton]
  rfl

section Sketch

variable (options : Options) (c : Contract) (className : String)

theorem flatMap_references_sketch :
    ((sketch options c className).methods.flatMap fun m ↦ (memberHeadText m).references) =
      (c.methods.flatMap declaredTypes).flatMap fun type ↦
        identifiers (typeExpr type).text.toList := by
  have hmethods : (c.methods.zip (methodNames c.methods)).map Prod.fst = c.methods :=
    List.map_fst_zip (Nat.le_of_eq (length_methodNames c.methods).symm)
  rw [List.flatMap_assoc]
  conv_rhs => rw [← hmethods]
  show ((c.methods.zip _).map _).flatMap _ = _
  rw [List.flatMap_map, List.flatMap_map]
  exact List.flatMap_congr fun (m, ident) _ ↦ references_sketchMethod m ident

/-- **The aliases of a plan are those in the types of its members.** -/
theorem mem_aliases_sketch {s : Scalar} (hs : s ∈ aliased) :
    s ∈ (sketch options c className).aliases ↔
      ∃ m ∈ (sketch options c className).methods, s.name ∈ (memberHeadText m).references := by
  show s ∈ aliasesOf (c.methods.flatMap declaredTypes) ↔ _
  rw [← List.mem_flatMap, flatMap_references_sketch, List.mem_flatMap, aliasesOf, List.mem_filter,
    List.any_eq_true]
  simp only [mem_identifiers_typeExpr hs]
  exact and_iff_right hs

end Sketch

/-! ### Arguments of members -/

theorem argument_ne_empty (q : PlannedParameter) : q.argument ≠ "" := by
  rw [PlannedParameter.argument, encode]
  cases q.type <;> simp [encodeExpr]

/-- A member has arguments exactly if it has parameters. -/
theorem arguments_eq_iff (m : PlannedMethod) : m.arguments = "[]" ↔ m.parameters = [] := by
  have hitems : m.arguments = "[]" ↔ ", ".intercalate (m.parameters.map (·.argument)) = "" := by
    rw [PlannedMethod.arguments, show "[]" = "[" ++ "" ++ "]" from rfl, String.append_left_inj,
      String.append_right_inj]
  rw [hitems]
  rcases m.parameters with _ | ⟨q, _ | ⟨r, rest⟩⟩
  · exact iff_of_true rfl rfl
  · refine iff_of_false ?_ (List.cons_ne_nil _ _)
    rw [List.map_singleton, String.intercalate_singleton]
    exact argument_ne_empty q
  · refine iff_of_false ?_ (List.cons_ne_nil _ _)
    rw [List.map_cons, List.map_cons, String.intercalate_cons_cons, String.append_eq_empty_iff,
      String.append_eq_empty_iff]
    exact fun h ↦ argument_ne_empty q h.1.1

/-! ### Imported names -/

/-- The import of each name of a kind that is used, once. -/
structure Import.Exactly (i : Import) (onlyTypes : Bool) (uses : String → Prop) : Prop where
  kind : i.onlyTypes = onlyTypes
  nodup : i.names.Nodup
  mem_iff : ∀ name, name ∈ i.names ↔ uses name

variable {p : Plan}

theorem nodup_importedTypes (p : Plan) : (importedTypes p).Nodup := by
  have hall : (["ContractArg", "ContractInvoker"] ++ aliased.map Scalar.name ++
      ["ResultDecoder"]).Nodup := by decide
  exact hall.sublist (((List.Sublist.refl _).append (List.filter_sublist.map _)).append (.refl _))

theorem mem_importedTypes {i : ClassText Call} (haliases : ∀ s ∈ aliased,
    s ∈ p.aliases ↔ ∃ m ∈ i.members, s.name ∈ m.1.references) (name : String) :
    name ∈ importedTypes p ↔ UsesType i name := by
  have hname : name ∈ ["Hash160", "Hash256", "PublicKey"] ↔ ∃ s ∈ aliased, s.name = name :=
    List.mem_map (f := Scalar.name) (l := aliased)
  have hfilter : name ∈ (aliased.filter fun s ↦ s == .hash160 || p.aliases.contains s).map
      Scalar.name ↔ name = "Hash160" ∨
        name ∈ ["Hash160", "Hash256", "PublicKey"] ∧ ∃ m ∈ i.members, name ∈ m.1.references := by
    rw [hname, List.mem_map]
    constructor
    · rintro ⟨s, hs, rfl⟩
      obtain ⟨hs, hused⟩ := List.mem_filter.1 hs
      rcases Bool.or_eq_true_iff.1 hused with hfixed | hused
      · exact .inl (eq_of_beq hfixed ▸ rfl)
      · exact .inr ⟨⟨s, hs, rfl⟩, (haliases s hs).1 (List.contains_iff_mem.1 hused)⟩
    · rintro (rfl | ⟨⟨s, hs, rfl⟩, hused⟩)
      · exact ⟨.hash160, List.mem_filter.2 ⟨by decide, rfl⟩, rfl⟩
      · refine ⟨s, List.mem_filter.2 ⟨hs, Bool.or_eq_true_iff.2 (.inr ?_)⟩, rfl⟩
        exact List.contains_iff_mem.2 ((haliases s hs).2 hused)
  rw [importedTypes, List.mem_append, List.mem_append, hfilter, UsesType]
  generalize (name ∈ ["Hash160", "Hash256", "PublicKey"] ∧ ∃ m ∈ i.members,
    name ∈ m.1.references) = used
  simp only [List.mem_cons, List.not_mem_nil, or_false]
  tauto

theorem isSome_hashConstant? (p : Plan) (className : String) :
    (hashConstant? p className).isSome = (p.embedHash && p.scriptHash.isSome) := by
  rw [hashConstant?]
  split
  case isTrue hembed => rw [Option.isSome_map, hembed, Bool.true_and]
  case isFalse hembed => rw [Bool.not_eq_true] at hembed; rw [hembed]; rfl

theorem nodup_importedValues (hp : p.Spelled) : (importedValues p).Nodup := by
  have hne : "Encode" ≠ p.className := by
    rintro heq
    have hfree := hp.className.free
    rw [← heq] at hfree
    exact absurd hfree (by decide)
  have hall : (["Encode"] ++ [p.className]).Nodup := by simp [hne]
  refine hall.sublist (.append ?_ ?_)
  all_goals split
  · exact .refl _
  · exact List.nil_sublist _
  · exact .refl _
  · exact List.nil_sublist _

theorem mem_importedValues (p : Plan) (name : String) :
    name ∈ importedValues p ↔
      name = "Encode" ∧ (∃ m ∈ p.methods, m.arguments ≠ "[]") ∨
        name = p.className ∧ (hashConstant? p (implementationClass p)).isSome = true := by
  have hencode : p.methods.any (fun m ↦ !m.parameters.isEmpty) = true ↔
      ∃ m ∈ p.methods, m.arguments ≠ "[]" := by
    rw [List.any_eq_true]
    refine exists_congr fun m ↦ and_congr_right fun _ ↦ ?_
    rw [ne_eq, arguments_eq_iff, Bool.not_eq_true', ← Bool.not_eq_true, List.isEmpty_iff]
  rw [← hencode, isSome_hashConstant?, importedValues, List.mem_append, List.mem_ite_nil_right,
    List.mem_ite_nil_right, List.mem_singleton, List.mem_singleton, and_comm,
    and_comm (b := name = p.className)]

/-! ### Exact imports -/

/-- **An implementation module imports exactly what it uses.** Its one import of types has, without
repeats, those that its class refers to. It has at most one import of values, again with exactly
those that the class refers to, and none if there are none. Everything comes from the client
module. -/
theorem imports_used {options : Options} {c : Contract} (h : plan options c = .ok p) :
    ∃ (i : ClassText Call) (values : List Import) (types : Import),
      readClass? readCall? (implementation p).text = some i ∧
      (i.members.map fun member ↦ member.1.ident) = methodNames c.methods ∧
      imports (implementation p).text = values ++ [types] ∧
      types.Exactly true (UsesType i) ∧
      values.length ≤ 1 ∧ (∀ v ∈ values, v.Exactly false (UsesValue p.className i)) ∧
      (values = [] ↔ ∀ name, ¬ UsesValue p.className i name) ∧
      ∀ source ∈ (values ++ [types]).map (·.source),
        source = Json.stringLiteral ("./" ++ p.className) := by
  have hp := spelled_of_plan h
  obtain ⟨className, -, rfl⟩ := eq_sketch_of_plan h
  let p := sketch options c className
  let i : ClassText Call :=
    { name := implementationClass p
      hashConstant := hashConstant? p (implementationClass p)
      hashDefault := hashDefault? p (implementationClass p)
      members := p.methods.map fun m ↦ (memberHeadText m, memberCall m) }
  -- The class has one member for each in the plan, so both say the same of some member.
  have haliases : ∀ s ∈ aliased, s ∈ p.aliases ↔ ∃ m ∈ i.members, s.name ∈ m.1.references := by
    intro s hs
    rw [mem_aliases_sketch options c className hs]
    simp only [i, p, List.mem_map, exists_exists_and_eq_and]
  have hvalues : ∀ name, name ∈ importedValues p ↔ UsesValue p.className i name := by
    intro name
    rw [mem_importedValues, UsesValue]
    simp only [i, List.mem_map, exists_exists_and_eq_and]
    rfl
  have hempty : importedValues p = [] ↔ ∀ name, ¬ UsesValue p.className i name := by
    rw [List.eq_nil_iff_forall_not_mem]
    exact forall_congr' fun name ↦ not_congr (hvalues name)
  refine ⟨i, _, _, readClass?_implementation hp, ?members, imports_implementation hp,
    ⟨rfl, nodup_importedTypes p, mem_importedTypes haliases⟩, ?single, ?exactly, ?none, ?source⟩
  case members =>
    rw [List.map_map]
    exact map_ident_sketch options c className
  case single =>
    split
    · exact Nat.zero_le 1
    · exact Nat.le_refl 1
  case exactly =>
    split
    · exact List.forall_mem_nil _
    · exact List.forall_mem_singleton.2 ⟨rfl, nodup_importedValues hp, hvalues⟩
  case none =>
    rw [← hempty, ← List.isEmpty_iff (l := importedValues p)]
    split
    case isTrue hnone => exact iff_of_true rfl hnone
    case isFalse hsome => exact iff_of_false (List.cons_ne_nil _ _) hsome
  case source =>
    split
    · exact List.forall_mem_singleton.2 rfl
    · exact List.forall_mem_cons.2 ⟨rfl, List.forall_mem_singleton.2 rfl⟩

/-- A contract with each alias in one place only: inside the type of a parameter, in a result, and
in an event. -/
def nestedContract : Contract where
  name := "Nested"
  scriptHash := some ⟨List.replicate ScriptHash.size 0xab, ScriptHash.length_replicate_ab⟩
  supportedStandards := []
  methods := [⟨"keys", [⟨"owners", .map (.scalar .string) (.array (.scalar .publicKey)), 0⟩],
    .scalar .boolean, true, none⟩, ⟨"count", [], .scalar .integer, true, none⟩]
  events := [⟨"Stored", [⟨"block", .scalar .hash256, 0⟩]⟩]

/-- The alias that only the event refers to is not imported. -/
theorem imports_used_nestedContract :
    let options : Options := { embedHash := true, withImplementation := true }
    let p := sketch options nestedContract "Nested"
    plan options nestedContract = .ok p ∧
      importedValues p = ["Encode", "Nested"] ∧
      importedTypes p = ["ContractArg", "ContractInvoker", "Hash160", "PublicKey",
        "ResultDecoder"] ∧
      ∃ (i : ClassText Call) (types : Import),
        types ∈ imports (implementation p).text ∧ types.Exactly true (UsesType i) ∧
          (i.members.map fun member ↦ member.1.ident) = ["keys", "count"] := by
  intro options p
  have hplan : plan options nestedContract = .ok p := by decide +kernel
  obtain ⟨i, values, types, -, hidents, himports, htypes, -⟩ := imports_used hplan
  refine ⟨hplan, by decide +kernel, by decide +kernel, i, types, ?_, htypes, ?_⟩
  · rw [himports]
    exact List.mem_append_right _ List.mem_cons_self
  · rw [hidents]
    decide +kernel

end ContractBindings.Module
