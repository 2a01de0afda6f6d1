import ContractBindings.Binding.Plan
import ContractBindings.Proofs.Identifier.MethodNames
import ContractBindings.Proofs.Results

/-!
# Plans without their checks

Making a plan does two things at once: it refuses types that have no counterpart, and it writes
down names and counterparts. Where it succeeds only the second is left, and that is a function of
the contract and the name of the class: the *sketch* (`eq_sketch_of_plan`). What modules say is
proved of sketches, so that no later proof opens a computation that can fail.

Every identifier of a sketch is usable for what it names (`usable_sketch` and its companions), the
name of the class because a plan is made only for a usable one.
-/

namespace ContractBindings.Binding

open Identifier

/-! ### Sketches -/

/-- The counterpart that a type has if it has one. -/
def sketchType (type : AbiType) : MappedType :=
  ⟨typeExpr type, decoder type⟩

/-- The parameter for a type under a name. -/
def sketchParameter (p : Parameter) (ident : String) : PlannedParameter :=
  ⟨ident, p.type, sketchType p.type⟩

/-- The parameters with their names. -/
def sketchParameters (parameters : List Parameter) : List PlannedParameter :=
  (parameters.zip (parameterNames (parameters.map (·.name)))).map
    fun (p, ident) ↦ sketchParameter p ident

/-- The member for a method. -/
def sketchMethod (m : Method) (ident : String) : PlannedMethod :=
  { ident, operation := m.name, signature := m.signature, safe := m.safe, offset := m.offset,
    parameters := sketchParameters m.parameters, result := sketchType m.returnType }

/-- The interface and the table entry for an event. -/
def sketchEvent (e : Event) (interfaceName key : String) : PlannedEvent :=
  ⟨interfaceName, key, e.name, sketchParameters e.parameters⟩

/-- The plan for a class if every type has a counterpart. -/
def sketch (options : Options) (c : Contract) (className : String) : Plan :=
  { className
    manifestName := c.name
    scriptHash := c.scriptHash
    embedHash := options.embedHash
    supportedStandards := c.supportedStandards
    methods := (c.methods.zip (methodNames c.methods)).map fun (m, ident) ↦ sketchMethod m ident
    events := ((c.events.zip (interfaceNames className c.events)).zip (eventKeys c.events)).map
      fun ((e, interfaceName), key) ↦ sketchEvent e interfaceName key
    aliases := aliasesOf (c.methods.flatMap declaredTypes) }

/-! ### A plan is a sketch -/

theorem eq_sketchType_of_mapType {type : AbiType} {mapped : MappedType}
    (h : mapType type = .ok mapped) : mapped = sketchType type := by
  unfold mapType at h
  split at h
  case isTrue => cases h
  case isFalse =>
    split at h
    case h_1 => cases h
    case h_2 => cases h; rfl

theorem eq_sketchType_of_mapValueType {place : TypePlace} {type : AbiType} {mapped : MappedType}
    (h : mapValueType place type = .ok mapped) : mapped = sketchType type := by
  unfold mapValueType at h
  split at h
  case isTrue => cases h
  case isFalse => exact eq_sketchType_of_mapType (ok_of_mapError_eq_ok h)

theorem eq_sketchParameters {place : Nat → String → TypePlace} {parameters : List Parameter}
    {out : List PlannedParameter} (h : planParameters place parameters = .ok out) :
    out = sketchParameters parameters := by
  refine eq_map_of_mapM_eq_ok (fun (p, ident) planned hp ↦ ?_) h
  obtain ⟨mapped, hmapped, hp⟩ := exists_of_bind_eq_ok hp
  cases hp
  rw [eq_sketchType_of_mapValueType hmapped]
  rfl

theorem eq_sketchMethod {m : Method} {ident : String} {out : PlannedMethod}
    (h : planMethod m ident = .ok out) : out = sketchMethod m ident := by
  obtain ⟨parameters, hparameters, h⟩ := exists_of_bind_eq_ok h
  obtain ⟨result, hresult, h⟩ := exists_of_bind_eq_ok h
  cases h
  rw [eq_sketchParameters hparameters, eq_sketchType_of_mapType (ok_of_mapError_eq_ok hresult)]
  rfl

theorem eq_sketchEvent {e : Event} {interfaceName key : String} {out : PlannedEvent}
    (h : planEvent e interfaceName key = .ok out) : out = sketchEvent e interfaceName key := by
  obtain ⟨fields, hfields, h⟩ := exists_of_bind_eq_ok h
  cases h
  rw [eq_sketchParameters hfields]
  rfl

/-- **A plan that is made is the sketch for a usable class name.** -/
theorem eq_sketch_of_plan {options : Options} {c : Contract} {p : Plan}
    (h : plan options c = .ok p) :
    ∃ className, Usable .contract className ∧ p = sketch options c className := by
  obtain ⟨className, hclass, h⟩ := exists_of_bind_eq_ok h
  obtain ⟨methods, hmethods, h⟩ := exists_of_bind_eq_ok h
  obtain ⟨events, hevents, h⟩ := exists_of_bind_eq_ok h
  cases h
  -- The name of the class may be chosen, so it is the one thing the contract does not fix.
  refine ⟨className, usable_of_resolve hclass, ?_⟩
  have hmethods' : methods = (sketch options c className).methods :=
    eq_map_of_mapM_eq_ok (fun (_, _) _ hm ↦ eq_sketchMethod hm) hmethods
  have hevents' : events = (sketch options c className).events :=
    eq_map_of_mapM_eq_ok (fun ((_, _), _) _ he ↦ eq_sketchEvent he) hevents
  rw [hmethods', hevents']
  rfl

/-! ### What sketches keep in order -/

/-- Members have the names of the methods, in their order. -/
theorem map_ident_sketch (options : Options) (c : Contract) (className : String) :
    (sketch options c className).methods.map (·.ident) = methodNames c.methods := by
  have hlength : (methodNames c.methods).length ≤ c.methods.length :=
    Nat.le_of_eq (length_methodNames c.methods)
  show ((c.methods.zip (methodNames c.methods)).map _).map _ = _
  rw [List.map_map]
  exact List.map_snd_zip hlength

section Events

variable (options : Options) (c : Contract) (className : String)

theorem length_interfaceNames : (interfaceNames className c.events).length = c.events.length := by
  rw [interfaceNames, length_distinct, eventBases, List.length_map, List.length_map]

/-- There are as many keys as events with a name for their interface. -/
theorem length_eventKeys :
    (c.events.zip (interfaceNames className c.events)).length = (eventKeys c.events).length := by
  rw [List.length_zip, length_interfaceNames, Nat.min_self, eventKeys, length_distinct, eventBases,
    List.length_map]

/-- What the events of a sketch hold besides their keys, by the pairs that it comes from. -/
theorem map_events_sketch {α : Type} (project : Event × String → α) {field : PlannedEvent → α}
    (hfield : ∀ e interfaceName key,
      field (sketchEvent e interfaceName key) = project (e, interfaceName)) :
    (sketch options c className).events.map field =
      (c.events.zip (interfaceNames className c.events)).map project := by
  have hlength := Nat.le_of_eq (length_eventKeys c className)
  have hcompose : (field ∘ fun ((e, interfaceName), key) ↦ sketchEvent e interfaceName key) =
      project ∘ Prod.fst :=
    funext fun ((e, interfaceName), key) ↦ hfield e interfaceName key
  show (((c.events.zip _).zip _).map _).map _ = _
  rw [List.map_map, hcompose, ← List.map_map, List.map_fst_zip hlength]

/-- Interfaces have the names that were made distinct for the events, in their order. -/
theorem map_interfaceName_sketch :
    (sketch options c className).events.map (·.interfaceName) =
      interfaceNames className c.events := by
  rw [map_events_sketch options c className Prod.snd fun _ _ _ ↦ rfl,
    List.map_snd_zip (Nat.le_of_eq (length_interfaceNames c className))]

/-- There is an interface and an entry of the table for each event, in their order. -/
theorem map_rawName_sketch :
    (sketch options c className).events.map (·.rawName) = c.events.map (·.name) := by
  rw [map_events_sketch options c className ((·.name) ∘ Prod.fst) fun _ _ _ ↦ rfl,
    ← List.map_map, List.map_fst_zip (Nat.le_of_eq (length_interfaceNames c className).symm)]

theorem map_key_sketch : (sketch options c className).events.map (·.key) = eventKeys c.events := by
  have hlength := Nat.le_of_eq (length_eventKeys c className).symm
  show (((c.events.zip _).zip _).map _).map _ = _
  rw [List.map_map]
  exact List.map_snd_zip hlength

end Events

section Parameters

variable (parameters : List Parameter)

theorem map_ident_sketchParameters :
    (sketchParameters parameters).map (·.ident) = parameterNames (parameters.map (·.name)) := by
  have hlength : (parameterNames (parameters.map (·.name))).length = parameters.length := by
    rw [length_parameterNames, List.length_map]
  rw [sketchParameters, List.map_map]
  exact List.map_snd_zip (Nat.le_of_eq hlength)

theorem map_type_sketchParameters :
    (sketchParameters parameters).map (·.type) = parameters.map (·.type) := by
  have hlength : (parameterNames (parameters.map (·.name))).length = parameters.length := by
    rw [length_parameterNames, List.length_map]
  rw [sketchParameters, List.map_map]
  show (parameters.zip _).map ((·.type) ∘ Prod.fst) = _
  rw [← List.map_map, List.map_fst_zip (Nat.le_of_eq hlength.symm)]

theorem nodup_ident_sketchParameters : ((sketchParameters parameters).map (·.ident)).Nodup := by
  rw [map_ident_sketchParameters]
  exact nodup_parameterNames _

end Parameters

end ContractBindings.Binding
