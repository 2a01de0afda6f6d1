import ContractBindings.Module.Generate
import ContractBindings.Proofs.Binding.Sketch
import ContractBindings.Proofs.Binding.Supported

/-!
# Contracts that have modules

All that keeps modules from being generated is a list (`faults`): the hash and the name that the
options ask for, then the types of the methods and then those of the events, from left to right.
Generating ends with the first of the list, and gives modules if and only if the contract is
`Acceptable`, which looks at types only and not at how they are gone through
(`generate_reports_first`).

Names that the manifest gives keep no module from being generated: only a chosen name can be
refused, and every member, interface and parameter has an identifier, as many as there are of them.
-/

namespace ContractBindings.Module

open Binding Identifier

/-! ### Faults in their order -/

/-- What is wrong with the types of parameters. -/
def parameterFaults (place : Nat → String → TypePlace) (parameters : List Parameter) :
    List GenerationError :=
  parameters.flatMap fun p ↦ valueFaults (place p.position p.name) p.type

/-- What is wrong with the types of a method: those of its parameters from left to right, and that
of its result. -/
def methodFaults (m : Method) : List GenerationError :=
  parameterFaults (.parameter m.name) m.parameters ++
    resultFaults (.returnValue m.name) m.returnType

/-- What is wrong with the types of an event. -/
def eventFaults (e : Event) : List GenerationError :=
  parameterFaults (.eventParameter e.name) e.parameters

/-- What is wrong with the name that is chosen, if one is. -/
def nameFaults (options : Options) : List GenerationError :=
  options.nameOverride.toList.flatMap fun name ↦
    faultIf (¬ (isLegal name && !isReserved .contract name)) (.invalidIdentifier name)

/-- What keeps modules from being generated, in the order in which it counts. -/
def faults (options : Options) (c : Contract) : List GenerationError :=
  faultIf (options.embedHash && c.scriptHash.isNone) .missingHash ++
    (nameFaults options ++ (c.methods.flatMap methodFaults ++ c.events.flatMap eventFaults))

/-! ### Contracts without faults -/

/-- Parameters whose types are those of values and supported. -/
def AcceptableParameters (parameters : List Parameter) : Prop :=
  ∀ p ∈ parameters, p.type ≠ .scalar .void ∧ Supported p.type

/-- A contract that modules can be generated for. -/
structure Acceptable (options : Options) (c : Contract) : Prop where
  hash : options.embedHash = true → c.scriptHash.isSome = true
  name : ∀ name, options.nameOverride = some name → Usable .contract name
  methods : ∀ m ∈ c.methods, AcceptableParameters m.parameters ∧ Supported m.returnType
  events : ∀ e ∈ c.events, AcceptableParameters e.parameters

section Acceptable

variable {options : Options} {c : Contract} {place : Nat → String → TypePlace}
  {parameters : List Parameter}

theorem parameterFaults_eq_nil_iff :
    parameterFaults place parameters = [] ↔ AcceptableParameters parameters := by
  simp only [parameterFaults, List.flatMap_eq_nil_iff, valueFaults_eq_nil_iff,
    AcceptableParameters]

theorem methodFaults_eq_nil_iff {m : Method} :
    methodFaults m = [] ↔ AcceptableParameters m.parameters ∧ Supported m.returnType := by
  rw [methodFaults, List.append_eq_nil_iff, parameterFaults_eq_nil_iff, resultFaults_eq_nil_iff]

theorem nameFaults_eq_nil_iff :
    nameFaults options = [] ↔
      ∀ name, options.nameOverride = some name → Usable .contract name := by
  simp only [nameFaults, List.flatMap_eq_nil_iff, faultIf_eq_nil_iff, not_not,
    Option.mem_toList, Bool.and_eq_true, Bool.not_eq_true']
  exact forall₂_congr fun name _ ↦ ⟨fun h ↦ ⟨h.1, h.2⟩, fun h ↦ ⟨h.1, h.2⟩⟩

/-- **No fault is left if and only if the contract is acceptable.** -/
theorem faults_eq_nil_iff : faults options c = [] ↔ Acceptable options c := by
  have hhash : ¬ (options.embedHash && c.scriptHash.isNone) = true ↔
      (options.embedHash = true → c.scriptHash.isSome = true) := by
    rw [Bool.and_eq_true, not_and, Bool.not_eq_true, Option.isNone_eq_false_iff]
  rw [faults, List.append_eq_nil_iff, List.append_eq_nil_iff, List.append_eq_nil_iff,
    faultIf_eq_nil_iff, hhash, nameFaults_eq_nil_iff, List.flatMap_eq_nil_iff,
    List.flatMap_eq_nil_iff]
  simp only [methodFaults_eq_nil_iff, eventFaults, parameterFaults_eq_nil_iff]
  exact ⟨fun ⟨hhash, hname, hmethods, hevents⟩ ↦ ⟨hhash, hname, hmethods, hevents⟩,
    fun h ↦ ⟨h.hash, h.name, h.methods, h.events⟩⟩

end Acceptable

/-! ### Steps of the generator -/

variable (options : Options)

theorem reports_planParameters (place : Nat → String → TypePlace) (parameters : List Parameter) :
    Reports (parameterFaults place parameters) (planParameters place parameters) := by
  have hlength : (parameterNames (parameters.map (·.name))).length = parameters.length :=
    (length_parameterNames _).trans (List.length_map _)
  exact .mapM_zip (fun p ident ↦ (reports_mapValueType _ _).bind_ok _) hlength

theorem reports_planMethod (m : Method) (ident : String) :
    Reports (methodFaults m) (planMethod m ident) :=
  (reports_planParameters _ _).bind fun _ _ ↦ (reports_mapType _ _).bind_ok _

theorem reports_planEvent (e : Event) (interfaceName key : String) :
    Reports (eventFaults e) (planEvent e interfaceName key) :=
  (reports_planParameters _ _).bind_ok _

/-- Only a chosen name can be refused. -/
theorem reports_className (c : Contract) :
    Reports (nameFaults options) (resolve .contract c.name options.nameOverride) := by
  rw [nameFaults]
  cases options.nameOverride with
  | none => exact reports_ok _
  | some name =>
    show Reports (faultIf _ _ ++ []) (choose .contract name)
    rw [choose, ← ite_not]
    exact reports_faultIf _ (reports_ok name)

theorem reports_plan (c : Contract) :
    Reports (nameFaults options ++ (c.methods.flatMap methodFaults ++ c.events.flatMap eventFaults))
      (plan options c) := by
  refine (reports_className options c).bind fun className _ ↦ ?_
  refine Reports.bind (.mapM_zip reports_planMethod (length_methodNames c.methods))
    fun methods _ ↦ Reports.bind_ok ?_ _
  rw [← flatMap_fst_zip eventFaults (length_interfaceNames c className)]
  exact .mapM_zip (fun p key ↦ reports_planEvent p.1 p.2 key) (length_eventKeys c className).symm

/-- **Generating ends with the first of the faults**, and gives modules if and only if the contract
is acceptable. -/
theorem generate_reports_first (options : Options) (c : Contract) :
    (∀ error, generate options c = .error error ↔ (faults options c).head? = some error) ∧
      ((∃ modules, generate options c = .ok modules) ↔ Acceptable options c) := by
  have h : Reports (faults options c) (generate options c) :=
    (reports_faultIf _ (reports_plan options c)).bind_ok _
  exact ⟨h, h.exists_ok_iff.trans faults_eq_nil_iff⟩

end ContractBindings.Module
