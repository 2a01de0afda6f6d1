import ContractBindings.Proofs.Module.TopLevel

/-!
# Names that share a scope

The names that a client module puts side by side never clash, whatever the contract and its events
are called and whatever name is chosen for the class (`scopes_declarable`). There are four kinds of
scopes: the top level of the module, the table of events, the parameters of a member, and the fields
of the interface of an event.

At the top level the names come from three sources. The prelude and the class agree because the name
of a class is none that the prelude declares; the two names derived from it end like none of them
(`nodup_moduleNames`). The interfaces are then made distinct from all of these and from each other,
one underscore at a time, so nothing has to be known of how they collide. The keys of the table are
numbered in a scope of their own, without regard to the interfaces.
-/

namespace ContractBindings.Module

open Binding Identifier
open Text (Over)

/-! ### Scopes -/

/-- A name that can be declared: an identifier that is no word of the language. -/
structure Bindable (name : String) : Prop where
  legal : isLegal name = true
  free : name ∉ reservedWords

/-- Names that can all be declared in one scope. -/
structure Declarable (names : List String) : Prop where
  nodup : names.Nodup
  bindable : ∀ name ∈ names, Bindable name

/-- The names at the top level of a client module: those of the prelude, of the interfaces and the
table of events, and of both classes. -/
def moduleScope (p : Plan) : List String :=
  preludeExports ++ p.events.map (·.interfaceName) ++
    [eventTableName p.className, p.className, implementationName p.className]

/-! ### Names that can be declared -/

variable {name className tail : String}

/-- What is usable for any kind of name can be declared. -/
theorem bindable_of_usable {kind : Kind} (h : Usable kind name) : Bindable name := by
  have hfree := h.free
  rw [isReserved, List.contains_eq_mem, decide_eq_false_iff_not] at hfree
  refine ⟨h.legal, fun hmem ↦ hfree ?_⟩
  cases kind with
  | contract => exact List.mem_append_left _ (List.mem_append_left _ hmem)
  | method => exact List.mem_append_left _ hmem
  | parameter _ => exact hmem

/-- Words of the language hold no capitals. -/
theorem bindable_of_isUpper {c : Char} (hlegal : isLegal name = true) (hc : c.isUpper = true)
    (hmem : c ∈ name.toList) : Bindable name := by
  have hsmall : ∀ word ∈ reservedWords, word.toList.all (·.isUpper == false) = true := by decide
  refine ⟨hlegal, fun hword ↦ ?_⟩
  rw [eq_of_beq (List.all_eq_true.1 (hsmall name hword) c hmem)] at hc
  cases hc

theorem bindable_append {c : Char} (h : isLegal name = true) (htail : Over isPart tail)
    (hc : c.isUpper = true) (hmem : c ∈ tail.toList) : Bindable (name ++ tail) := by
  refine bindable_of_isUpper (isLegal_append h htail) hc ?_
  rw [String.toList_append]
  exact List.mem_append_right _ hmem

theorem bindable_preludeExports : ∀ name ∈ preludeExports, Bindable name := by
  have hlegal : ∀ name ∈ preludeExports, isLegal name = true := by decide
  have hfree : ∀ name ∈ preludeExports, name ∉ reservedWords := by decide
  exact fun name hname ↦ ⟨hlegal name hname, hfree name hname⟩

/-- Whatever is put behind the name of an interface, the capital of its last word stays. -/
theorem bindable_interfaceNames (className : String) (events : List Event) :
    ∀ name ∈ interfaceNames className events, Bindable name := by
  have hcapital : ∀ name ∈ interfaceNames className events, 'E' ∈ name.toList := by
    refine forall_mem_distinct (p := fun name ↦ 'E' ∈ name.toList) (fun name k h ↦ ?_) ?_
    · rw [underscored, String.toList_append]
      exact List.mem_append_left _ h
    · intro name hname
      obtain ⟨base, -, rfl⟩ := List.mem_map.1 hname
      rw [String.toList_append]
      exact List.mem_append_right _ (by decide)
  exact fun name hname ↦
    bindable_of_isUpper (isLegal_interfaceNames className events name hname) rfl
      (hcapital name hname)

/-! ### The top level -/

theorem not_mem_preludeExports (h : Usable .contract name) : name ∉ preludeExports := by
  have hfree := h.free
  rw [isReserved, List.contains_eq_mem, decide_eq_false_iff_not] at hfree
  exact fun hmem ↦ hfree (List.mem_append_left _ (List.mem_append_right _ hmem))

/-- A name that ends unlike every name of the prelude is none of them. -/
theorem append_not_mem_preludeExports
    (htail : ∀ exported ∈ preludeExports, ¬ tail.toList <:+ exported.toList) (s : String) :
    s ++ tail ∉ preludeExports := by
  intro hmem
  refine htail _ hmem ?_
  rw [String.toList_append]
  exact List.suffix_append _ _

theorem append_ne_self (htail : tail ≠ "") (s : String) : s ++ tail ≠ s := by
  intro h
  exact htail ((String.append_right_inj s).1 (h.trans String.append_empty.symm))

/-- The names that interfaces have to avoid do not clash themselves. -/
theorem nodup_moduleNames (h : Usable .contract className) : (moduleNames className).Nodup := by
  have himpl : implementationName className ∉ preludeExports :=
    append_not_mem_preludeExports (by decide) className
  have htable : eventTableName className ∉ preludeExports :=
    append_not_mem_preludeExports (by decide) className
  have himplNe : className ≠ implementationName className :=
    (append_ne_self (by decide) className).symm
  have htableNe : className ≠ eventTableName className :=
    (append_ne_self (by decide) className).symm
  have hdiffer : implementationName className ≠ eventTableName className := fun heq ↦
    absurd ((String.append_right_inj className).1 heq) (by decide)
  have hclasses : [className, implementationName className, eventTableName className].Nodup := by
    simp [himplNe, htableNe, hdiffer]
  have hexports : preludeExports.Nodup := by decide
  refine List.Nodup.append hclasses hexports fun other hclass hexport ↦ ?_
  simp only [List.mem_cons, List.not_mem_nil, or_false] at hclass
  rcases hclass with rfl | rfl | rfl
  · exact not_mem_preludeExports h hexport
  · exact himpl hexport
  · exact htable hexport

/-- The names at the top level are those that interfaces avoid, and the interfaces. -/
theorem moduleScope_perm (p : Plan) :
    (moduleScope p).Perm (moduleNames p.className ++ p.events.map (·.interfaceName)) := by
  refine List.perm_iff_count.2 fun a ↦ ?_
  simp only [moduleScope, moduleNames, List.count_append, List.count_cons, List.count_nil]
  omega

section Sketch

variable (options : Options) (c : Contract)

theorem nodup_moduleScope (h : Usable .contract className) :
    (moduleScope (sketch options c className)).Nodup := by
  rw [(moduleScope_perm _).nodup_iff, map_interfaceName_sketch]
  refine List.Nodup.append (nodup_moduleNames h) (nodup_distinct underscored_injective _ _) ?_
  exact fun name htaken hname ↦ not_mem_of_mem_distinct underscored_injective hname htaken

theorem declarable_moduleScope (h : Usable .contract className) :
    Declarable (moduleScope (sketch options c className)) := by
  refine ⟨nodup_moduleScope options c h, ?_⟩
  rw [moduleScope, map_interfaceName_sketch]
  refine List.forall_mem_append.2 ⟨List.forall_mem_append.2
    ⟨bindable_preludeExports, bindable_interfaceNames className c.events⟩, ?_⟩
  intro name hname
  simp only [List.mem_cons, List.not_mem_nil, or_false] at hname
  rcases hname with rfl | rfl | rfl
  · exact bindable_append (c := 'E') h.legal (.literal rfl) rfl (by decide)
  · exact bindable_of_usable h
  · exact bindable_append (c := 'I') h.legal (.literal rfl) rfl (by decide)

end Sketch

/-- Only the implementation class has a module of its own, and only without events there is no
table: all other names at the top level are declared in the client module, in this order. -/
theorem exports_sublist_moduleScope {p : Plan} (hp : p.Spelled) :
    (exports (client p).text).Sublist (moduleScope p) := by
  rw [exports_client hp, moduleScope]
  split
  case isTrue hnone =>
    rw [List.isEmpty_iff.1 hnone]
    exact .append (.refl _) (.cons _ (.cons_cons _ (.cons _ .slnil)))
  case isFalse =>
    rw [← List.append_assoc, List.append_assoc _ [_] [_]]
    exact .append (.refl _) (.cons_cons _ (.cons_cons _ (.cons _ .slnil)))

/-! ### All scopes -/

theorem declarable_eventKeys (events : List Event) : Declarable (eventKeys events) := by
  have husable : ∀ key ∈ eventKeys events, Usable .contract key := by
    refine forall_mem_distinct (fun _ k h ↦ usable_numbered h k) fun base hbase ↦ ?_
    obtain ⟨e, -, rfl⟩ := List.mem_map.1 hbase
    exact usable_derive .contract e.name
  exact ⟨nodup_distinct numbered_injective [] _,
    fun key hkey ↦ bindable_of_usable (husable key hkey)⟩

theorem declarable_sketchParameters (parameters : List Parameter) :
    Declarable ((sketchParameters parameters).map (·.ident)) := by
  refine ⟨nodup_ident_sketchParameters parameters, ?_⟩
  rw [map_ident_sketchParameters]
  exact fun ident hident ↦ bindable_of_usable (usable_parameterNames _ 0 ident hident)

/-- **No names clash.** In every plan that is made, the names at the top level of the client module
can all be declared there, each event having an interface among them and a key of its own in the
table; so can the parameters of each member and the fields of each interface. What the text of the
module declares are names of this scope. -/
theorem scopes_declarable {options : Options} {c : Contract} {p : Plan}
    (h : plan options c = .ok p) :
    Declarable (moduleScope p) ∧ (exports (client p).text).Sublist (moduleScope p) ∧
      p.events.map (·.rawName) = c.events.map (·.name) ∧ Declarable (p.events.map (·.key)) ∧
      (∀ m ∈ p.methods, Declarable (m.parameters.map (·.ident))) ∧
      ∀ e ∈ p.events, Declarable (e.fields.map (·.ident)) := by
  have hspelled := spelled_of_plan h
  obtain ⟨className, hclass, rfl⟩ := eq_sketch_of_plan h
  refine ⟨declarable_moduleScope options c hclass, exports_sublist_moduleScope hspelled,
    map_rawName_sketch options c className, ?keys, fun m hm ↦ ?parameters, fun e he ↦ ?fields⟩
  case keys =>
    rw [map_key_sketch]
    exact declarable_eventKeys c.events
  case parameters =>
    obtain ⟨⟨method, ident⟩, -, rfl⟩ := List.mem_map.1 hm
    exact declarable_sketchParameters method.parameters
  case fields =>
    obtain ⟨⟨⟨event, interfaceName⟩, key⟩, -, rfl⟩ := List.mem_map.1 he
    exact declarable_sketchParameters event.parameters

/-- Three events whose interfaces would all be called like the class, and one more. -/
def collidingContract : Contract where
  name := "Token"
  scriptHash := none
  supportedStandards := []
  methods := [⟨"transfer", [⟨"to", .scalar .hash160, 0⟩, ⟨"To", .scalar .hash160, 1⟩],
    .scalar .boolean, false, none⟩]
  events := ["transfer", "Transfer", "transfer!", "Transfer_2"].map fun name ↦
    ⟨name, [⟨"from", .scalar .hash160, 0⟩, ⟨"FROM", .scalar .hash160, 1⟩]⟩

/-- The name of the class is chosen, and is the one that three of the interfaces would get. -/
theorem scopes_declarable_collidingContract :
    let options : Options := { nameOverride := some "TransferEvent" }
    let p := sketch options collidingContract "TransferEvent"
    plan options collidingContract = .ok p ∧
      (moduleScope p).drop 10 = ["TransferEvent_", "TransferEvent__", "TransferEvent___",
        "Transfer2Event", "TransferEventEvents", "TransferEvent", "TransferEventImpl"] ∧
      p.events.map (·.key) = ["Transfer", "Transfer_2", "Transfer_3", "Transfer2"] ∧
      Declarable (moduleScope p) ∧ Declarable (p.events.map (·.key)) := by
  intro options p
  have hplan : plan options collidingContract = .ok p := by decide +kernel
  have hscopes := scopes_declarable hplan
  exact ⟨hplan, by decide +kernel, by decide +kernel, hscopes.1, hscopes.2.2.2.1⟩

end ContractBindings.Module
