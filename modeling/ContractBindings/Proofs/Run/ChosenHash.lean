import ContractBindings.Proofs.Binding.Sketch
import ContractBindings.Proofs.Manifest.Loaded
import ContractBindings.Proofs.Module.NamedHash

/-!
# Generating for a chosen hash

With a hash chosen, the hash of a contract that is loaded is that one, whatever its manifest says
and wherever it came from (`scriptHash_of_load`), so that no hash is missing (`avoids_load`,
`avoids_planChecked`), and the modules that are generated name it (`names_of_generate`).
-/

namespace ContractBindings

open Binding Manifest

variable {options : Options} {hash : ScriptHash} {c : Contract} {document : Document}
  {modules : List SourceModule}

/-! ### The hash of what is loaded -/

theorem contractHash_eq (hoverride : options.hashOverride = some hash) (document : Document) :
    contractHash options document = pure (some hash) := by
  rw [contractHash, hoverride]
  show (if (options.embedHash && (some hash).isNone) = true then _ else _) = _
  rw [Option.isNone_some, Bool.and_false]
  rfl

/-- **The hash of a contract that is loaded is the chosen one.** -/
theorem scriptHash_of_load (hoverride : options.hashOverride = some hash)
    (h : (load options document).result = .ok c) : c.scriptHash = some hash := by
  obtain ⟨_, _, -, -, hloads⟩ := exists_loads h
  have hhash := hloads.scriptHash
  rw [contractHash_eq hoverride] at hhash
  exact (Except.ok.inj hhash).symm

/-! ### No hash is missing -/

section Warned

variable {α β : Type} {error : GenerationError} {x : Warned α} {f : α → Warned β}

theorem Avoids.result_bind (hx : Avoids error x.result) (hf : ∀ a, Avoids error (f a).result) :
    Avoids error (x >>= f).result := by
  rw [Warned.result_bind]
  exact hx.bind fun a _ ↦ hf a

theorem Avoids.result_mapM (hf : ∀ a, Avoids error (f a).result) (l : List α) :
    Avoids error (l.mapM f).result := by
  rw [Manifest.result_mapM]
  exact .mapM hf l

end Warned

theorem avoids_shaped {α : Type} (place : ManifestPlace) (r : Except Json.ShapeFault α) :
    Avoids .missingHash (shaped place r).result :=
  avoids_mapError nofun

theorem avoids_loadType (place : TypePlace) (descriptor : String) :
    Avoids .missingHash (loadType options place descriptor).result := by
  rw [loadType]
  split
  · exact avoids_ok _
  · split
    · split
      · exact avoids_ok _
      · exact avoids_error (by intro h; cases h)
    · exact avoids_error (by intro h; cases h)

theorem avoids_loadParameters (place : Nat → String → TypePlace)
    (records : List ParameterRecord) :
    Avoids .missingHash (loadParameters options place records).result :=
  .result_mapM (fun _ ↦ .result_bind (avoids_loadType _ _) fun _ ↦ avoids_ok _) _

theorem avoids_loadMethod (index : Nat) (entry : Json) :
    Avoids .missingHash (loadMethod options index entry).result := by
  refine .result_bind (avoids_shaped _ _) fun record ↦ ?_
  split
  · exact avoids_error nofun
  · exact .result_bind (avoids_loadParameters _ _) fun _ ↦
      .result_bind (avoids_loadType _ _) fun _ ↦ avoids_ok _

theorem avoids_loadEvent (index : Nat) (entry : Json) :
    Avoids .missingHash (loadEvent options index entry).result := by
  refine .result_bind (avoids_shaped _ _) fun record ↦ ?_
  split
  · exact avoids_error nofun
  · exact .result_bind (avoids_loadParameters _ _) fun _ ↦ avoids_ok _

theorem avoids_bodyMembers (body : Json) : Avoids .missingHash (bodyMembers body).result := by
  unfold bodyMembers
  split
  · exact avoids_ok _
  · exact avoids_error nofun

theorem avoids_contractName (record : ManifestRecord) :
    Avoids .missingHash (contractName options record).result := by
  unfold contractName
  split
  · exact avoids_ok _
  · split
    · exact avoids_error nofun
    · exact avoids_ok _

theorem avoids_load (hoverride : options.hashOverride = some hash) :
    Avoids .missingHash (load options document).result := by
  refine .result_bind (avoids_bodyMembers _) fun members ↦ ?_
  refine .result_bind (avoids_shaped _ _) fun record ↦ ?_
  refine .result_bind (avoids_contractName _) fun name ↦ ?_
  rw [contractHash_eq hoverride]
  refine .result_bind (avoids_ok _) fun scriptHash ↦ ?_
  refine .result_bind (.result_mapM (fun _ ↦ avoids_loadMethod _ _) _) fun methods ↦ ?_
  exact .result_bind (.result_mapM (fun _ ↦ avoids_loadEvent _ _) _) fun events ↦ avoids_ok _

theorem avoids_mapType (place : TypePlace) (type : AbiType) :
    Avoids .missingHash ((mapType type).mapError (·.located place)) := by
  refine avoids_mapError fun error ↦ ?_
  rcases error with _ | _
  · exact nofun
  · exact nofun

theorem avoids_planParameters (place : Nat → String → TypePlace) (parameters : List Parameter) :
    Avoids .missingHash (planParameters place parameters) := by
  refine .mapM (fun (p, ident) ↦ .bind ?_ fun mapped _ ↦ avoids_ok _) _
  rw [mapValueType]
  split
  · exact avoids_error nofun
  · exact avoids_mapType _ _

theorem avoids_resolve (kind : Identifier.Kind) (raw : String) (chosen : Option String) :
    Avoids .missingHash (Identifier.resolve kind raw chosen) := by
  unfold Identifier.resolve
  split
  · rw [Identifier.choose]
    split
    · exact avoids_ok _
    · exact avoids_error (by intro h; cases h)
  · exact avoids_ok _

theorem avoids_plan : Avoids .missingHash (plan options c) := by
  refine .bind (avoids_resolve _ _ _) fun className _ ↦ .bind (.mapM (fun (m, ident) ↦ ?_) _)
    fun methods _ ↦ .bind (.mapM (fun ((e, interfaceName), key) ↦ ?_) _) fun events _ ↦ avoids_ok _
  · exact .bind (avoids_planParameters _ _) fun _ _ ↦
      .bind (avoids_mapType _ _) fun _ _ ↦ avoids_ok _
  · exact .bind (avoids_planParameters _ _) fun _ _ ↦ avoids_ok _

theorem avoids_planChecked (h : c.scriptHash = some hash) :
    Avoids .missingHash (Module.planChecked options c) := by
  rw [Module.planChecked, h, Option.isNone_some, Bool.and_false]
  exact avoids_plan

/-! ### Modules -/

/-- Modules are for the contract at a hash: they are generated for a contract of that hash, all of
them give it at their top, and if it is embedded the class of the first of them has it for its
constant. -/
structure Names (hash : ScriptHash) (embedded : Bool) (modules : List SourceModule) : Prop where
  contract : ∃ options c, c.scriptHash = some hash ∧ Module.generate options c = .ok modules
  header : ∀ m ∈ modules, Module.headerHashes m.text = [hash.text]
  constant : embedded = true → ∃ client rest k literal, modules = client :: rest ∧
    Module.readClass? Module.readInvocation? client.text = some k ∧
      k.hashConstant = some literal ∧ Json.parse literal = .ok (.string hash.text)

/-- **Modules that are generated name the contract.** -/
theorem names_of_generate (hhash : c.scriptHash = some hash)
    (h : Module.generate options c = .ok modules) : Names hash options.embedHash modules := by
  obtain ⟨p, hplan, rfl, -⟩ := Module.exists_plan_of_generate h
  have hspelled := spelled_of_plan hplan
  obtain ⟨className, -, rfl⟩ := eq_sketch_of_plan hplan
  refine ⟨⟨options, c, hhash, h⟩, fun m hm ↦ ?_, fun hembed ↦ ?_⟩
  · rw [Module.headerHashes_of_mem_modules hspelled options m hm]
    show (c.scriptHash.map ScriptHash.text).toList = _
    rw [hhash]
    rfl
  · obtain ⟨k, literal, hread, hconstant⟩ :=
      Module.exists_constant_client hspelled hembed hhash
    exact ⟨_, _, k, literal, rfl, hread, hconstant⟩

end ContractBindings
