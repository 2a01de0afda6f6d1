import ContractBindings.Proofs.Binding.Sketch
import ContractBindings.Proofs.Module.SameInvocations

/-!
# The hash that modules name

A module says in the comments at its top which contract it is for, and the class of a client module
with an embedded hash says so again in its constant. Both are read from the text of the module, and
both are the one hash of the plan (`headerHashes_of_mem_modules`, `exists_constant_client`).

No other comment passes for that of the hash, whatever the contract is called: a comment about
something else begins with something else (`Differs`), and what a manifest puts behind that
beginning stays on its line.
-/

namespace ContractBindings.Module

open Binding

variable {p : Plan} {hash : ScriptHash}

/-! ### Readers -/

/-- What a comment about the script hash begins with. -/
def hashLabel : List Char :=
  "Script hash: ".toList

/-- Reads a comment about the script hash. -/
def readScriptHash? (line : List Char) : Option String := do
  let s ← after? ("/* ".toList ++ hashLabel) line
  let value ← before? " */".toList s
  return String.ofList value

/-- The script hashes in the comments at the top of a module, which an empty line ends. -/
def headerHashes (text : String) : List String :=
  ((moduleLines text).takeWhile (· ≠ [])).filterMap readScriptHash?

/-! ### Comments -/

theorem readScriptHash?_eq_none {content : String} (h : Differs hashLabel content) :
    readScriptHash? (comment content).toList = none := by
  have hafter : after? ("/* ".toList ++ hashLabel) (comment content).toList = none := by
    rw [after?_eq_none_iff, toList_comment, List.prefix_append_right_inj]
    exact h _
  rw [readScriptHash?, hafter]
  rfl

theorem readScriptHash?_hash (hash : ScriptHash) :
    readScriptHash? (comment ("Script hash: " ++ hash.text)).toList = some hash.text := by
  have hcontent : ("Script hash: " ++ hash.text).toList = hashLabel ++ hash.text.toList :=
    String.toList_append
  have hline : (comment ("Script hash: " ++ hash.text)).toList =
      ("/* ".toList ++ hashLabel) ++ (hash.text.toList ++ " */".toList) := by
    rw [toList_comment, hcontent, List.append_assoc, List.append_assoc]
  simp only [readScriptHash?, hline, after?_append, before?_append, Option.bind_eq_bind,
    Option.bind_some, String.ofList_toList]
  rfl

/-! ### The top of a module -/

theorem filterMap_headerContents (p : Plan) (description : String) :
    (headerContents p description).filterMap (fun content ↦
      readScriptHash? (comment content).toList) = (p.scriptHash.map ScriptHash.text).toList := by
  have hfixed : ∀ content ∈ ["Auto-generated by " ++ toolName ++ ": " ++ description,
      "WARNING: Do not modify this file directly. It is generated from the contract " ++
        "manifest.", "Contract: " ++ sanitize p.manifestName],
      readScriptHash? (comment content).toList = none := by
    simp only [List.forall_mem_cons]
    refine ⟨readScriptHash?_eq_none ?_, readScriptHash?_eq_none ?_, readScriptHash?_eq_none ?_,
      List.forall_mem_nil _⟩
    · exact (((Differs.literal (by decide +kernel)).append _).append _).append _
    · exact (Differs.literal (by decide +kernel)).append _
    · exact (Differs.literal (by decide +kernel)).append _
  have hstandards : ∀ content ∈ (if p.supportedStandards.isEmpty then []
      else ["Supported standards: " ++ sanitize (", ".intercalate p.supportedStandards)]),
      readScriptHash? (comment content).toList = none := by
    split
    · exact List.forall_mem_nil _
    · refine List.forall_mem_singleton.2 (readScriptHash?_eq_none ?_)
      exact (Differs.literal (by decide +kernel)).append _
  rw [headerContents, List.filterMap_append, List.filterMap_append,
    List.filterMap_eq_nil_iff.2 hfixed, List.filterMap_eq_nil_iff.2 hstandards, List.nil_append,
    List.nil_append]
  rcases p.scriptHash with _ | hash
  · rfl
  · exact List.filterMap_cons_some (readScriptHash?_hash hash)

/-- **The comments at the top give the hash of the plan**, once, and no other. -/
theorem headerHashes_header {text description : String} {rest : Lines}
    (h : moduleLines text = (header p description ++ rest).map String.toList ++ [[]]) :
    headerHashes text = (p.scriptHash.map ScriptHash.text).toList := by
  have hcomments : ∀ line ∈ (headerContents p description).map (String.toList ∘ comment),
      decide (line ≠ []) = true := by
    intro line hline
    obtain ⟨content, -, rfl⟩ := List.mem_map.1 hline
    rw [Function.comp_apply, toList_comment, decide_eq_true_eq]
    exact List.append_ne_nil_of_left_ne_nil (by decide +kernel) _
  rw [headerHashes, h, header_eq, List.append_assoc, List.map_append, List.map_map,
    List.append_assoc, List.takeWhile_append_of_pos hcomments]
  show ((headerContents p description).map _ ++ []).filterMap readScriptHash? = _
  rw [List.append_nil, List.filterMap_map]
  exact filterMap_headerContents p description

/-- **All modules of a plan give its hash in the comments at their top.** -/
theorem headerHashes_of_mem_modules (hp : p.Spelled) (options : Options) :
    ∀ m ∈ modules options p, headerHashes m.text = (p.scriptHash.map ScriptHash.text).toList := by
  have hclient := moduleLines_client hp
  rw [clientLines_eq, List.append_assoc, List.append_assoc, List.append_assoc] at hclient
  have himplementation := moduleLines_implementation hp
  rw [implementationLines_eq, List.append_assoc, List.append_assoc] at himplementation
  refine List.forall_mem_cons.2 ⟨headerHashes_header hclient, ?_⟩
  split
  case isTrue => exact List.forall_mem_singleton.2 (headerHashes_header himplementation)
  case isFalse => exact List.forall_mem_nil _

/-- The constant of a client class with an embedded hash is a literal of the hash. -/
theorem exists_constant_client (hp : p.Spelled) (hembed : p.embedHash = true)
    (hhash : p.scriptHash = some hash) :
    ∃ k literal, readClass? readInvocation? (client p).text = some k ∧
      k.hashConstant = some literal ∧ Json.parse literal = .ok (.string hash.text) :=
  ⟨_, _, readClass?_client hp, hashConstant?_className hembed hhash,
    Json.parse_stringLiteral hash.text⟩

end ContractBindings.Module
