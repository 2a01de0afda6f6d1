import ContractBindings.Proofs.Json.RoundTrip
import ContractBindings.Proofs.Node.AnswerTree

/-!
# Manifests in answers

The manifest that an answer carries is formed like any value that is read (`formed_of_parseAnswer`),
with two levels less than a text may have, as it stands in the state of a contract and that in the
answer. Nothing is asked of what else the answer holds. So the text that is taken from the answer is
the manifest itself, if that is a string, or is read as the manifest (`isTextOf_manifestText`). This
asks for whole numbers in the manifest, which it has if the tree of the answer has no others
(`HasManifest.whole`).
-/

namespace ContractBindings

open Json

variable {body name : String} {names : List String} {answer : NodeAnswer}
  {tree part manifest : Json}

/-! ### Formed manifests -/

theorem state_gives :
    FieldReader.Gives contractStateShape.read fun found ↦ ∀ v ∈ found, Formed manifestDepth v := by
  have hfields : ∀ field ∈ contractStateShape.fields,
      field.2.Gives fun found ↦ ∀ v ∈ found, Formed manifestDepth v := by
    have hany : (FieldReader.any manifestDepth).Gives (Formed manifestDepth) :=
      fun s r hr ↦ formed_of_readValue (ok_of_mapError_eq_ok hr)
    exact List.forall_mem_singleton.2 hany.optional
  refine gives_read hfields fun fields value hvalue hall v hv ↦ ?_
  have hjoin : (fields.lookup "manifest").join = value := Except.ok.inj hvalue
  rw [← hjoin, Option.mem_def, Option.join_eq_some_iff] at hv
  obtain ⟨l, r, hfields, -⟩ := List.lookup_eq_some_iff.1 hv
  exact hall ("manifest", some v) (hfields ▸ List.mem_append_cons_self) v rfl

/-- A field of an answer whose manifest, if it has one, is formed. -/
def NodeAnswer.Field.Formed (field : NodeAnswer.Field) : Prop :=
  ∀ found, field = .result found → ∀ v ∈ found, Json.Formed manifestDepth v

theorem answer_gives :
    FieldReader.Gives NodeAnswer.shape.read fun answer ↦
      ∀ v ∈ answer.manifest, Json.Formed manifestDepth v := by
  have hresult : FieldReader.Gives
      (fun s ↦ return (← FieldReader.optional contractStateShape.read s).map (.result ·.join))
      NodeAnswer.Field.Formed := by
    refine state_gives.optional.map fun state hstate found hfound v hv ↦ ?_
    cases hfound
    exact hstate (some v) (Option.join_eq_some_iff.1 hv) v rfl
  have herror : FieldReader.Gives
      (fun s ↦ return (← FieldReader.optional NodeError.shape.read s).map .error)
      NodeAnswer.Field.Formed := by
    have hany : FieldReader.Gives NodeError.shape.read fun _ ↦ True := fun _ _ _ ↦ trivial
    refine hany.optional.map fun error _ found hfound ↦ ?_
    cases hfound
  have hfields : ∀ field ∈ NodeAnswer.shape.fields, field.2.Gives NodeAnswer.Field.Formed :=
    List.forall_mem_cons.2 ⟨hresult, List.forall_mem_singleton.2 herror⟩
  refine gives_read hfields fun fields answer hanswer hall v hv ↦ ?_
  cases hanswer
  obtain ⟨field, hfield, hfound⟩ :=
    List.exists_of_findSome?_eq_some (Option.join_eq_some_iff.1 hv)
  have hformed := hall field hfield
  obtain ⟨name, found | error⟩ := field
  · cases hfound
    exact hformed _ rfl v rfl
  · cases hfound

/-- **A manifest in an answer is formed**, whatever stands around it. -/
theorem formed_of_parseAnswer (h : NodeAnswer.parse body = .ok answer)
    (hmanifest : answer.manifest = some manifest) : Json.Formed manifestDepth manifest :=
  gives_parseRecord answer_gives h manifest hmanifest

/-! ### Numbers -/

theorem Json.Whole.ordered (h : tree.Whole) : tree.ordered.Whole := by
  induction h with
  | null => exact .null
  | bool b => exact .bool b
  | number h => exact .number h
  | string s => exact .string s
  | array _ ih =>
    rw [Json.ordered, orderedElements_eq_map]
    exact .array (List.forall_mem_map.2 ih)
  | object _ ih =>
    rw [Json.ordered, orderedMembers_eq_map]
    refine .object fun m hm ↦ ?_
    obtain ⟨member, hmember, rfl⟩ := List.mem_map.1 (Members.mem_of_mem_ofList hm)
    exact ih member hmember

/-- A part of a record has no other numbers than the record. -/
theorem Json.Whole.fieldValue? (h : tree.Whole)
    (hpart : fieldValue? names name tree = some (some part)) : part.Whole := by
  cases h with
  | @object members h =>
    have hsole : soleMember? name members = some (some part) := hpart
    rw [soleMember?] at hsole
    split at hsole
    case h_1 => cases hsole
    case h_2 member hmember =>
      cases hsole
      exact h member (List.mem_of_mem_filter (hmember ▸ List.mem_singleton_self _))
    case h_3 => cases hsole
  | array h =>
    rw [Json.fieldValue?] at hpart
    split at hpart
    case isTrue => exact h part (List.mem_of_getElem? (Option.some.inj hpart))
    case isFalse => cases hpart
  | _ => cases hpart

theorem HasManifest.whole (h : HasManifest tree manifest) (hwhole : tree.Whole) :
    manifest.Whole := by
  obtain ⟨result, value, hresult, hvalue, -, rfl⟩ := h.manifest
  exact ((hwhole.fieldValue? hresult).fieldValue? hvalue).ordered

/-! ### Texts -/

/-- The text of a manifest: the string itself if the manifest is one, and otherwise a text that is
read as the manifest. -/
def IsTextOf (content : String) (manifest : Json) : Prop :=
  manifest = .string content ∨ Json.parse content = .ok manifest

theorem isTextOf_manifestText (h : NodeAnswer.parse body = .ok answer)
    (hmanifest : answer.manifest = some manifest) (hwhole : manifest.Whole) :
    IsTextOf (manifestText manifest) manifest := by
  have hformed := formed_of_parseAnswer h hmanifest
  cases manifest with
  | string s => exact .inl rfl
  | _ => exact .inr (parse_text_of_formed hformed (Nat.sub_le _ _) hwhole)

end ContractBindings
