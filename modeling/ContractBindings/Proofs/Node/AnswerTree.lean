import ContractBindings.Node.Answer
import ContractBindings.Proofs.Json.RecordParts

/-!
# Answers and their trees

What a body is read as is said of its tree (`NodeAnswer.ofTree?`), part by part: a part that may be
null may be absent as well, members stand in any order and elements in their own, a member that is
known stands there once. Every body that has a tree is read as the answer that the tree
describes, and is none if the tree describes none (`NodeAnswer.parse_eq_ok_iff`). It carries a
manifest and no error exactly if the tree has them where they belong
(`NodeAnswer.ofTree?_eq_manifest_iff`).
-/

namespace ContractBindings

open Json

/-! ### What trees say -/

/-- A part that is there and not null. -/
def nonNull? : Option Json → Option Json
  | some .null => none
  | part => part

theorem mapM_nullable {α : Type} (meaning : Json → Option α) (part : Option Json) :
    (·.join) <$> part.mapM (nullable? meaning) = (nonNull? part).mapM meaning := by
  rcases part with _ | tree
  · rfl
  · cases tree with
    | null => rfl
    | _ => simp [nullable?, nonNull?, Function.comp_def]

/-- The error that a tree describes: an integer of 64 bits and a text. -/
def NodeError.ofTree? (tree : Json) : Option NodeError := do
  let code ← fieldValue? ["code", "message"] "code" tree
  let message ← fieldValue? ["code", "message"] "message" tree
  return ⟨← integer64? (← code), ← string? (← message)⟩

/-- The manifest in the state of a contract, if it is there. -/
def manifestOfTree? (state : Json) : Option (Option Json) := do
  let manifest ← fieldValue? ["manifest"] "manifest" state
  return (nonNull? manifest).map Json.ordered

/-- The answer that a tree describes. -/
def NodeAnswer.ofTree? (tree : Json) : Option NodeAnswer := do
  let result ← fieldValue? ["result", "error"] "result" tree
  let error ← fieldValue? ["result", "error"] "error" tree
  let manifest ← (nonNull? result).mapM manifestOfTree?
  let error ← (nonNull? error).mapM NodeError.ofTree?
  return ⟨manifest.join, error⟩

/-- A tree of an answer that carries a manifest: there is no error besides null, and a result with
a manifest besides null. -/
structure HasManifest (tree manifest : Json) : Prop where
  error : ∃ error, fieldValue? ["result", "error"] "error" tree = some error ∧
    (error = none ∨ error = some .null)
  manifest : ∃ result value, fieldValue? ["result", "error"] "result" tree = some (some result) ∧
    fieldValue? ["manifest"] "manifest" result = some (some value) ∧ value ≠ .null ∧
      manifest = value.ordered

variable {tree manifest : Json}

theorem nonNull?_eq_none_iff {part : Option Json} :
    nonNull? part = none ↔ part = none ∨ part = some .null := by
  rcases part with _ | tree
  · simp [nonNull?]
  · cases tree <;> simp [nonNull?]

theorem nonNull?_eq_some_iff {part : Option Json} :
    nonNull? part = some tree ↔ part = some tree ∧ tree ≠ .null := by
  rcases part with _ | tree
  · simp [nonNull?]
  · cases tree <;> simp [nonNull?]
    all_goals rintro rfl; simp

theorem manifestOfTree?_eq_some_iff {state : Json} :
    manifestOfTree? state = some (some manifest) ↔
      ∃ value, fieldValue? ["manifest"] "manifest" state = some (some value) ∧ value ≠ .null ∧
        manifest = value.ordered := by
  constructor
  · intro h
    obtain ⟨part, hpart, h⟩ := Option.bind_eq_some_iff.1 h
    obtain ⟨value, hvalue, rfl⟩ := Option.map_eq_some_iff.1 (Option.some.inj h)
    obtain ⟨rfl, hne⟩ := nonNull?_eq_some_iff.1 hvalue
    exact ⟨value, hpart, hne, rfl⟩
  · rintro ⟨value, hpart, hne, rfl⟩
    rw [manifestOfTree?, hpart]
    show some ((nonNull? (some value)).map Json.ordered) = _
    rw [nonNull?_eq_some_iff.2 ⟨rfl, hne⟩]
    rfl

theorem mapM_eq_some_iff {α β : Type} {f : α → Option β} {part : Option α} {found : Option β} :
    part.mapM f = some found ↔ Option.Rel (fun a b ↦ f a = some b) part found := by
  cases part with
  | none => cases found <;> simp
  | some a => cases found <;> simp

/-- **An answer carries a manifest and no error exactly if its tree says so.** -/
theorem NodeAnswer.ofTree?_eq_manifest_iff :
    NodeAnswer.ofTree? tree = some ⟨some manifest, none⟩ ↔ HasManifest tree manifest := by
  constructor
  · intro h
    obtain ⟨result, hresult, h⟩ := Option.bind_eq_some_iff.1 h
    obtain ⟨error, herror, h⟩ := Option.bind_eq_some_iff.1 h
    obtain ⟨found, hfound, h⟩ := Option.bind_eq_some_iff.1 h
    obtain ⟨fault, hfault, h⟩ := Option.bind_eq_some_iff.1 h
    obtain ⟨hjoin, rfl⟩ := NodeAnswer.mk.inj (Option.some.inj h)
    obtain rfl := Option.join_eq_some_iff.1 hjoin
    -- What is not null of the two parts corresponds to what is found in them.
    generalize hstate : nonNull? result = state at hfound
    generalize hnull : nonNull? error = failure at hfault
    cases mapM_eq_some_iff.1 hfault
    cases mapM_eq_some_iff.1 hfound with
    | some hvalue =>
      obtain ⟨rfl, -⟩ := nonNull?_eq_some_iff.1 hstate
      obtain ⟨value, hvalue⟩ := manifestOfTree?_eq_some_iff.1 hvalue
      exact ⟨⟨error, herror, nonNull?_eq_none_iff.1 hnull⟩, _, value, hresult, hvalue⟩
  · rintro ⟨⟨error, herror, hnull⟩, result, value, hresult, hvalue⟩
    have hne : result ≠ .null := by
      rintro rfl
      cases hvalue.1
    have hfound : (nonNull? (some result)).mapM manifestOfTree? = some (some (some manifest)) := by
      rw [nonNull?_eq_some_iff.2 ⟨rfl, hne⟩]
      exact mapM_eq_some_iff.2 (.some (manifestOfTree?_eq_some_iff.2 ⟨value, hvalue⟩))
    have hfault : (nonNull? error).mapM NodeError.ofTree? = some none := by
      rw [nonNull?_eq_none_iff.2 hnull]
      rfl
    refine Option.bind_eq_some_iff.2 ⟨_, hresult, Option.bind_eq_some_iff.2 ⟨_, herror, ?_⟩⟩
    exact Option.bind_eq_some_iff.2 ⟨_, hfound, Option.bind_eq_some_iff.2 ⟨_, hfault, rfl⟩⟩

/-! ### What is read -/

/-- What is said of the fields of an error. -/
def NodeError.meanings : Meanings NodeError.Field :=
  [("code", fun tree ↦ .code <$> integer64? tree),
    ("message", fun tree ↦ .message <$> string? tree)]

theorem NodeError.means (levels : Nat) :
    FieldsMean levels NodeError.shape.fields NodeError.meanings :=
  .cons ⟨rfl, means_integer64.map _⟩ (.cons ⟨rfl, means_string.map _⟩ .nil)

theorem NodeError.describe (tree : Json) :
    NodeError.shape.describe NodeError.meanings tree = NodeError.ofTree? tree := by
  rw [NodeError.meanings, NodeError.ofTree?,
    describe_two (by decide) integer64? string? .code .message NodeError.shape fun _ _ ↦ rfl]
  cases fieldValue? ["code", "message"] "code" tree with
  | none => rfl
  | some code =>
    cases fieldValue? ["code", "message"] "message" tree with
    | none => rfl
    | some message =>
      rcases code with _ | code <;> rcases message with _ | message
      · rfl
      · cases hmessage : string? message <;> simp [hmessage]; rfl
      · cases hcode : integer64? code <;> simp [hcode]; rfl
      · cases hcode : integer64? code <;> cases hmessage : string? message <;>
          simp [hcode, hmessage]; rfl

/-- What is said of the one field of the state of a contract. -/
def stateMeanings : Meanings (Option Json) :=
  [("manifest", nullable? fun tree ↦ some tree.ordered)]

theorem state_means : FieldsMean manifestDepth contractStateShape.fields stateMeanings :=
  .cons ⟨rfl, means_any.optional⟩ .nil

theorem state_describe (tree : Json) :
    contractStateShape.describe stateMeanings tree = manifestOfTree? tree := by
  rw [stateMeanings, describe_one, manifestOfTree?]
  cases fieldValue? ["manifest"] "manifest" tree with
  | none => rfl
  | some manifest =>
    rcases manifest with _ | manifest
    · rfl
    · cases manifest <;> rfl

/-- What is said of the fields of an answer. -/
def NodeAnswer.meanings : Meanings NodeAnswer.Field :=
  [("result", fun tree ↦ .result <$> (·.join) <$> nullable? manifestOfTree? tree),
    ("error", fun tree ↦ .error <$> nullable? NodeError.ofTree? tree)]

theorem NodeAnswer.means :
    FieldsMean (greatestDepth - 1) NodeAnswer.shape.fields NodeAnswer.meanings := by
  have hstate : (contractStateShape.read).Means (greatestDepth - 1) manifestOfTree? := by
    rw [← funext state_describe]
    exact state_means.read
  have herror : (NodeError.shape.read).Means (greatestDepth - 1) NodeError.ofTree? := by
    rw [← funext NodeError.describe]
    exact (NodeError.means (greatestDepth - 2)).read
  refine .cons ⟨rfl, ?_⟩ (.cons ⟨rfl, herror.optional.map _⟩ .nil)
  simp only [Functor.map, Option.map_map]
  exact hstate.optional.map _

theorem NodeAnswer.assemble (result : Option (Option Json)) (error : Option (Option NodeError)) :
    NodeAnswer.shape.assemble (takenOf "result" "error" .result .error result error) =
      .ok ⟨result.join, error.join⟩ := by
  cases result <;> cases error <;> rfl

theorem NodeAnswer.describe (tree : Json) :
    NodeAnswer.shape.describe NodeAnswer.meanings tree = NodeAnswer.ofTree? tree := by
  rw [NodeAnswer.meanings, NodeAnswer.ofTree?, describe_two (by decide)
    (fun tree ↦ (·.join) <$> nullable? manifestOfTree? tree) (nullable? NodeError.ofTree?) .result
    .error NodeAnswer.shape fun _ _ ↦ rfl]
  refine bind_congr fun result ↦ bind_congr fun error ↦ ?_
  rw [← mapM_nullable, ← mapM_nullable]
  have hresult : (result.mapM fun tree ↦ (·.join) <$> nullable? manifestOfTree? tree) =
      (fun part ↦ part.map (·.join)) <$> result.mapM (nullable? manifestOfTree?) := by
    cases result with
    | none => rfl
    | some result =>
      cases hresult : nullable? manifestOfTree? result <;> simp [hresult]
  rw [hresult]
  simp only [NodeAnswer.assemble, map_eq_pure_bind, bind_assoc, pure_bind]
  refine bind_congr fun manifest ↦ bind_congr fun error ↦ ?_
  rcases manifest with _ | _ | _ <;> rfl

/-- **A body is read as the answer that its tree describes.** -/
theorem NodeAnswer.parse_eq_ok_iff {body : String} (h : Writes body tree) (answer : NodeAnswer) :
    NodeAnswer.parse body = .ok answer ↔ NodeAnswer.ofTree? tree = some answer := by
  rw [← NodeAnswer.describe]
  exact parseRecord_eq_ok_iff NodeAnswer.means h answer

end ContractBindings
