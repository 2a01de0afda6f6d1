import ContractBindings.Proofs.Encoding.TypeText

/-!
# Reading argument expressions

A reader of the expressions that encode arguments, which takes one from the front of a text: a
function of the prelude applied to a variable, and for lists and maps to encoders as well. An
encoder is a function of the prelude or an arrow with such an expression under it, so the reader of
encoders is given that of expressions.

Each form is read back where its parts are (`readsExpr_array` and its companions), and by induction
on the type so is every expression that a type is encoded by (`wholeEncodeExpr?_encode`).
-/

namespace ContractBindings.Encoding

open Binding Identifier ContractBindings.Module

/-- Reads an encoder; `readExpr?` reads what stands under an arrow. -/
def readEncoder? (readExpr? : List Char → Option (EncodeExpr × List Char)) :
    List Char → Option (Encoder × List Char)
  | '(' :: s => do
    let (binder, s) ← readWord? s
    let s ← after? ") => ".toList s
    let (body, s) ← readExpr? s
    return (.arrow binder body, s)
  | s => do
    let s ← after? "Encode.".toList s
    let (name, s) ← readWord? s
    return (.function name, s)

/-- Reads an expression for an argument in which others stand less than `fuel` deep. -/
def readEncodeExpr? : (fuel : Nat) → List Char → Option (EncodeExpr × List Char)
  | 0, _ => none
  | fuel + 1, s => do
    let s ← after? "Encode.".toList s
    let (name, s) ← readWord? s
    let s ← after? "(".toList s
    let (value, s) ← readWord? s
    match s with
    | ')' :: s => return (.scalar name value, s)
    | s => do
      let s ← after? ", ".toList s
      let (first, s) ← readEncoder? (readEncodeExpr? fuel) s
      match s with
      | ')' :: s => if name = "array" then some (.array value first, s) else none
      | s => do
        let s ← after? ", ".toList s
        let (second, s) ← readEncoder? (readEncodeExpr? fuel) s
        let s ← after? ")".toList s
        if name = "map" then some (.map value first second, s) else none

/-- Reads a text that is an expression for an argument. -/
def wholeEncodeExpr? (text : String) : Option EncodeExpr :=
  match readEncodeExpr? text.toList.length text.toList with
  | some (e, []) => some e
  | _ => none

/-! ### Forms -/

variable {fuel : Nat} {name value binder : String} {body : EncodeExpr} {first second : Encoder}

/-- An expression that is read back, whatever follows it. -/
def ReadsExpr (fuel : Nat) (e : EncodeExpr) : Prop :=
  ∀ rest, readEncodeExpr? fuel (e.text.toList ++ rest) = some (e, rest)

/-- An encoder that is read back from in front of anything that ends its name. -/
def ReadsEncoder (fuel : Nat) (f : Encoder) : Prop :=
  ∀ rest, Text.StopsRun isPart rest →
    readEncoder? (readEncodeExpr? fuel) (f.text.toList ++ rest) = some (f, rest)

theorem readsEncoder_function (hname : isLegal name = true) :
    ReadsEncoder fuel (.function name) := by
  intro rest hrest
  have htext : (Encoder.function name).text.toList ++ rest =
      "Encode.".toList ++ (name.toList ++ rest) := by
    simp
  rw [htext]
  refine bind_eq_some (after?_append _ _) ?_
  refine bind_eq_some (readWord?_append hname hrest) ?_
  rfl

theorem readsEncoder_arrow (hbinder : isLegal binder = true) (hbody : ReadsExpr fuel body) :
    ReadsEncoder fuel (.arrow binder body) := by
  intro rest hrest
  have htext : (Encoder.arrow binder body).text.toList ++ rest =
      '(' :: (binder.toList ++ (") => ".toList ++ (body.text.toList ++ rest))) := by
    simp
  rw [htext]
  refine bind_eq_some (readWord?_append hbinder (Text.stopsRun_cons (by decide))) ?_
  refine bind_eq_some (after?_append _ _) ?_
  refine bind_eq_some (hbody rest) ?_
  rfl

theorem readsExpr_scalar (hname : isLegal name = true) (hvalue : isLegal value = true) :
    ReadsExpr (fuel + 1) (.scalar name value) := by
  intro rest
  have htext : (EncodeExpr.scalar name value).text.toList ++ rest =
      "Encode.".toList ++ (name.toList ++ ("(".toList ++ (value.toList ++ ')' :: rest))) := by
    simp
  rw [htext]
  refine bind_eq_some (after?_append _ _) ?_
  refine bind_eq_some (readWord?_append hname (Text.stopsRun_cons (by decide))) ?_
  refine bind_eq_some (after?_append _ _) ?_
  refine bind_eq_some (readWord?_append hvalue (Text.stopsRun_cons (by decide))) ?_
  rfl

theorem readsExpr_array (hvalue : isLegal value = true) (hfirst : ReadsEncoder fuel first) :
    ReadsExpr (fuel + 1) (.array value first) := by
  intro rest
  have htext : (EncodeExpr.array value first).text.toList ++ rest =
      "Encode.".toList ++ ("array".toList ++ ("(".toList ++ (value.toList ++ (", ".toList ++
        (first.text.toList ++ ')' :: rest))))) := by
    simp
  have hname : isLegal "array" = true := by decide
  rw [htext]
  refine bind_eq_some (after?_append _ _) ?_
  refine bind_eq_some (readWord?_append hname (Text.stopsRun_cons (by decide))) ?_
  refine bind_eq_some (after?_append _ _) ?_
  refine bind_eq_some (readWord?_append hvalue (Text.stopsRun_cons (by decide))) ?_
  refine bind_eq_some (after?_append _ _) ?_
  refine bind_eq_some (hfirst _ (Text.stopsRun_cons (by decide))) ?_
  show (if "array" = "array" then some _ else none) = _
  rw [if_pos rfl]

theorem readsExpr_map (hvalue : isLegal value = true) (hfirst : ReadsEncoder fuel first)
    (hsecond : ReadsEncoder fuel second) : ReadsExpr (fuel + 1) (.map value first second) := by
  intro rest
  have htext : (EncodeExpr.map value first second).text.toList ++ rest =
      "Encode.".toList ++ ("map".toList ++ ("(".toList ++ (value.toList ++ (", ".toList ++
        (first.text.toList ++ (", ".toList ++ (second.text.toList ++
          (")".toList ++ rest)))))))) := by
    simp
  have hname : isLegal "map" = true := by decide
  rw [htext]
  refine bind_eq_some (after?_append _ _) ?_
  refine bind_eq_some (readWord?_append hname (Text.stopsRun_cons (by decide))) ?_
  refine bind_eq_some (after?_append _ _) ?_
  refine bind_eq_some (readWord?_append hvalue (Text.stopsRun_cons (by decide))) ?_
  refine bind_eq_some (after?_append _ _) ?_
  refine bind_eq_some (hfirst _ (Text.stopsRun_cons (by decide))) ?_
  refine bind_eq_some (after?_append _ _) ?_
  refine bind_eq_some (hsecond _ (Text.stopsRun_cons (by decide))) ?_
  refine bind_eq_some (after?_append _ _) ?_
  show (if "map" = "map" then some _ else none) = _
  rw [if_pos rfl]

/-! ### The expressions of types -/

theorem isLegal_scalarEncoder (s : Scalar) : isLegal (scalarEncoder s) = true := by
  cases s <;> decide

theorem isLegal_arrowVariable (depth : Nat) : isLegal (arrowVariable depth) = true :=
  isLegal_append (by decide) (over_toString_nat depth)

/-- Encoders and expressions of a type are read back by a reader that goes as deep as the type. -/
theorem reads_of_type (type : AbiType) (depth : Nat) :
    (∀ fuel, type.depth ≤ fuel → ReadsEncoder fuel (encoder depth type)) ∧
      ∀ value fuel, type.depth ≤ fuel → isLegal value = true →
        ReadsExpr fuel (encodeExpr value depth type) := by
  refine encoder_induction (F := fun type f ↦ ∀ fuel, type.depth ≤ fuel → ReadsEncoder fuel f)
    (E := fun type value e ↦ ∀ fuel, type.depth ≤ fuel → isLegal value = true → ReadsExpr fuel e)
    ?function ?arrow ?scalar ?array ?map type depth
  case function =>
    intro s fuel _
    exact readsEncoder_function (isLegal_scalarEncoder s)
  case arrow =>
    intro type depth body hbody fuel hfuel
    exact readsEncoder_arrow (isLegal_arrowVariable depth)
      (hbody fuel hfuel (isLegal_arrowVariable depth))
  -- Behind the name of the function there is one level less to go.
  case scalar =>
    intro s value fuel hfuel hvalue
    obtain ⟨fuel, rfl⟩ := Nat.exists_eq_add_of_le' (show 1 ≤ fuel from hfuel)
    exact readsExpr_scalar (isLegal_scalarEncoder s) hvalue
  case array =>
    intro element value f hf fuel hfuel hvalue
    rw [AbiType.depth] at hfuel
    obtain ⟨fuel, rfl⟩ := Nat.exists_eq_add_of_le' (show 1 ≤ fuel by omega)
    exact readsExpr_array hvalue (hf fuel (by omega))
  case map =>
    intro key entry value f g hf hg fuel hfuel hvalue
    rw [AbiType.depth] at hfuel
    obtain ⟨fuel, rfl⟩ := Nat.exists_eq_add_of_le' (show 1 ≤ fuel by omega)
    exact readsExpr_map hvalue (hf fuel (by omega)) (hg fuel (by omega))

/-- Encoders and expressions are at least as long as their type is deep. -/
theorem depth_le_length (type : AbiType) (depth : Nat) :
    type.depth ≤ (encoder depth type).text.toList.length ∧
      ∀ value, type.depth ≤ (encodeExpr value depth type).text.toList.length := by
  refine encoder_induction (F := fun type f ↦ type.depth ≤ f.text.toList.length)
    (E := fun type _ e ↦ type.depth ≤ e.text.toList.length)
    ?function ?arrow ?scalar ?array ?map type depth
  case function =>
    intro s
    simp [AbiType.depth]
  case arrow =>
    intro type depth body hbody
    rw [Encoder.text_arrow, String.toList_append, List.length_append]
    exact Nat.le_add_left_of_le hbody
  case scalar =>
    intro s value
    simp [AbiType.depth]
  case array =>
    intro element value f hf
    simp only [AbiType.depth, EncodeExpr.text_array, String.toList_append, List.length_append]
    have hname : "Encode.array(".toList.length = 13 := rfl
    omega
  case map =>
    intro key entry value f g hf hg
    simp only [AbiType.depth, EncodeExpr.text_map, String.toList_append, List.length_append]
    have hname : "Encode.map(".toList.length = 11 := rfl
    omega

/-- **The expression that encodes a value is read back** from its text. -/
theorem wholeEncodeExpr?_encode (type : AbiType) {value : String}
    (hvalue : isLegal value = true) :
    wholeEncodeExpr? (encode value type).text = some (encode value type) := by
  have hlength := (depth_le_length type 1).2 value
  have hread := (reads_of_type type 1).2 value _ hlength hvalue []
  rw [List.append_nil] at hread
  rw [wholeEncodeExpr?, encode, hread]

end ContractBindings.Encoding
