import ContractBindings.Proofs.Encoding.Typing
import ContractBindings.Text.Hex
import Mathlib.Data.List.Basic

/-!
# Values of argument expressions

What an argument expression evaluates to when the functions of the prelude do what their bodies say.
Data are the values that client code hands over and the objects that the prelude makes of them; a
function takes one datum and may fail. Encoders are values only as arguments of functions, so
evaluation goes by recursion on expressions and bodies and needs no closures.

On a value of the shape of a type, the expression of the type gives the argument for that value
(`eval_of_type`): an object with the name of the type, at every level, and with the arguments for
what the value holds, in its order (`argumentOf`).
-/

namespace ContractBindings.Encoding

open Binding

/-! ### Data -/

/-- The values that expressions deal with. -/
inductive Datum where
  | number (value : Int)
  | boolean (value : Bool)
  | bytes (content : List UInt8)
  | text (value : String)
  | list (items : List Datum)
  /-- A map with its entries in the order in which they were made. -/
  | map (entries : List (Datum × Datum))
  | object (fields : List (String × Datum))
  /-- A value that nothing is done with, told apart by a number. -/
  | other (id : Nat)

/-- The values of a type. Nothing is known of a value of any type. -/
def HasShape : AbiType → Datum → Prop
  | .scalar .integer, .number _ => True
  | .scalar .boolean, .boolean _ => True
  | .scalar .byteArray, .bytes _ => True
  | .scalar .signature, .bytes _ => True
  | .scalar .string, .text _ => True
  | .scalar .hash160, .text _ => True
  | .scalar .hash256, .text _ => True
  | .scalar .publicKey, .text _ => True
  | .scalar .interopInterface, _ => True
  | .scalar .any, _ => True
  | .array element, .list items => ∀ item ∈ items, HasShape element item
  | .map key value, .map entries => ∀ e ∈ entries, HasShape key e.1 ∧ HasShape value e.2
  | _, _ => False

/-- The argument for a value of a type, which is tagged with the name of the type. -/
def argument (type : AbiType) (value : Datum) : Datum :=
  .object [("type", .text type.tag), ("value", value)]

/-- An entry of the argument for a map. -/
def entry (key value : Datum) : Datum :=
  .object [("key", key), ("value", value)]

/-- The digits of bytes as text. -/
def hexText (content : List UInt8) : Datum :=
  .text (String.ofList (Hex.encode content))

/-- What the argument for a value of a scalar holds: numbers in decimal and bytes in hexadecimal
digits, and all else as it is. -/
def payload : Scalar → Datum → Datum
  | .integer, .number n => .text (toString n)
  | .byteArray, .bytes content => hexText content
  | .signature, .bytes content => hexText content
  | _, value => value

/-- The argument for a value of a type, with the arguments for what the value holds in its order. -/
def argumentOf : AbiType → Datum → Datum
  | .scalar s, value => argument (.scalar s) (payload s value)
  | .array element, .list items =>
    argument (.array element) (.list (items.map (argumentOf element)))
  | .map key value, .map entries =>
    argument (.map key value)
      (.list (entries.map fun e ↦ entry (argumentOf key e.1) (argumentOf value e.2)))
  | type, value => argument type value

/-- The objects that the prelude declares arguments to be. -/
def IsContractArg : Datum → Prop
  | .object [("type", .text tag), ("value", _)] => tag ∈ argumentTags
  | _ => False

theorem isContractArg_argumentOf {type : AbiType} (h : type ≠ .scalar .void) (v : Datum) :
    IsContractArg (argumentOf type v) := by
  have hargument : ∃ w, argumentOf type v = argument type w := by
    cases type with
    | scalar s => exact ⟨_, rfl⟩
    | array element => cases v <;> exact ⟨_, rfl⟩
    | map key value => cases v <;> exact ⟨_, rfl⟩
  obtain ⟨w, hw⟩ := hargument
  rw [hw]
  exact tag_mem_argumentTags h

/-! ### Bodies -/

/-- What a name stands for in a body. -/
inductive Actual where
  | datum (value : Datum)
  | function (apply : Datum → Option Datum)

/-- The value of a variable. -/
def datum? (locals : List (String × Actual)) (name : String) : Option Datum :=
  match locals.lookup name with
  | some (.datum value) => some value
  | _ => none

/-- Applies the function that a variable stands for. -/
def called? (locals : List (String × Actual)) (name : String) (value : Datum) : Option Datum :=
  match locals.lookup name with
  | some (.function apply) => apply value
  | _ => none

/-- The value of an expression in a body. -/
def evalBody : Body → List (String × Actual) → Option Datum
  | .named name, locals => datum? locals name
  | .literal text, _ => some (.text text)
  | .object first firstValue second secondValue, locals => do
    let a ← evalBody firstValue locals
    let b ← evalBody secondValue locals
    return .object [(first, a), (second, b)]
  | .call function argument, locals => do
    called? locals function (← evalBody argument locals)
  | .decimal number, locals =>
    match datum? locals number with
    | some (.number n) => some (.text (toString n))
    | _ => none
  | .each list binder body, locals =>
    match datum? locals list with
    | some (.list items) =>
      (items.mapM fun item ↦ evalBody body ((binder, .datum item) :: locals)).map .list
    | _ => none
  | .entries map key value body, locals =>
    match datum? locals map with
    | some (.map entries) =>
      (entries.mapM fun e ↦
        evalBody body ((key, .datum e.1) :: (value, .datum e.2) :: locals)).map .list
    | _ => none

/-- The function `toHex` of the prelude. -/
def toHex : Datum → Option Datum
  | .bytes content => some (hexText content)
  | _ => none

/-- Applies a definition of the prelude. -/
def Definition.apply (d : Definition) (arguments : List Actual) : Option Datum :=
  if arguments.length = d.parameters.length then
    evalBody d.body (((d.parameters.map Prod.fst).zip arguments) ++ [("toHex", .function toHex)])
  else none

/-! ### Expressions -/

/-- Calls a function of the prelude, if that can be reached. -/
def call? (scope : Scope Datum) (name : String) (arguments : List Actual) : Option Datum :=
  match scope.lookup "Encode" with
  | some .prelude => (definition? name).bind fun d ↦ d.apply arguments
  | _ => none

/-- The value of a variable. -/
def value? (scope : Scope Datum) (name : String) : Option Datum :=
  match scope.lookup name with
  | some (.value v) => some v
  | _ => none

mutual

/-- Applies an encoder to a value. -/
def applyEncoder (scope : Scope Datum) : Encoder → Datum → Option Datum
  | .function name, v => call? scope name [.datum v]
  | .arrow binder body, v => eval ((binder, .value v) :: scope) body

/-- The value of an expression for an argument. -/
def eval (scope : Scope Datum) : EncodeExpr → Option Datum
  | .scalar name value => do
    call? scope name [.datum (← value? scope value)]
  | .array value element => do
    call? scope "array" [.datum (← value? scope value), .function (applyEncoder scope element)]
  | .map value key entry => do
    call? scope "map"
      [.datum (← value? scope value), .function (applyEncoder scope key),
        .function (applyEncoder scope entry)]

end

/-! ### Values -/

variable {locals : List (String × Actual)} {scope : Scope Datum} {name : String}

theorem value?_eq_some_iff {v : Datum} : value? scope name = some v ↔ scope.Holds name v := by
  rw [value?, Scope.Holds]
  split
  case h_1 w h => rw [h]; simp
  case h_2 h =>
    constructor
    · rintro ⟨⟩
    · exact fun hv ↦ absurd hv (h v)

theorem call?_eq {d : Definition} (hscope : scope.HasPrelude) (hd : definition? name = some d)
    (arguments : List Actual) : call? scope name arguments = d.apply arguments := by
  rw [call?, hscope, hd]
  rfl

/-- A function goes through a list if it gives a value for each item. -/
theorem mapM_eq_some {α β : Type} {f : α → Option β} {g : α → β} {l : List α}
    (h : ∀ a ∈ l, f a = some (g a)) : l.mapM f = some (l.map g) := by
  induction l with
  | nil => rfl
  | cons a l ih =>
    rw [List.mapM_cons, h a List.mem_cons_self, ih fun b hb ↦ h b (List.mem_cons_of_mem _ hb)]
    rfl

/-- The function for a scalar makes its argument. -/
theorem apply_scalarDefinition {s : Scalar} {v : Datum} (h : HasShape (.scalar s) v) :
    (scalarDefinition s).apply [.datum v] = some (argumentOf (.scalar s) v) := by
  cases s <;> cases v <;> first | rfl | exact absurd h id

/-- The function for lists makes the argument for a list, if it is given one that makes those for
the items. -/
theorem apply_arrayDefinition {element : AbiType} {items : List Datum} {f : Datum → Option Datum}
    (hf : ∀ item ∈ items, f item = some (argumentOf element item)) :
    arrayDefinition.apply [.datum (.list items), .function f] =
      some (argumentOf (.array element) (.list items)) := by
  have hitems : (items.mapM fun item ↦ f item) = some (items.map (argumentOf element)) :=
    mapM_eq_some hf
  show (do
    let a ← some (Datum.text "Array")
    let b ← (items.mapM fun item ↦ f item).map Datum.list
    return Datum.object [("type", a), ("value", b)]) = _
  rw [hitems]
  rfl

/-- The function for maps makes the argument for a map, if it is given functions that make those for
the keys and values. -/
theorem apply_mapDefinition {key value : AbiType} {entries : List (Datum × Datum)}
    {f g : Datum → Option Datum}
    (hfg : ∀ e ∈ entries, f e.1 = some (argumentOf key e.1) ∧
      g e.2 = some (argumentOf value e.2)) :
    mapDefinition.apply [.datum (.map entries), .function f, .function g] =
      some (argumentOf (.map key value) (.map entries)) := by
  have hentries : (entries.mapM fun e ↦ do
      let a ← f e.1
      let b ← g e.2
      return entry a b) =
        some (entries.map fun e ↦ entry (argumentOf key e.1) (argumentOf value e.2)) := by
    refine mapM_eq_some fun e he ↦ ?_
    rw [(hfg e he).1, (hfg e he).2]
    rfl
  show (do
    let a ← some (Datum.text "Map")
    let b ← (entries.mapM fun e : Datum × Datum ↦ do
      let a ← f e.1
      let b ← g e.2
      return entry a b).map Datum.list
    return Datum.object [("type", a), ("value", b)]) = _
  rw [hentries]
  rfl

theorem ne_void_of_hasShape {s : Scalar} {v : Datum} (h : HasShape (.scalar s) v) : s ≠ .void := by
  rintro rfl
  cases v <;> exact h

/-- **What encodes a value evaluates to the argument for it**, on any value of the shape of the
type. -/
theorem eval_of_type (type : AbiType) (depth : Nat) :
    (∀ scope : Scope Datum, scope.HasPrelude → ∀ v, HasShape type v →
      applyEncoder scope (encoder depth type) v = some (argumentOf type v)) ∧
    ∀ value, ∀ scope : Scope Datum, scope.HasPrelude → ∀ v, HasShape type v →
      scope.Holds value v →
        eval scope (encodeExpr value depth type) = some (argumentOf type v) := by
  refine encoder_induction
    (F := fun type f ↦ ∀ scope : Scope Datum, scope.HasPrelude → ∀ v, HasShape type v →
      applyEncoder scope f v = some (argumentOf type v))
    (E := fun type value e ↦ ∀ scope : Scope Datum, scope.HasPrelude → ∀ v, HasShape type v →
      scope.Holds value v → eval scope e = some (argumentOf type v))
    ?function ?arrow ?scalar ?array ?map type depth
  case function =>
    intro s scope hscope v hv
    rw [applyEncoder, call?_eq hscope (definition?_scalar (ne_void_of_hasShape hv)),
      apply_scalarDefinition hv]
  case arrow =>
    intro type depth body hbody scope hscope v hv
    exact hbody _ (hscope.cons (arrowVariable_ne_encode depth) v) v hv (Scope.holds_cons ..)
  case scalar =>
    intro s value scope hscope v hv hvalue
    rw [eval, value?_eq_some_iff.2 hvalue]
    show call? scope (scalarEncoder s) [.datum v] = _
    rw [call?_eq hscope (definition?_scalar (ne_void_of_hasShape hv)), apply_scalarDefinition hv]
  case array =>
    intro element value f hf scope hscope v hv hvalue
    cases v with
    | list items =>
      rw [eval, value?_eq_some_iff.2 hvalue]
      show call? scope "array" [.datum (.list items), .function (applyEncoder scope f)] = _
      rw [call?_eq hscope definition?_array]
      exact apply_arrayDefinition fun item hitem ↦ hf scope hscope item (hv item hitem)
    | number | boolean | bytes | text | map | object | other => exact absurd hv id
  case map =>
    intro key entry value f g hf hg scope hscope v hv hvalue
    cases v with
    | map entries =>
      rw [eval, value?_eq_some_iff.2 hvalue]
      show call? scope "map"
        [.datum (.map entries), .function (applyEncoder scope f),
          .function (applyEncoder scope g)] = _
      rw [call?_eq hscope definition?_map]
      exact apply_mapDefinition fun e he ↦
        ⟨hf scope hscope e.1 (hv e he).1, hg scope hscope e.2 (hv e he).2⟩
    | number | boolean | bytes | text | list | object | other => exact absurd hv id

end ContractBindings.Encoding
