import ContractBindings.AbiType

/-!
# Encoding arguments

The argument of a call is encoded by an expression over the functions of the prelude: a scalar by
the function for it, a container by the function that takes encoders for its contents. An encoder
is such a function or an arrow, whose variable is numbered by how deep it stands, so that arrows
inside each other never share one.
-/

namespace ContractBindings.Binding

mutual

/-- Functions from values to arguments. -/
inductive Encoder where
  /-- A function of the prelude. -/
  | function (name : String)
  /-- The arrow from a variable to an expression. -/
  | arrow (binder : String) (body : EncodeExpr)

/-- Expressions for arguments. -/
inductive EncodeExpr where
  /-- A function of the prelude applied to a value. -/
  | scalar (name : String) (value : String)
  /-- A list, with the encoder of its elements. -/
  | array (value : String) (element : Encoder)
  /-- A map, with the encoders of its keys and values. -/
  | map (value : String) (key entry : Encoder)

end

mutual

/-- The written form of an encoder. -/
def Encoder.text : Encoder → String
  | .function name => "Encode." ++ name
  | .arrow binder body => "(" ++ binder ++ ") => " ++ body.text

/-- The written form of an expression for an argument. -/
def EncodeExpr.text : EncodeExpr → String
  | .scalar name value => "Encode." ++ name ++ "(" ++ value ++ ")"
  | .array value element => "Encode.array(" ++ value ++ ", " ++ element.text ++ ")"
  | .map value key entry =>
    "Encode.map(" ++ value ++ ", " ++ key.text ++ ", " ++ entry.text ++ ")"

end

@[simp]
theorem Encoder.text_function (name : String) :
    (Encoder.function name).text = "Encode." ++ name :=
  rfl

@[simp]
theorem Encoder.text_arrow (binder : String) (body : EncodeExpr) :
    (Encoder.arrow binder body).text = "(" ++ binder ++ ") => " ++ body.text :=
  rfl

@[simp]
theorem EncodeExpr.text_scalar (name value : String) :
    (EncodeExpr.scalar name value).text = "Encode." ++ name ++ "(" ++ value ++ ")" :=
  rfl

@[simp]
theorem EncodeExpr.text_array (value : String) (element : Encoder) :
    (EncodeExpr.array value element).text =
      "Encode.array(" ++ value ++ ", " ++ element.text ++ ")" :=
  rfl

@[simp]
theorem EncodeExpr.text_map (value : String) (key entry : Encoder) :
    (EncodeExpr.map value key entry).text =
      "Encode.map(" ++ value ++ ", " ++ key.text ++ ", " ++ entry.text ++ ")" :=
  rfl

/-- The function of the prelude that encodes a scalar. -/
def scalarEncoder : Scalar → String
  | .integer => "integer"
  | .boolean => "boolean"
  | .byteArray => "byteArray"
  | .signature => "signature"
  | .string => "string"
  | .hash160 => "hash160"
  | .hash256 => "hash256"
  | .publicKey => "publicKey"
  | .interopInterface => "interop"
  | .any | .void => "any"

/-- The variable of an arrow that stands `depth` deep. -/
def arrowVariable (depth : Nat) : String :=
  "v" ++ toString depth

/-- The encoder of the values of a type that stands `depth` deep. -/
def encoder (depth : Nat) : AbiType → Encoder
  | .scalar s => .function (scalarEncoder s)
  | .array element =>
    .arrow (arrowVariable depth)
      (.array (arrowVariable depth) (encoder (depth + 1) element))
  | .map key value =>
    .arrow (arrowVariable depth)
      (.map (arrowVariable depth) (encoder (depth + 1) key) (encoder (depth + 1) value))

/-- The expression that encodes `value`, whose arrows stand `depth` deep or deeper. -/
def encodeExpr (value : String) (depth : Nat) : AbiType → EncodeExpr
  | .scalar s => .scalar (scalarEncoder s) value
  | .array element => .array value (encoder depth element)
  | .map key entry => .map value (encoder depth key) (encoder depth entry)

/-- The expression that encodes a value. -/
def encode (value : String) (type : AbiType) : EncodeExpr :=
  encodeExpr value 1 type

/-- Induction on what a type is encoded by: `F` holds of its encoders and `E` of its expressions, if
an arrow may stand wherever the expression for its own variable may. -/
theorem encoder_induction {F : AbiType → Encoder → Prop} {E : AbiType → String → EncodeExpr → Prop}
    (function : ∀ s, F (.scalar s) (.function (scalarEncoder s)))
    (arrow : ∀ type depth body, E type (arrowVariable depth) body →
      F type (.arrow (arrowVariable depth) body))
    (scalar : ∀ s value, E (.scalar s) value (.scalar (scalarEncoder s) value))
    (array : ∀ element value f, F element f → E (.array element) value (.array value f))
    (map : ∀ key entry value f g, F key f → F entry g →
      E (.map key entry) value (.map value f g))
    (type : AbiType) (depth : Nat) :
    F type (encoder depth type) ∧ ∀ value, E type value (encodeExpr value depth type) := by
  induction type generalizing depth with
  | scalar s => exact ⟨function s, scalar s⟩
  | array element ih =>
    have hexpr : ∀ depth value,
        E (.array element) value (encodeExpr value depth (.array element)) :=
      fun depth value ↦ array element value _ (ih depth).1
    exact ⟨arrow _ depth _ (hexpr (depth + 1) _), hexpr depth⟩
  | map key entry ihk ihe =>
    have hexpr : ∀ depth value,
        E (.map key entry) value (encodeExpr value depth (.map key entry)) :=
      fun depth value ↦ map key entry value _ _ (ihk depth).1 (ihe depth).1
    exact ⟨arrow _ depth _ (hexpr (depth + 1) _), hexpr depth⟩

end ContractBindings.Binding
