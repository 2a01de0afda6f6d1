import ContractBindings.Error

/-!
# Types and decoders

Each type of a contract has an expression for the values that client code handles and a decoder
that tells the invoker how to read a result. Both are made by recursion on the type and written
by a function of their own; which types have them at all is a separate question, answered by
`mapType`.
-/

namespace ContractBindings.Binding

/-- Type expressions of the emitted modules. -/
inductive TypeExpr where
  | named (name : String)
  | list (element : TypeExpr)
  | map (key value : TypeExpr)
  deriving DecidableEq, Repr

/-- The written form of a type expression. -/
def TypeExpr.text : TypeExpr → String
  | named name => name
  | list element => element.text ++ "[]"
  | map key value => "Map<" ++ key.text ++ ", " ++ value.text ++ ">"

/-- How a result is read. -/
inductive Decoder where
  /-- There is no result. -/
  | none
  | scalar (type : Scalar)
  | array (element : Decoder)
  | map (key value : Decoder)
  deriving DecidableEq, Repr

/-- The written form of a decoder. -/
def Decoder.text : Decoder → String
  | none => "null"
  | scalar s => "\"" ++ s.name ++ "\""
  | array element => "\x7b array: " ++ element.text ++ " \x7d"
  | map key value => "\x7b map: [" ++ key.text ++ ", " ++ value.text ++ "] \x7d"

/-- The name of the values of a scalar. -/
def scalarTypeName : Scalar → String
  | .integer => "bigint"
  | .boolean => "boolean"
  | .byteArray | .signature => "Uint8Array"
  | .string => "string"
  | .hash160 => "Hash160"
  | .hash256 => "Hash256"
  | .publicKey => "PublicKey"
  | .interopInterface | .any => "unknown"
  | .void => "void"

/-- The expression for the values of a type. -/
def typeExpr : AbiType → TypeExpr
  | .scalar s => .named (scalarTypeName s)
  | .array element => .list (typeExpr element)
  | .map key value => .map (typeExpr key) (typeExpr value)

/-- The decoder for results of a type. -/
def decoder : AbiType → Decoder
  | .scalar .void => .none
  | .scalar s => .scalar s
  | .array element => .array (decoder element)
  | .map key value => .map (decoder key) (decoder value)

/-- Whether a type may be the key of a map. -/
def isKey (type : AbiType) : Bool :=
  type.isPrimitive || type == .scalar .any

/-- The first reason, from left to right, why a type may not stand inside a container. -/
def unsupported? : AbiType → Option Unsupported
  | .scalar .void => some .voidInContainer
  | .scalar _ => none
  | .array element => unsupported? element
  | .map key value =>
    if isKey key then (unsupported? key).or (unsupported? value)
    else some (.keyNotPrimitive key)

/-- The first reason why a type may not be that of a result. -/
def unsupportedResult? : AbiType → Option Unsupported
  | .scalar _ => none
  | type => unsupported? type

/-- The counterpart of a type in the emitted modules. -/
structure MappedType where
  typeExpr : TypeExpr
  decoder : Decoder
  deriving DecidableEq, Repr

/-- Why a type has no counterpart. -/
inductive TypeMapError where
  | tooDeep (type : AbiType)
  | unsupported (type : AbiType) (reason : Unsupported)
  deriving DecidableEq

namespace TypeMapError

/-- The wording of why a type has no counterpart. -/
def message : TypeMapError → String
  | tooDeep type => "type '" ++ type.text ++ s!"' nests deeper than {AbiType.maxDepth} levels"
  | unsupported type reason => "unsupported type '" ++ type.text ++ "': " ++ reason.message

/-- The error of a generation that meets such a type at a place. -/
def located (place : TypePlace) : TypeMapError → GenerationError
  | tooDeep type => .malformedType place type.text .tooDeep
  | unsupported type reason => .unsupportedType place type.text reason

end TypeMapError

/-- The counterpart of a type. Types that were not read from a descriptor may have too many
levels. -/
def mapType (type : AbiType) : Except TypeMapError MappedType :=
  if AbiType.maxDepth < type.depth then .error (.tooDeep type)
  else match unsupportedResult? type with
    | some reason => .error (.unsupported type reason)
    | none => .ok ⟨typeExpr type, decoder type⟩

end ContractBindings.Binding
