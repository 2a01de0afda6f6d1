/-!
# Types of the contract interface

The types that parameters and results of contract methods can have: eleven scalars, arrays and
maps. The scalars are a type of their own, so that what holds of a name table is decided by
cases on them. The written form of a type is canonical: each type has one.
-/

namespace ContractBindings

/-- Types without type arguments. -/
inductive Scalar where
  | integer
  | boolean
  | byteArray
  | string
  | hash160
  | hash256
  | publicKey
  | signature
  | interopInterface
  | void
  | any
  deriving DecidableEq, Repr

namespace Scalar

/-- Every scalar. -/
def all : List Scalar :=
  [integer, boolean, byteArray, string, hash160, hash256, publicKey, signature,
    interopInterface, void, any]

/-- The canonical name of a scalar. -/
def name : Scalar → String
  | integer => "Integer"
  | boolean => "Boolean"
  | byteArray => "ByteArray"
  | string => "String"
  | hash160 => "Hash160"
  | hash256 => "Hash256"
  | publicKey => "PublicKey"
  | signature => "Signature"
  | interopInterface => "InteropInterface"
  | void => "Void"
  | any => "Any"

/-- The scalars that are compared by value, and so may be keys of a map. -/
def isPrimitive : Scalar → Bool
  | interopInterface | void | any => false
  | _ => true

/-- The list of scalars is complete. -/
theorem mem_all (s : Scalar) : s ∈ all := by
  cases s <;> decide

end Scalar

/-- Types of parameters and results. -/
inductive AbiType where
  | scalar (type : Scalar)
  | array (element : AbiType)
  | map (key value : AbiType)
  deriving DecidableEq, Repr

namespace AbiType

/-- The most levels that a type may have. -/
def maxDepth : Nat := 32

/-- The name of the outermost level. -/
def tag : AbiType → String
  | scalar s => s.name
  | array _ => "Array"
  | map _ _ => "Map"

/-- The number of levels of a type; a scalar has one. -/
def depth : AbiType → Nat
  | scalar _ => 1
  | array element => 1 + element.depth
  | map key value => 1 + max key.depth value.depth

/-- Primitive types are the primitive scalars. -/
def isPrimitive : AbiType → Bool
  | scalar s => s.isPrimitive
  | _ => false

/-- The canonical written form of a type. -/
def text : AbiType → String
  | scalar s => s.name
  | array element => "Array<" ++ element.text ++ ">"
  | map key value => "Map<" ++ key.text ++ "," ++ value.text ++ ">"

end AbiType

end ContractBindings
