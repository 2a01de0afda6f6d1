import ContractBindings.Json.Shape
import ContractBindings.ScriptHash

/-!
# Script hashes as JSON values

The value of a hash is the string of its written form. It is read from every string that is read as
a hash, so a value need not be written as hashes are.
-/

namespace ContractBindings

/-- Why a JSON value is no script hash. -/
inductive HashValueError where
  /-- The value is no string. -/
  | shape (fault : Json.ShapeFault)
  /-- The string is no script hash. -/
  | spelling (error : ScriptHashError)
  deriving DecidableEq, Repr

/-- The wording of why a JSON value is no script hash. -/
def HashValueError.message : HashValueError → String
  | shape fault => fault.message
  | spelling error => error.message

namespace ScriptHash

/-- The JSON value of a hash. -/
def toJson (hash : ScriptHash) : Json :=
  .string hash.text

/-- The hash that a JSON value stands for. -/
def ofJson (value : Json) : Except HashValueError ScriptHash := do
  let text ← (Json.Shape.string value).mapError .shape
  (parse text).mapError .spelling

end ScriptHash

end ContractBindings
