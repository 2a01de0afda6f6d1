import ContractBindings.Members

/-!
# JSON values

A number is an integer if it fits 64 bits with or without a sign, and otherwise a binary64
number, kept as its bits. The members of an object are in ascending order of their names, each
name once; `Json.ofMembers` brings members in text order into this form, the last of equal names
winning.
-/

namespace ContractBindings

/-- Numbers of JSON texts. -/
inductive Json.Number where
  | integer (value : Int)
  | float (bits : UInt64)
  deriving DecidableEq, Repr

/-- JSON values. -/
inductive Json where
  | null
  | bool (value : Bool)
  | number (value : Json.Number)
  | string (value : String)
  | array (elements : List Json)
  | object (members : List (String × Json))
  deriving BEq, Repr

namespace Json

/-- The object with the given members, the last of equal names winning. -/
def ofMembers (members : List (String × Json)) : Json :=
  object (Members.ofList members)

end Json

end ContractBindings
