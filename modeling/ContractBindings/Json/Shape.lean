import ContractBindings.Decimal.Layout
import ContractBindings.Json.Value
import ContractBindings.Text.Quoted
import ContractBindings.Word

/-!
# Values of an expected shape

A record of known fields is read from an object, whose other members are ignored, or from an
array of its fields in declared order. Fields of an object are looked at in the order of their
names, which is the order of the members; that a field is missing shows only after that.
-/

namespace ContractBindings.Json

/-- What a value is, as messages show it. -/
inductive Found where
  | null
  | bool (value : Bool)
  | integer (value : Int)
  | float (bits : UInt64)
  | string (value : String)
  | array
  | object
  deriving DecidableEq, Repr

/-- The wording of what a value is. -/
def Found.text : Found → String
  | null => "null"
  | bool value => "boolean `" ++ toString value ++ "`"
  | integer value => "integer `" ++ toString value ++ "`"
  | float bits => "floating point `" ++ Decimal.Layout.json.writeBits bits ++ "`"
  | string value => "string " ++ Text.quoted value
  | array => "sequence"
  | object => "map"

/-- What a value is. -/
def found : Json → Found
  | null => .null
  | bool value => .bool value
  | number (.integer value) => .integer value
  | number (.float bits) => .float bits
  | string value => .string value
  | array _ => .array
  | object _ => .object

/-- Why a value has not the shape that is wanted. -/
inductive ShapeFault where
  | missingField (name : String)
  | duplicateField (name : String)
  /-- A value of another kind than the wanted one. -/
  | wrongType (found : Found) (wanted : String)
  /-- An integer outside the wanted range. -/
  | wrongInteger (value : Int) (wanted : String)
  /-- An array with too few or too many elements. -/
  | wrongLength (length : Nat) (wanted : String)
  deriving DecidableEq, Repr

/-- The wording of a shape fault. -/
def ShapeFault.message : ShapeFault → String
  | missingField name => "missing field `" ++ name ++ "`"
  | duplicateField name => "duplicate field `" ++ name ++ "`"
  | wrongType found wanted => "invalid type: " ++ found.text ++ ", expected " ++ wanted
  | wrongInteger value wanted =>
    "invalid value: integer `" ++ toString value ++ "`, expected " ++ wanted
  | wrongLength length wanted => "invalid length " ++ toString length ++ ", expected " ++ wanted

/-- Readers of values of a shape. -/
abbrev Shape (α : Type) := Json → Except ShapeFault α

namespace Shape

/-- A value that is not of the wanted kind. -/
def refuse {α : Type} (wanted : String) (value : Json) : Except ShapeFault α :=
  .error (.wrongType value.found wanted)

/-- Any value. -/
def any : Shape Json := .ok

/-- A string. -/
def string : Shape String
  | .string value => .ok value
  | value => refuse "a string" value

/-- A truth value. -/
def bool : Shape Bool
  | .bool value => .ok value
  | value => refuse "a boolean" value

/-- An integer of 32 bits without sign. -/
def natural32 : Shape UInt32
  | .number (.integer value) =>
    if 0 ≤ value ∧ value.toNat < Word.count32 then .ok (UInt32.ofNat value.toNat)
    else .error (.wrongInteger value "u32")
  | value => refuse "u32" value

/-- An array of values of one shape. -/
def list {α : Type} (element : Shape α) : Shape (List α)
  | .array elements => elements.mapM element
  | value => refuse "a sequence" value

/-- A value or null. -/
def optional {α : Type} (shape : Shape α) : Shape (Option α)
  | .null => .ok none
  | value => some <$> shape value

/-! ### Fields of records -/

/-- The field `name` of an object, if it is there. -/
def field? {α : Type} (members : List (String × Json)) (name : String) (shape : Shape α) :
    Except ShapeFault (Option α) :=
  match Members.get? name members with
  | none => .ok none
  | some value => some <$> shape value

/-- A field that has to be there. -/
def required {α : Type} (name : String) : Option α → Except ShapeFault α
  | some value => .ok value
  | none => .error (.missingField name)

/-- The field at `index` of an array, if it is there. -/
def element? {α : Type} (elements : List Json) (index : Nat) (shape : Shape α) :
    Except ShapeFault (Option α) :=
  match elements[index]? with
  | none => .ok none
  | some value => some <$> shape value

/-- The field at `index` of an array that has to be there; `wanted` describes the record. -/
def element {α : Type} (elements : List Json) (index : Nat) (wanted : String) (shape : Shape α) :
    Except ShapeFault α := do
  match ← element? elements index shape with
  | some value => return value
  | none => throw (.wrongLength index wanted)

/-- Refuses elements behind the `count` fields of a record. -/
def noMore (elements : List Json) (count : Nat) : Except ShapeFault Unit :=
  if count < elements.length then
    .error (.wrongLength elements.length "fewer elements in array")
  else .ok ()

end Shape

end ContractBindings.Json
