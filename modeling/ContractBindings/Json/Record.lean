import ContractBindings.Json.Reader
import ContractBindings.Json.Shape
import ContractBindings.Json.Skip

/-!
# Reading records from JSON texts

A record of known fields can be read from a text without building the values around it. Its
fields are then met in text order, values of unknown fields are passed over, and a field that
occurs twice is a fault. Faults of the shape have a place, like faults of the text: a missing
field is seen behind the end of its record, a value of the wrong kind behind the value, or in
front of it if it is a container.
-/

namespace ContractBindings.Json

/-- Why a record cannot be read from a text. -/
inductive RecordFault where
  | text (fault : Fault)
  | shape (fault : ShapeFault)
  deriving DecidableEq, Repr

/-- The wording of a fault. -/
def RecordFault.message : RecordFault → String
  | text fault => fault.message
  | shape fault => fault.message

/-- A fault of a record and its place. -/
abbrev RecordError := Located RecordFault

/-- Readers that see faults of the shape. -/
abbrev RecordReading (α : Type) := Except (Stop RecordFault) α

/-- Readers of one value of a shape. -/
abbrev FieldReader (α : Type) := (s : List Char) → RecordReading (Read α s)

/-- Stops with a fault of the shape at `rest`. -/
def misshapen {α : Type} (fault : ShapeFault) (rest : List Char) : RecordReading α :=
  .error ⟨.shape fault, rest, 0⟩

/-- A reader that sees faults of the text alone. -/
def plainly {α : Type} (r : Reading α) : RecordReading α :=
  r.mapError fun stop ↦ ⟨.text stop.fault, stop.rest, stop.passed⟩

/-! ### Fields -/

/-- Stops at a value of the wrong kind. Scalars are read before they are refused. -/
def refuseValue {α : Type} (wanted : String) (s : List Char) : RecordReading (Read α s) :=
  match skipBlanks s with
  | [] => plainly (stopAt .endInValue [])
  | '[' :: rest => misshapen (.wrongType .array wanted) ('[' :: rest)
  | '\x7b' :: rest => misshapen (.wrongType .object wanted) ('\x7b' :: rest)
  | c :: rest => do
    let value ← plainly (readScalar c rest)
    misshapen (.wrongType value.value.found wanted) value.rest

namespace FieldReader

/-- A string. -/
def string : FieldReader String := fun s ↦
  match h : skipBlanks s with
  | '"' :: rest =>
    return (← plainly (readString rest)).behindBlanks h
  | _ => refuseValue "a string" s

/-- An integer of 64 bits. -/
def integer64 : FieldReader Int := fun s ↦
  match h : skipBlanks s with
  | [] => plainly (stopAt .endInValue [])
  | c :: rest =>
    if c = '-' || c.isDigit then do
      let number ← plainly (readNumber (c :: rest))
      match number.value with
      | .integer value =>
        if value < (Word.count63 : Int) then
          return (number.withBlanks h).map fun _ ↦ value
        else misshapen (.wrongInteger value "i64") number.rest
      | .float bits => misshapen (.wrongType (.float bits) "i64") number.rest
    else refuseValue "i64" s

/-- Any value, with at most `levels` containers open in it. -/
def any (levels : Nat) : FieldReader Json := fun s ↦ plainly (readValue levels s)

/-- A value or null. -/
def optional {α : Type} (field : FieldReader α) : FieldReader (Option α) := fun s ↦
  match h : skipBlanks s with
  | 'n' :: rest =>
    return ((← plainly (readKeyword ['u', 'l', 'l'] 'n' rest)).withBlanks h).map fun _ ↦ none
  | _ => return (← field s).map some

end FieldReader

/-! ### Records -/

/-- How a record is put together. -/
structure RecordShape (α β : Type) where
  /-- What messages call the record. -/
  wanted : String
  /-- The fields in declared order, each with the reader of its values. -/
  fields : List (String × FieldReader α)
  /-- The record with the given fields. -/
  assemble : List (String × α) → Except ShapeFault β

namespace RecordShape

variable {α β : Type}

/-- What messages call the record in place of an array of its fields. -/
def wantedLength (shape : RecordShape α β) : String :=
  let count := shape.fields.length
  shape.wanted ++ s!" with {count} element" ++ if count = 1 then "" else "s"

/-- Where the end of an object is looked for after its reading has failed. -/
def pastEnd (closing : Char) (s : List Char) : List Char :=
  match skipBlanks s with
  | [] => []
  | c :: rest => if c = closing then rest else c :: rest

/-- Reads one member from the opening quote of its name on; unknown ones come to nothing. -/
def readField (shape : RecordShape α β) (seen : List (String × α)) (s : List Char) :
    RecordReading (Read (List (String × α)) s) := do
  let name ← plainly (readString s)
  if seen.any (·.1 == name.value) then
    misshapen (.duplicateField name.value) (pastEnd '\x7d' name.rest)
  else
    let colon ← plainly (readColon name.rest)
    match shape.fields.lookup name.value with
    | some field =>
      let value ← field colon.rest
      return (name.after (colon.after value)).map fun value ↦ seen ++ [(name.value, value)]
    | none =>
      let skipped ← plainly (skipValue colon.rest)
      return (name.after (colon.after skipped)).map fun _ ↦ seen

/-- Reads members from the opening quote of a name on, and the closing brace. -/
def readFields (shape : RecordShape α β) (seen : List (String × α)) (s : List Char) :
    RecordReading (Read (List (String × α)) s) := do
  let first ← shape.readField seen s
  have := first.shorter
  match h : skipBlanks first.rest with
  | [] => plainly (stopAt .endInObject [])
  | '\x7d' :: _ => return first.after (.pastBlanks h first.value)
  | ',' :: rest =>
    match h₁ : skipBlanks rest with
    | [] => plainly (stopAt .endInValue [])
    | '"' :: more =>
      have := length_lt_of_skipBlanks_eq h
      have := length_lt_of_skipBlanks_eq h₁
      let tail ← shape.readFields first.value more
      return first.after ((tail.behindBlanks h₁).behindBlanks h)
    | '\x7d' :: more => plainly (stopAt .trailingComma ('\x7d' :: more) 1)
    | c :: more => plainly (stopAt .keyExpected (c :: more) 1)
  | c :: rest => plainly (stopAt .commaOrBraceExpected (c :: rest) 1)
termination_by s.length

/-- Passes what stands in front of the field at `index` of an array. -/
def readSeparator (shape : RecordShape α β) (index : Nat) (s : List Char) :
    RecordReading (Rest s) :=
  match h : skipBlanks s with
  | [] => plainly (stopAt .endInArray [])
  | ']' :: rest => misshapen (.wrongLength index shape.wantedLength) rest
  | c :: rest =>
    if index = 0 then .ok (.all s)
    else if c = ',' then
      match skipBlanks rest with
      | [] => plainly (stopAt .endInValue [])
      | ']' :: more => plainly (stopAt .trailingComma (']' :: more) 1)
      | _ => .ok (Read.pastBlanks h ()).left
    else plainly (stopAt .commaOrBracketExpected (c :: rest) 1)

/-- Reads the fields of an array, `index` of them having been read. -/
def readInOrder (shape : RecordShape α β) (index : Nat) (seen : List (String × α)) :
    List (String × FieldReader α) → (s : List Char) →
      RecordReading (List (String × α) × Rest s)
  | [], s => .ok (seen, .all s)
  | (name, field) :: fields, s => do
    let left ← shape.readSeparator index s
    let value ← field left.rest
    let (seen, after) ←
      shape.readInOrder (index + 1) (seen ++ [(name, value.value)]) fields value.rest
    return (seen, ((value.upTo after).within left).left)

/-- Passes the end of an array whose fields have all been read. -/
def readArrayEnd (s : List Char) : RecordReading (Read Unit s) :=
  match h : skipBlanks s with
  | [] => plainly (stopAt .endInArray [])
  | ']' :: _ => .ok (.pastBlanks h ())
  | ',' :: rest =>
    match skipBlanks rest with
    | ']' :: more => plainly (stopAt .trailingComma (']' :: more) 1)
    | more => plainly (stopAt .trailingCharacters more 1)
  | c :: rest => plainly (stopAt .trailingCharacters (c :: rest) 1)

/-- Puts the record together; what is missing is seen at `rest`. -/
def finish (shape : RecordShape α β) (fields : List (String × α)) (rest : List Char) :
    RecordReading β :=
  match shape.assemble fields with
  | .ok value => .ok value
  | .error fault => misshapen fault rest

/-- Reads a record, from an object or from an array of its fields. -/
def read (shape : RecordShape α β) : FieldReader β := fun s ↦ do
  match h : skipBlanks s with
  | '\x7b' :: rest =>
    match h₁ : skipBlanks rest with
    | [] => plainly (stopAt .endInObject [])
    | '\x7d' :: more =>
      let value ← shape.finish [] more
      return (Read.pastBlanks h₁ value).behindBlanks h
    | '"' :: more =>
      let r ← shape.readFields [] more
      let value ← shape.finish r.value r.rest
      return ((r.behindBlanks h₁).behindBlanks h).map fun _ ↦ value
    | c :: more => plainly (stopAt .keyExpected (c :: more) 1)
  | '[' :: rest =>
    let (fields, left) ← shape.readInOrder 0 [] shape.fields rest
    let ending ← readArrayEnd left.rest
    let value ← shape.finish fields ending.rest
    return ((ending.within left).behindBlanks h).map fun _ ↦ value
  | _ => refuseValue shape.wanted s

end RecordShape

/-- Reads a whole text: a record with blanks around it. -/
def parseRecord {α β : Type} (shape : RecordShape α β) (text : String) : Except RecordError β :=
  let read : RecordReading β := do
    let r ← shape.read text.toList
    match skipBlanks r.rest with
    | [] => return r.value
    | c :: rest => plainly (stopAt .trailingCharacters (c :: rest) 1)
  read.mapError (Stop.locate text.toList)

end ContractBindings.Json
