import ContractBindings.Json.Scalars

/-!
# Reading JSON texts

A JSON text is read by descent into its containers. The reader of values counts the containers
that may still be opened, so it is structural in that count; the readers of arrays and objects
take the reader of their contents as an argument and end because every value is shorter than the
text it was read from.
-/

namespace ContractBindings.Json

/-- Readers of one value. -/
abbrev ValueReader (α : Type) := (s : List Char) → Reading (Read α s)

/-! ### Arrays -/

/-- Reads the elements of an array from the first character of one on, and the closing bracket. -/
def readElements {α : Type} (element : ValueReader α) (s : List Char) :
    Reading (Read (List α) s) := do
  let first ← element s
  have := first.shorter
  match h : skipBlanks first.rest with
  | [] => stopAt .endInArray []
  | ']' :: _ => return first.after (.pastBlanks h [first.value])
  | ',' :: rest =>
    have := length_lt_of_skipBlanks_eq h
    have := length_skipBlanks_le rest
    match skipBlanks rest with
    | [] => stopAt .endInValue []
    | ']' :: more => stopAt .trailingComma (']' :: more) 1
    | _ =>
      let tail ← readElements element (skipBlanks rest)
      return (first.after ((tail.withBlanks rfl).behindBlanks h)).map (first.value :: ·)
  | c :: rest => stopAt .commaOrBracketExpected (c :: rest) 1
termination_by s.length

/-- Reads an array whose opening bracket has been passed. -/
def readArray {α : Type} (element : ValueReader α) (s : List Char) : Reading (Read (List α) s) :=
  match h : skipBlanks s with
  | [] => stopAt .endInArray []
  | ']' :: _ => .ok (.pastBlanks h [])
  | _ => return (← readElements element (skipBlanks s)).withBlanks rfl

/-! ### Objects -/

/-- Passes the colon behind a name. -/
def readColon (s : List Char) : Reading (Read Unit s) :=
  match h : skipBlanks s with
  | [] => stopAt .endInObject []
  | ':' :: _ => .ok (.pastBlanks h ())
  | c :: rest => stopAt .colonExpected (c :: rest) 1

/-- Reads one member whose opening quote has been passed. -/
def readMember {α : Type} (element : ValueReader α) (s : List Char) :
    Reading (Read (String × α) s) := do
  let name ← readString s
  let colon ← readColon name.rest
  let value ← element colon.rest
  return (name.after (colon.after value)).map fun value ↦ (name.value, value)

/-- Reads the members of an object from the first character of a name on, and the closing
brace. -/
def readMembers {α : Type} (element : ValueReader α) (s : List Char) :
    Reading (Read (List (String × α)) s) := do
  let first ← readMember element s
  have := first.shorter
  match h : skipBlanks first.rest with
  | [] => stopAt .endInObject []
  | '\x7d' :: _ => return first.after (.pastBlanks h [first.value])
  | ',' :: rest =>
    match h₁ : skipBlanks rest with
    | [] => stopAt .endInValue []
    | '"' :: more =>
      have := length_lt_of_skipBlanks_eq h
      have := length_lt_of_skipBlanks_eq h₁
      let tail ← readMembers element more
      return (first.after ((tail.behindBlanks h₁).behindBlanks h)).map (first.value :: ·)
    | '\x7d' :: more => stopAt .trailingComma ('\x7d' :: more) 1
    | c :: more => stopAt .keyExpected (c :: more) 1
  | c :: rest => stopAt .commaOrBraceExpected (c :: rest) 1
termination_by s.length

/-- Reads an object whose opening brace has been passed; its members in text order. -/
def readObject {α : Type} (element : ValueReader α) (s : List Char) :
    Reading (Read (List (String × α)) s) :=
  match h : skipBlanks s with
  | [] => stopAt .endInObject []
  | '\x7d' :: _ => .ok (.pastBlanks h [])
  | '"' :: rest =>
    return (← readMembers element rest).behindBlanks h
  | c :: rest => stopAt .keyExpected (c :: rest) 1

/-! ### Values -/

/-- How many containers may enclose a value. -/
def greatestDepth : Nat := 127

/-- Reads a value that is no container, `c` being its first character and `rest` what follows. -/
def readScalar (c : Char) (rest : List Char) : Reading (Read Json (c :: rest)) :=
  if c = 'n' then
    return (← readKeyword ['u', 'l', 'l'] c rest).map fun _ ↦ null
  else if c = 't' then
    return (← readKeyword ['r', 'u', 'e'] c rest).map fun _ ↦ bool true
  else if c = 'f' then
    return (← readKeyword ['a', 'l', 's', 'e'] c rest).map fun _ ↦ bool false
  else if c = '"' then return (← readString rest).underHead.map string
  else if c = '-' || c.isDigit then return (← readNumber (c :: rest)).map number
  else stopAt .valueExpected (c :: rest) 1

/-- Reads a value and the blanks before it; at most `levels` containers are opened. -/
def readValue : (levels : Nat) → ValueReader Json
  | 0, s =>
    match h : skipBlanks s with
    | [] => stopAt .endInValue []
    | c :: rest =>
      if c = '[' || c = '\x7b' then stopAt .tooDeep (c :: rest) 1
      else return (← readScalar c rest).withBlanks h
  | levels + 1, s =>
    match h : skipBlanks s with
    | [] => stopAt .endInValue []
    | '[' :: rest => return ((← readArray (readValue levels) rest).behindBlanks h).map array
    | '\x7b' :: rest => return ((← readObject (readValue levels) rest).behindBlanks h).map ofMembers
    | c :: rest => return (← readScalar c rest).withBlanks h

/-- Reads a whole text: a value with blanks around it. -/
def readText {α : Type} (value : ValueReader α) (s : List Char) : Reading α := do
  let r ← value s
  match skipBlanks r.rest with
  | [] => return r.value
  | c :: rest => stopAt .trailingCharacters (c :: rest) 1

/-- The value that a JSON text writes. -/
def parse (text : String) : Except TextError Json :=
  (readText (readValue greatestDepth) text.toList).mapError (Stop.locate text.toList)

end ContractBindings.Json
