import ContractBindings.Text.Bytes

/-!
# Faults of JSON texts

Why a text is no JSON text, and where. Readers report a fault together with the characters from
which it is seen and the number of bytes that were passed beyond their start; lines and columns
are computed from these once, for the whole text.
-/

namespace ContractBindings.Json

/-- Why a text is no JSON text. -/
inductive Fault where
  | endInArray
  | endInObject
  | endInString
  | endInValue
  | colonExpected
  | commaOrBracketExpected
  | commaOrBraceExpected
  | wordExpected
  | valueExpected
  | invalidEscape
  | invalidNumber
  | numberOutOfRange
  | hexEscapeCutShort
  | loneSurrogate
  | controlCharacter
  | keyExpected
  | trailingComma
  | trailingCharacters
  | tooDeep
  deriving DecidableEq, Repr

/-- The wording of a fault. -/
def Fault.message : Fault → String
  | endInArray => "EOF while parsing a list"
  | endInObject => "EOF while parsing an object"
  | endInString => "EOF while parsing a string"
  | endInValue => "EOF while parsing a value"
  | colonExpected => "expected `:`"
  | commaOrBracketExpected => "expected `,` or `]`"
  | commaOrBraceExpected => "expected `,` or `\x7d`"
  | wordExpected => "expected ident"
  | valueExpected => "expected value"
  | invalidEscape => "invalid escape"
  | invalidNumber => "invalid number"
  | numberOutOfRange => "number out of range"
  | hexEscapeCutShort => "unexpected end of hex escape"
  | loneSurrogate => "lone leading surrogate in hex escape"
  | controlCharacter => "control character (\\u0000-\\u001F) found while parsing a string"
  | keyExpected => "key must be a string"
  | trailingComma => "trailing comma"
  | trailingCharacters => "trailing characters"
  | tooDeep => "recursion limit exceeded"

/-- A fault of type `α`, the characters from which a reader saw it, and how many bytes of these
it had passed. -/
structure Stop (α : Type) where
  fault : α
  rest : List Char
  passed : Nat

/-- A fault of type `α` at a place in a text. -/
structure Located (α : Type) where
  fault : α
  place : Text.Place
  deriving DecidableEq, Repr

/-- The place at which a reader of `text` stopped; no place lies beyond the end. -/
def Stop.locate {α : Type} (text : List Char) (stop : Stop α) : Located α where
  fault := stop.fault
  place :=
    let before := Text.byteLength text - Text.byteLength stop.rest
    Text.placeAfter (before + stop.passed) text

/-- The wording of a located fault. -/
def Located.message {α : Type} (message : α → String) (l : Located α) : String :=
  message l.fault ++ s!" at line {l.place.line} column {l.place.column}"

/-- A fault of a JSON text and its place. -/
abbrev TextError := Located Fault

/-- What a reader that was given `s` hands over: a value and what follows it, which is shorter
than `s`. -/
structure Read (α : Type) (s : List Char) where
  value : α
  rest : List Char
  shorter : rest.length < s.length

/-- The same result for a longer text. -/
def Read.widen {α : Type} {s t : List Char} (r : Read α t) (h : t.length ≤ s.length) :
    Read α s :=
  ⟨r.value, r.rest, Nat.lt_of_lt_of_le r.shorter h⟩

/-- What follows the first character of a text is shorter than the text. -/
theorem length_lt_length_cons (c : Char) (rest : List Char) :
    rest.length < (c :: rest).length :=
  Nat.lt_succ_self _

/-- A value that is read from the first character of a text alone. -/
def Read.ofHead {α : Type} {c : Char} {rest : List Char} (value : α) : Read α (c :: rest) :=
  ⟨value, rest, length_lt_length_cons c rest⟩

/-- A result for what follows the first character of a text, as one for the text. -/
def Read.underHead {α : Type} {c : Char} {rest : List Char} (r : Read α rest) :
    Read α (c :: rest) :=
  r.widen (Nat.le_succ _)

/-- A result for a shorter text, as one for a longer. -/
def Read.below {α : Type} {s t : List Char} (h : t.length < s.length) (r : Read α t) : Read α s :=
  r.widen (Nat.le_of_lt h)

/-- A result for what follows a value, as one for the text that the value starts. -/
def Read.after {α β : Type} {s : List Char} (first : Read α s) (second : Read β first.rest) :
    Read β s :=
  second.below first.shorter

/-- A result with its value changed. -/
def Read.map {α β : Type} {s : List Char} (f : α → β) (r : Read α s) : Read β s :=
  ⟨f r.value, r.rest, r.shorter⟩

/-- What is left of a text `s`, maybe all of it. -/
structure Rest (s : List Char) where
  rest : List Char
  length_le : rest.length ≤ s.length

/-- All of a text. -/
def Rest.all (s : List Char) : Rest s :=
  ⟨s, Nat.le_refl _⟩

/-- What is left of a text, as what is left of a longer one. -/
def Rest.widen {s t : List Char} (r : Rest t) (h : t.length ≤ s.length) : Rest s :=
  ⟨r.rest, Nat.le_trans r.length_le h⟩

/-- What a reader left of a text. -/
def Read.left {α : Type} {s : List Char} (r : Read α s) : Rest s :=
  ⟨r.rest, Nat.le_of_lt r.shorter⟩

/-- A value that is followed by something that is passed too. -/
def Read.upTo {α : Type} {s : List Char} (r : Read α s) (left : Rest r.rest) : Read α s :=
  ⟨r.value, left.rest, Nat.lt_of_le_of_lt left.length_le r.shorter⟩

/-- A result for what is left of a text, as one for all of it. -/
def Read.within {α : Type} {s : List Char} (left : Rest s) (r : Read α left.rest) : Read α s :=
  r.widen left.length_le

/-- Readers of JSON texts. -/
abbrev Reading (α : Type) := Except (Stop Fault) α

/-- Stops with a fault seen at `rest`, after `passed` bytes of it. -/
def stopAt {α : Type} (fault : Fault) (rest : List Char) (passed : Nat := 0) : Reading α :=
  .error ⟨fault, rest, passed⟩

end ContractBindings.Json
