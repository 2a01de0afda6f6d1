import ContractBindings.Decimal.Layout
import ContractBindings.Json.Value
import ContractBindings.Text.Hex

/-!
# Writing JSON texts

The text of a value on one line and without blanks. A string is escaped only where JSON demands
it, so its written form is also a string literal of JavaScript, and the writer of strings stands
on its own.
-/

namespace ContractBindings.Json

/-- How one character stands in a written string. -/
def escapeChar (c : Char) : List Char :=
  if c = '"' then ['\\', '"']
  else if c = '\\' then ['\\', '\\']
  else if c = '\x08' then ['\\', 'b']
  else if c = '\x0c' then ['\\', 'f']
  else if c = '\n' then ['\\', 'n']
  else if c = '\r' then ['\\', 'r']
  else if c = '\t' then ['\\', 't']
  else if c.toNat < 0x20 then
    ['\\', 'u', '0', '0', Hex.digit (c.toNat / 16), Hex.digit (c.toNat % 16)]
  else [c]

/-- The characters of a written string. -/
def stringChars (s : List Char) : List Char :=
  '"' :: s.flatMap escapeChar ++ ['"']

/-- The written form of a string. -/
def stringLiteral (s : String) : String :=
  String.ofList (stringChars s.toList)

/-- The written form of a number. -/
def Number.text : Number → String
  | .integer n => toString n
  | .float bits => Decimal.Layout.json.writeBits bits

mutual

/-- The written form of a value. -/
def text : Json → String
  | null => "null"
  | bool true => "true"
  | bool false => "false"
  | number n => n.text
  | string s => stringLiteral s
  | array elements => "[" ++ elementsText elements ++ "]"
  | object members => "\x7b" ++ membersText members ++ "\x7d"

/-- The written elements of an array, separated by commas. -/
def elementsText : List Json → String
  | [] => ""
  | [value] => value.text
  | value :: rest => value.text ++ "," ++ elementsText rest

/-- The written members of an object, separated by commas. -/
def membersText : List (String × Json) → String
  | [] => ""
  | [(name, value)] => stringLiteral name ++ ":" ++ value.text
  | (name, value) :: rest => stringLiteral name ++ ":" ++ value.text ++ "," ++ membersText rest

end

end ContractBindings.Json
