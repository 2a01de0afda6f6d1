/-!
# Places in a YAML text

A YAML text is read with an eye on columns. Its line breaks are brought into one form first: a
carriage return, a carriage return with a line feed, and the next-line character all count as a
line feed; the line and paragraph separators break lines too, and stay what they are.
-/

namespace ContractBindings.Yaml

/-- Why a text is not a YAML stream of at most one document. -/
inductive Fault where
  | controlCharacter
  | unexpectedEnd
  | unexpectedIndicator
  | tabIndentation
  | missingColon
  | keyNotAllowed
  | badAnchor
  | badTag
  | badDirective
  | badBlockHeader
  | badEscape
  | badStructure
  | unknownAlias
  | manyDocuments
  deriving DecidableEq, Repr

/-- Results of reading a YAML text. -/
abbrev Reading (α : Type) := Except Fault α

/-- Characters that may stand in a YAML text. -/
def isAllowed (c : Char) : Bool :=
  let n := c.toNat
  n == 0x09 || n == 0x0A || n == 0x0D || (0x20 ≤ n && n ≤ 0x7E) || n == 0x85 ||
    (0xA0 ≤ n && n ≤ 0xD7FF) || (0xE000 ≤ n && n ≤ 0xFFFD) || 0x10000 ≤ n

/-- A text with its line breaks in one form. -/
def unifyBreaks : List Char → List Char
  | '\r' :: '\n' :: rest => '\n' :: unifyBreaks rest
  | c :: rest => (if c = '\r' ∨ c = '\u0085' then '\n' else c) :: unifyBreaks rest
  | [] => []

/-- Characters that break lines, after `unifyBreaks`. -/
def isBreak (c : Char) : Bool :=
  c == '\n' || c == '\u2028' || c == '\u2029'

/-- Spaces and tabs. -/
def isBlank (c : Char) : Bool :=
  c == ' ' || c == '\t'

/-- Blanks and line breaks. -/
def isSpace (c : Char) : Bool :=
  isBlank c || isBreak c

/-- Whether a text is at its end, or goes on with a blank or a line break. -/
def atSpace : List Char → Bool
  | [] => true
  | c :: _ => isSpace c

/-- The characters of anchors, handles and directive names. -/
def isWordChar (c : Char) : Bool :=
  c.isAlphanum || c == '_' || c == '-'

/-- A place in a text: what follows it, its line and column, and how many characters stand
before it. -/
structure Cursor where
  rest : List Char
  line : Nat
  column : Nat
  index : Nat

namespace Cursor

/-- The start of a text. -/
def start (text : List Char) : Cursor :=
  ⟨text, 0, 0, 0⟩

/-- Moves over a character. -/
def step (cur : Cursor) (c : Char) : Cursor :=
  if isBreak c then ⟨cur.rest.tail, cur.line + 1, 0, cur.index + 1⟩
  else ⟨cur.rest.tail, cur.line, cur.column + 1, cur.index + 1⟩

/-- Moves over the characters that come next. -/
def pass (cur : Cursor) (chars : List Char) : Cursor :=
  chars.foldl step cur

/-- Moves over the next `n` characters. -/
def skip (cur : Cursor) (n : Nat) : Cursor :=
  cur.pass (cur.rest.take n)

/-- Moves over characters of a class; gives those too. -/
def takeWhile (cur : Cursor) (p : Char → Bool) : List Char × Cursor :=
  let taken := cur.rest.takeWhile p
  (taken, cur.pass taken)

/-- Moves over characters of a class. -/
def dropWhile (cur : Cursor) (p : Char → Bool) : Cursor :=
  (cur.takeWhile p).2

/-- Whether the text starts at a line with `---` or `...` and ends there or goes on with a space. -/
def atDocumentMark (cur : Cursor) : Bool :=
  cur.column == 0 && match cur.rest with
    | '-' :: '-' :: '-' :: rest => atSpace rest
    | '.' :: '.' :: '.' :: rest => atSpace rest
    | _ => false

end Cursor

end ContractBindings.Yaml
