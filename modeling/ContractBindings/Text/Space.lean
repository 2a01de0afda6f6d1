/-!
# White space

The `White_Space` property of characters, and the two things that are decided by it: the text
that is left when the blanks at both ends are dropped, and whether a text is blank altogether.
Text is a list of characters here, so that both are structural; `String` versions stand beside
them for callers that only carry text around.
-/

namespace ContractBindings.Text

/-- The 25 characters with the `White_Space` property. -/
def isSpace (c : Char) : Bool :=
  let n := c.toNat
  (0x09 ≤ n && n ≤ 0x0D) || n == 0x20 || n == 0x85 || n == 0xA0 || n == 0x1680 ||
    (0x2000 ≤ n && n ≤ 0x200A) || n == 0x2028 || n == 0x2029 || n == 0x202F || n == 0x205F ||
    n == 0x3000

/-- The text from its first character that is not a space. -/
def skipSpaces (s : List Char) : List Char :=
  s.dropWhile isSpace

/-- The text without the spaces at both ends. -/
def trim (s : List Char) : List Char :=
  (skipSpaces (skipSpaces s).reverse).reverse

/-- A text is blank when every character of it is a space. -/
def isBlank (s : String) : Bool :=
  s.toList.all isSpace

end ContractBindings.Text
