/-!
# Splitting texts

The texts between the separators of a text. There is always one more of them than there are
separators, so that no text comes from nothing.
-/

namespace ContractBindings.Text

/-- The texts between the characters that are separators. -/
def splitWhere (isSeparator : Char → Bool) : List Char → List (List Char)
  | [] => [[]]
  | c :: rest =>
    if isSeparator c then [] :: splitWhere isSeparator rest
    else match splitWhere isSeparator rest with
      | [] => [[c]]
      | part :: parts => (c :: part) :: parts

/-- The texts between the occurrences of a character. -/
def splitOn (separator : Char) (s : List Char) : List (List Char) :=
  splitWhere (· == separator) s

end ContractBindings.Text
