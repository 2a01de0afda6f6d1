/-!
# Words of a name

A name is cut into words where its spelling suggests it: at every character that is no ASCII
letter or digit, before a capital that follows a small letter or a digit, and before the last
capital of a run of capitals if a small letter follows, so that `HTTPServer` has the words `HTTP`
and `Server`. The words of a name keep all its letters and digits in order.
-/

namespace ContractBindings.Identifier

/-- Whether a word ends between `previous` and the capital `c`, which is followed by `next`. -/
def endsBefore (previous c : Char) (next : Option Char) : Bool :=
  c.isUpper && (previous.isLower || previous.isDigit ||
    (previous.isUpper && next.any Char.isLower))

/-- A word that is complete, unless it is empty; the word is given backwards. -/
def flush : (word : List Char) → List (List Char)
  | [] => []
  | word => [word.reverse]

/-- The words of a text, the first of which has been read up to `word`, backwards. -/
def wordsFrom (word : List Char) : List Char → List (List Char)
  | [] => flush word
  | c :: rest =>
    if !c.isAlphanum then flush word ++ wordsFrom [] rest
    else
      match word with
      | previous :: _ =>
        if endsBefore previous c rest.head? then flush word ++ wordsFrom [c] rest
        else wordsFrom (c :: word) rest
      | [] => wordsFrom [c] rest

/-- The words of a name. -/
def splitWords (name : List Char) : List (List Char) :=
  wordsFrom [] name

/-- A word with its first letter as a capital. -/
def capitalize : List Char → List Char
  | [] => []
  | c :: rest => c.toUpper :: rest

/-- The words joined, each capitalized. -/
def pascalCase (words : List (List Char)) : List Char :=
  words.flatMap capitalize

/-- The words joined, the first in small letters and the others capitalized. -/
def camelCase : List (List Char) → List Char
  | [] => []
  | first :: rest => first.map Char.toLower ++ pascalCase rest

end ContractBindings.Identifier
