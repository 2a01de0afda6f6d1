/-!
# Lengths in bytes

Places in a text are given by the number of UTF-8 bytes in front of them, and in lines and
columns that are counted from those.
-/

namespace ContractBindings.Text

/-- The number of bytes that a text takes in UTF-8. -/
def byteLength (s : List Char) : Nat :=
  s.foldr (fun c n ↦ c.utf8Size + n) 0

/-- A place in a text: the line from 1, and the bytes between the start of that line and it. -/
structure Place where
  line : Nat
  column : Nat
  deriving DecidableEq, Repr

/-- Moves `place` over the first `bytes` bytes of a text. A place inside a character counts the
bytes of it that are passed. -/
def Place.advance (place : Place) : (bytes : Nat) → List Char → Place
  | 0, _ => place
  | _, [] => place
  | bytes, c :: rest =>
    if bytes < c.utf8Size then ⟨place.line, place.column + bytes⟩
    else if c = '\n' then Place.advance ⟨place.line + 1, 0⟩ (bytes - c.utf8Size) rest
    else Place.advance ⟨place.line, place.column + c.utf8Size⟩ (bytes - c.utf8Size) rest

/-- The place after the first `bytes` bytes of a text. -/
def placeAfter (bytes : Nat) (s : List Char) : Place :=
  Place.advance ⟨1, 0⟩ bytes s

end ContractBindings.Text
