/-!
# Punycode

The form in which a label of a host name that is not ASCII is written with letters, digits and
hyphens: its ASCII characters, then the others in ascending order, each as the distance of its
place from that of the one before. Distances are numbers with digits of varying weight, and the
weights follow the size of the distances met so far.
-/

namespace ContractBindings.Url.Punycode

/-- The digit of a value below 36: letters, then decimal digits. -/
def digit (n : Nat) : Char :=
  if n < 26 then Char.ofNat ('a'.toNat + n) else Char.ofNat ('0'.toNat + (n - 26))

/-- The least value of the digit at position `k` after which no other digit is needed. -/
def threshold (bias k : Nat) : Nat :=
  max 1 (min 26 (36 * (k + 1) - bias))

/-- The digits of a distance from position `k` on. -/
def digits (bias k n : Nat) : List Char :=
  let t := threshold bias k
  if n < t then [digit n]
  else digit (t + (n - t) % (36 - t)) :: digits bias (k + 1) ((n - t) / (36 - t))
termination_by n
decreasing_by
  have : 1 ≤ threshold bias k := Nat.le_max_left _ _
  exact Nat.lt_of_le_of_lt (Nat.div_le_self _ _) (by omega)

/-- How often a number is divided by 35 until it is at most 455, and what is left of it. -/
def shrink (n : Nat) : Nat × Nat :=
  if 455 < n then
    let (times, rest) := shrink (n / 35)
    (times + 1, rest)
  else (0, n)
termination_by n

/-- The bias after a distance, `written` characters having been written with its own. -/
def adapt (distance written : Nat) (first : Bool) : Nat :=
  let scaled := if first then distance / 700 else distance / 2
  let (times, rest) := shrink (scaled + scaled / written)
  36 * times + 36 * rest / (rest + 38)

/-- How far a label has been written. -/
structure Writer where
  output : List Char
  distance : Nat
  bias : Nat
  /-- The number of characters that have been written. -/
  written : Nat

/-- Passes one character of a label, those of code point `code` being written. -/
def Writer.pass (basic code : Nat) (w : Writer) (c : Char) : Writer :=
  if c.toNat < code then { w with distance := w.distance + 1 }
  else if c.toNat = code then {
    output := w.output ++ digits w.bias 0 w.distance
    distance := 0
    bias := adapt w.distance (w.written + 1) (w.written == basic)
    written := w.written + 1 }
  else w

/-- Writes the characters with the code points `codes`, in ascending order; all below `next` are
written. -/
def Writer.passAll (label : List Char) (basic : Nat) (w : Writer) (next : Nat) :
    (codes : List Nat) → Writer
  | [] => w
  | code :: codes =>
    let w := { w with distance := w.distance + (code - next) * (w.written + 1) }
    let w := label.foldl (Writer.pass basic code) w
    Writer.passAll label basic { w with distance := w.distance + 1 } (code + 1) codes

/-- The written form of a label. -/
def encode (label : List Char) : List Char :=
  let (ascii, others) := label.partition (·.toNat < 0x80)
  let codes := ((others.map Char.toNat).mergeSort (· ≤ ·)).eraseDups
  let w := Writer.passAll label ascii.length ⟨[], 0, 72, ascii.length⟩ 0x80 codes
  ascii ++ (if ascii.isEmpty then [] else ['-']) ++ w.output

end ContractBindings.Url.Punycode
