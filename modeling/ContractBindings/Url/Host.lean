import ContractBindings.Text.Split
import ContractBindings.Url.Percent
import ContractBindings.Url.Punycode

/-!
# Hosts of URLs

A host is a numeric address or a name. An address of four bytes may be written with fewer and
larger numbers, in three bases; one of sixteen bytes stands in brackets and leaves out a run of
zeros. Both have one normal form. A name is lower case.

Internationalized names are read no further than that. A label beyond ASCII is neither mapped to a
common form (folded, composed) nor checked before it is written in Punycode, and a label that is in
Punycode already (`xn--`) is neither read back nor checked. For such a name the normal form, and
whether there is one, may be another than for a reader that does all this.
-/

namespace ContractBindings.Url

/-! ### Addresses of four bytes -/

/-- The number that a part of an address writes, in decimal, octal or hexadecimal. -/
def addressPart? : List Char → Option Nat
  | '0' :: x :: digits =>
    if x = 'x' || x = 'X' then (if digits.isEmpty then some 0 else Hex.number? 16 digits)
    else Hex.number? 8 (x :: digits)
  | digits => Hex.number? 10 digits

/-- The parts of a name or address between its points, without an empty one at the end. -/
def hostParts (host : List Char) : List (List Char) :=
  let parts := Text.splitOn '.' host
  if 1 < parts.length && parts.getLast? == some [] then parts.dropLast else parts

/-- Whether a host is to be read as an address: its last part is a number. -/
def endsInNumber (host : List Char) : Bool :=
  match (hostParts host).getLast? with
  | some last => (!last.isEmpty && last.all Char.isDigit) || (addressPart? last).isSome
  | none => false

/-- The number that a host is as an address. All parts but the last write a byte, and the last one
writes the bytes that remain. -/
def address? (host : List Char) : Option Nat := do
  let numbers ← (hostParts host).mapM addressPart?
  let last ← numbers.getLast?
  let bytes := numbers.dropLast
  if 4 < numbers.length || bytes.any (255 < ·) || Nat.pow 256 (4 - bytes.length) ≤ last then none
  else
    let high := bytes.foldl (fun n b ↦ 256 * n + b) 0
    some (high * Nat.pow 256 (4 - bytes.length) + last)

/-- The written form of an address. -/
def addressText (address : Nat) : String :=
  let byte (n : Nat) := toString (address / Nat.pow 256 n % 256)
  byte 3 ++ "." ++ byte 2 ++ "." ++ byte 1 ++ "." ++ byte 0

/-! ### Addresses of sixteen bytes -/

/-- The number of at most 16 bits that hexadecimal digits write. -/
def piece? (digits : List Char) : Option Nat :=
  if digits.length ≤ 4 then Hex.number? 16 digits else none

/-- The byte that decimal digits without leading zeros write. -/
def byte? (digits : List Char) : Option Nat := do
  let n ← Hex.number? 10 digits
  if 255 < n || (1 < digits.length && digits.head? == some '0') then none else some n

/-- The two pieces that an address of four bytes stands for. -/
def embedded? (text : List Char) : Option (List Nat) := do
  match ← (Text.splitOn '.' text).mapM byte? with
  | [a, b, c, d] => some [256 * a + b, 256 * c + d]
  | _ => none

/-- The pieces between the colons of a text; the last may be an address of four bytes if `atEnd`. -/
def pieces? (atEnd : Bool) (text : List Char) : Option (List Nat) := do
  if text.isEmpty then return []
  let parts := Text.splitOn ':' text
  let last := parts.getLast?.getD []
  let first ← parts.dropLast.mapM piece?
  if atEnd && last.contains '.' then return first ++ (← embedded? last)
  else return first ++ [← piece? last]

/-- The text before and behind the first two colons in a row. -/
def splitGap : List Char → Option (List Char × List Char)
  | ':' :: ':' :: rest => some ([], rest)
  | c :: rest => (splitGap rest).map fun (before, behind) ↦ (c :: before, behind)
  | [] => none

/-- The eight pieces of an address. -/
def longAddress? (text : List Char) : Option (List Nat) := do
  match splitGap text with
  | none =>
    let pieces ← if text.isEmpty then none else pieces? true text
    if pieces.length = 8 then some pieces else none
  | some (before, behind) =>
    let before ← pieces? false before
    let behind ← pieces? true behind
    let count := before.length + behind.length
    if count < 8 then some (before ++ List.replicate (8 - count) 0 ++ behind) else none

/-- The number of zeros that a list starts with. -/
def leadingZeros (pieces : List Nat) : Nat :=
  (pieces.takeWhile (· == 0)).length

/-- Where the first of the longest runs of zeros starts, and its length. -/
def longestGap (pieces : List Nat) : Nat × Nat :=
  (List.range pieces.length).foldl
    (fun best start ↦
      let length := leadingZeros (pieces.drop start)
      if best.2 < length then (start, length) else best) (0, 0)

/-- Pieces with colons between them. -/
def piecesText (pieces : List Nat) : String :=
  ":".intercalate (pieces.map fun p ↦ String.ofList (Nat.toDigits 16 p))

/-- The written form of an address, in brackets. -/
def longAddressText (pieces : List Nat) : String :=
  let (start, length) := longestGap pieces
  "[" ++ (if length < 2 then piecesText pieces
    else piecesText (pieces.take start) ++ "::" ++ piecesText (pieces.drop (start + length))) ++ "]"

/-! ### Names -/

/-- Whether no host holds a character. -/
def isForbidden (c : Char) : Bool :=
  ['\x00', '\t', '\n', '\r', ' ', '#', '/', ':', '<', '>', '?', '@', '[', '\\', ']', '^',
    '|'].contains c

/-- Whether no name that is looked up holds a character. -/
def isForbiddenInName (c : Char) : Bool :=
  isForbidden c || c.toNat < 0x20 || c == '%' || c == '\x7f'

/-- The written form of a label. -/
def labelText (label : List Char) : List Char :=
  if label.all (·.toNat < 0x80) then label else "xn--".toList ++ Punycode.encode label

/-- The written form of a name. -/
def nameText (name : List Char) : List Char :=
  ['.'].intercalate ((Text.splitOn '.' name).map labelText)

/-! ### Hosts -/

/-- The normal form of a host in brackets. -/
def bracketed? (host : List Char) : Option String :=
  match host with
  | '[' :: rest =>
    if rest.getLast? == some ']' then (longAddress? rest.dropLast).map longAddressText else none
  | _ => none

/-- The normal form of a host that is looked up. Internationalized names are neither mapped to a
common form nor checked. -/
def host? (host : List Char) : Option String :=
  if host.head? == some '[' then bracketed? host
  else do
    let decoded ← String.fromUTF8? ⟨(percentDecode host).toArray⟩
    let name := nameText (decoded.toList.map Char.toLower)
    if name.isEmpty || name.any isForbiddenInName then none
    else if endsInNumber name then addressText <$> address? name
    else some (String.ofList name)

/-- The normal form of a host that only its scheme understands. -/
def opaqueHost? (host : List Char) : Option String :=
  if host.head? == some '[' then bracketed? host
  else if host.any isForbidden then none
  else some (String.ofList (percentEncode [] host))

end ContractBindings.Url
