import ContractBindings.Text.Bytes
import ContractBindings.Text.Hex
import ContractBindings.Text.Quoted
import ContractBindings.Text.Space

/-!
# Script hashes

A deployed contract is addressed by the 20 bytes of its script hash. The written form is `0x`
followed by 40 lower-case hexadecimal digits; a reader also takes upper-case digits, `0X`, no
mark at all, and spaces around the whole.

The reader works on characters, yet counts and locates in bytes of UTF-8: a text of 40 bytes
that holds a longer character has the right length and fails at that character's first byte.
-/

namespace ContractBindings

/-- The number of bytes of a script hash. -/
def ScriptHash.size : Nat := 20

/-- The address of a deployed contract. -/
structure ScriptHash where
  /-- The bytes, first written first. -/
  bytes : List UInt8
  length_bytes : bytes.length = ScriptHash.size
  deriving DecidableEq

/-- Why a text is no script hash. -/
inductive ScriptHashError where
  /-- The digits are not 40 bytes long but `found`. -/
  | wrongLength (found : Nat)
  /-- The byte at `index` of the digits, shown as `shown`, is not a hexadecimal digit. -/
  | notHex (shown : Char) (index : Nat)
  deriving DecidableEq, Repr

namespace ScriptHashError

/-- The wording of a script hash error. -/
def message : ScriptHashError → String
  | wrongLength found => s!"expected 40 hex digits, got {found}"
  | notHex shown index =>
    "not a hex string: Invalid character " ++ Text.quotedChar shown ++ s!" at position {index}"

end ScriptHashError

namespace ScriptHash

/-- The character that stands for a byte of a text in messages: the byte's own code point. -/
def shownByte (c : Char) : Char :=
  Char.ofNat ((String.utf8EncodeChar c).headD 0).toNat

/-- The values of hexadecimal digits, the first at byte `index`. -/
def digitValues (index : Nat) : List Char → Except ScriptHashError (List Nat)
  | [] => .ok []
  | c :: rest =>
    match Hex.digitValue? c with
    | none => .error (.notHex (shownByte c) index)
    | some v => return v :: (← digitValues (index + 1) rest)

/-- The bytes that pairs of digit values spell, the high half first. -/
def pairs : List Nat → List UInt8
  | high :: low :: rest => UInt8.ofNat (16 * high + low) :: pairs rest
  | _ => []

/-- A text without the mark `0x` or `0X` in front of it. -/
def dropMark : List Char → List Char
  | '0' :: 'x' :: rest => rest
  | '0' :: 'X' :: rest => rest
  | s => s

/-- The hash that a text spells. The length is checked before any digit; it is counted in bytes,
and digits that pass are one byte each, so the second test never fails. -/
def ofChars (s : List Char) : Except ScriptHashError ScriptHash := do
  let digits := dropMark (Text.trim s)
  if Text.byteLength digits ≠ 2 * size then
    throw (.wrongLength (Text.byteLength digits))
  let bytes := pairs (← digitValues 0 digits)
  if h : bytes.length = size then
    return ⟨bytes, h⟩
  else
    throw (.wrongLength (Text.byteLength digits))

/-- The hash that a text spells. -/
def parse (text : String) : Except ScriptHashError ScriptHash :=
  ofChars text.toList

/-- The characters of the written form of a hash. -/
def toChars (hash : ScriptHash) : List Char :=
  '0' :: 'x' :: Hex.encode hash.bytes

/-- The written form of a hash. -/
def text (hash : ScriptHash) : String :=
  String.ofList hash.toChars

/-- Hashes are ordered as their bytes are, the first byte counting most. -/
def le (a b : ScriptHash) : Bool :=
  a.bytes ≤ b.bytes

/-- Hashes in ascending order, each once. -/
def sortDistinct (hashes : List ScriptHash) : List ScriptHash :=
  (hashes.mergeSort le).eraseDups

end ScriptHash

end ContractBindings
