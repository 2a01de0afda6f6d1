import ContractBindings.AbiType
import ContractBindings.Text.Bytes
import ContractBindings.Text.Space

/-!
# Reading type descriptors

A descriptor writes a type: a name in any case, and for `Array` and `Map` the types of their
contents in angle brackets, with spaces wherever two tokens meet. `Bool` also names the boolean
type, and a container without brackets holds anything.

The reader takes a list of characters and gives back the type with the characters that follow
it. It descends by a count of the levels that are left, so the bound on nesting is also what
makes it terminate. A reader that stops reports what it met and the characters from there on;
only the outermost function turns these into a place in the text.
-/

namespace ContractBindings

/-- Why the reader of descriptors stops. -/
inductive DescriptorFault where
  /-- A well-formed name that names no type. -/
  | unknownName (name : String)
  /-- Neither a letter, a digit nor an underscore where a name has to stand. -/
  | nameExpected
  /-- Another character, or none, where `wanted` has to stand. -/
  | delimiterExpected (wanted : Char) (found : Option Char)
  /-- Characters after the type. -/
  | trailingText
  /-- More levels than `AbiType.maxDepth`. -/
  | tooDeep
  /-- Brackets after the name of a type that has no contents. -/
  | noArguments (name : String)
  deriving DecidableEq, Repr

/-- A fault and the number of bytes that stand before it. -/
structure DescriptorError where
  fault : DescriptorFault
  offset : Nat
  deriving DecidableEq, Repr

namespace DescriptorError

/-- The wording of a descriptor error. -/
def message (e : DescriptorError) : String :=
  match e.fault with
  | .unknownName name => "unknown type name '" ++ name ++ "'"
  | .nameExpected => s!"expected a type name at offset {e.offset}"
  | .delimiterExpected wanted (some found) =>
    "expected '" ++ wanted.toString ++ s!"' at offset {e.offset}, found '" ++ found.toString ++ "'"
  | .delimiterExpected wanted none =>
    "expected '" ++ wanted.toString ++ s!"' at offset {e.offset}, found end of input"
  | .trailingText => s!"unexpected trailing input at offset {e.offset}"
  | .tooDeep => s!"type nesting exceeds {AbiType.maxDepth} levels"
  | .noArguments name => "'" ++ name ++ "' does not take type arguments"

end DescriptorError

namespace AbiType

/-- The characters of type names. -/
def isNameChar (c : Char) : Bool :=
  c.isAlphanum || c == '_'

/-- The type that a name in lower case stands for on its own. -/
def named? : String → Option AbiType
  | "integer" => some (scalar .integer)
  | "boolean" => some (scalar .boolean)
  | "bool" => some (scalar .boolean)
  | "bytearray" => some (scalar .byteArray)
  | "string" => some (scalar .string)
  | "hash160" => some (scalar .hash160)
  | "hash256" => some (scalar .hash256)
  | "publickey" => some (scalar .publicKey)
  | "signature" => some (scalar .signature)
  | "array" => some (array (scalar .any))
  | "map" => some (map (scalar .any) (scalar .any))
  | "interopinterface" => some (scalar .interopInterface)
  | "void" => some (scalar .void)
  | "any" => some (scalar .any)
  | _ => none

/-- The type that a name in any case stands for on its own. -/
def ofName? (name : List Char) : Option AbiType :=
  named? (String.ofList (name.map Char.toLower))

/-- Where a reader stopped: the fault and the characters from there on. -/
abbrev ReadFault := DescriptorFault × List Char

/-- Passes the spaces in front of `wanted` and `wanted` itself. -/
def readDelimiter (wanted : Char) (s : List Char) : Except ReadFault (List Char) :=
  match Text.skipSpaces s with
  | [] => .error (.delimiterExpected wanted none, [])
  | c :: rest =>
    if c = wanted then .ok rest
    else .error (.delimiterExpected wanted (some c), c :: rest)

/-- Reads a name and gives the type it stands for. -/
def readName (s : List Char) : Except ReadFault (AbiType × List Char) :=
  let start := Text.skipSpaces s
  let name := start.takeWhile isNameChar
  let rest := start.dropWhile isNameChar
  if name.isEmpty then .error (.nameExpected, start)
  else match ofName? name with
    | some type => .ok (type, rest)
    | none => .error (.unknownName (String.ofList name), rest)

/-- Reads a type of at most `levels` levels of brackets and names. -/
def readType : (levels : Nat) → List Char → Except ReadFault (AbiType × List Char)
  | 0, s => .error (.tooDeep, s)
  | levels + 1, s => do
    let (base, afterName) ← readName s
    match Text.skipSpaces afterName with
    | '<' :: inner =>
      match base with
      | array _ =>
        let (element, rest) ← readType levels inner
        return (array element, ← readDelimiter '>' rest)
      | map _ _ =>
        let (key, rest) ← readType levels inner
        let rest ← readDelimiter ',' rest
        let (value, rest) ← readType levels rest
        return (map key value, ← readDelimiter '>' rest)
      | scalar s => throw (.noArguments s.name, inner)
    | rest => return (base, rest)

/-- Reads a whole descriptor. -/
def ofChars (s : List Char) : Except DescriptorError AbiType :=
  match readType maxDepth s with
  | .error (fault, rest) => .error ⟨fault, Text.byteLength s - Text.byteLength rest⟩
  | .ok (type, rest) =>
    match Text.skipSpaces rest with
    | [] => .ok type
    | extra => .error ⟨.trailingText, Text.byteLength s - Text.byteLength extra⟩

/-- Reads a whole descriptor. -/
def parse (text : String) : Except DescriptorError AbiType :=
  ofChars text.toList

end AbiType

end ContractBindings
