import ContractBindings.Binding.Encoding
import ContractBindings.Proofs.Encoding.TypeText
import ContractBindings.Proofs.Module.Text
import ContractBindings.Text.Space

/-!
# The definitions of the prelude

The table of the functions that encode, read from the lines of the prelude: each entry has a name, a
signature and a body. The language of the bodies is as small as the table needs it to be, and is
read by recursion with a bound on how deep expressions are.

What is read is written out once (`definitions_eq`). The entries for scalars are one function of the
scalar, whose name, type and tag come from the three tables that modules are made with
(`scalarDefinition`), so that these tables agree with the prelude is part of that equation.
-/

namespace ContractBindings.Encoding

open Binding Identifier ContractBindings.Module

/-! ### Definitions -/

/-- The type of a parameter. -/
inductive ParameterType where
  | value (type : TypeExpr)
  /-- The type of functions of one value. -/
  | function (parameter result : TypeExpr)
  deriving DecidableEq

/-- The expressions in the bodies of functions. -/
inductive Body where
  | named (name : String)
  | literal (text : String)
  /-- An object of two fields. -/
  | object (first : String) (firstValue : Body) (second : String) (secondValue : Body)
  | call (function : String) (argument : Body)
  /-- The method `toString` of a number. -/
  | decimal (number : String)
  /-- The method `map` of a list. -/
  | each (list : String) (binder : String) (body : Body)
  /-- `Array.from` with a function of the key and the value of each entry of a map. -/
  | entries (map : String) (key value : String) (body : Body)
  deriving DecidableEq

/-- An entry of the prelude's table: a function with its signature and its body. -/
structure Definition where
  name : String
  typeParameters : List String
  parameters : List (String × ParameterType)
  result : TypeExpr
  body : Body
  deriving DecidableEq

/-! ### Reading definitions -/

/-- Reads items with commas between them. -/
def readItems? {α : Type} (read? : List Char → Option (α × List Char)) :
    (fuel : Nat) → List Char → Option (List α × List Char)
  | 0, _ => none
  | fuel + 1, s => do
    let (item, s) ← read? s
    match after? ", ".toList s with
    | some s => do
      let (items, s) ← readItems? read? fuel s
      return (item :: items, s)
    | none => return ([item], s)

/-- Reads a parameter with its type. The parameter of a function type has a name that says
nothing. -/
def readParameter? (s : List Char) : Option ((String × ParameterType) × List Char) := do
  let (name, s) ← readWord? s
  let s ← after? ": ".toList s
  match s with
  | '(' :: s => do
    let (_, s) ← readWord? s
    let s ← after? ": ".toList s
    let (parameter, s) ← readTypeExpr? s.length s
    let s ← after? ") => ".toList s
    let (result, s) ← readTypeExpr? s.length s
    return ((name, .function parameter result), s)
  | s => do
    let (type, s) ← readTypeExpr? s.length s
    return ((name, .value type), s)

/-- Reads type parameters, if there are any. -/
def readTypeParameters? : List Char → Option (List String × List Char)
  | '<' :: s => do
    let (names, s) ← readItems? readWord? s.length s
    let s ← after? ">".toList s
    return (names, s)
  | s => some ([], s)

/-- Reads a field of an object up to the comma behind it. A field without a value has that of the
variable of its name. -/
def readObjectField? (read? : List Char → Option (Body × List Char)) (s : List Char) :
    Option (String × Body × List Char) := do
  let (name, s) ← readWord? (Text.skipSpaces s)
  let (value, s) ← match after? ": ".toList s with
    | some s => read? s
    | none => some (.named name, s)
  return (name, value, (after? ",".toList s).getD s)

/-- Reads an expression in which others stand less than `fuel` deep. -/
def readBody? : (fuel : Nat) → List Char → Option (Body × List Char)
  | 0, _ => none
  | _ + 1, '"' :: s => do
    let (text, s) ← upTo? '"' s
    return (.literal (String.ofList text), s)
  | fuel + 1, '(' :: s => do
    let (body, s) ← readBody? fuel s
    let s ← after? ")".toList s
    return (body, s)
  | fuel + 1, '\x7b' :: s => do
    let (first, firstValue, s) ← readObjectField? (readBody? fuel) s
    let (second, secondValue, s) ← readObjectField? (readBody? fuel) s
    let s ← after? "\x7d".toList (Text.skipSpaces s)
    return (.object first firstValue second secondValue, s)
  | fuel + 1, s => do
    let (word, s) ← readWord? s
    match after? ".from(".toList s, after? ".toString()".toList s, after? ".map((".toList s,
      after? "(".toList s with
    | some s, _, _, _ => do
      let (map, s) ← readWord? s
      let s ← after? ", ([".toList s
      let (key, s) ← readWord? s
      let s ← after? ", ".toList s
      let (value, s) ← readWord? s
      let s ← after? "]) => ".toList s
      let (body, s) ← readBody? fuel s
      let s ← after? ")".toList s
      if word = "Array" then return (.entries map key value body, s) else none
    | _, some s, _, _ => return (.decimal word, s)
    | _, _, some s, _ => do
      let (binder, s) ← readWord? s
      let s ← after? ") => ".toList s
      let (body, s) ← readBody? fuel s
      let s ← after? ")".toList s
      return (.each word binder body, s)
    | _, _, _, some s => do
      let (argument, s) ← readBody? fuel s
      let s ← after? ")".toList s
      return (.call word argument, s)
    | none, none, none, none => return (.named word, s)

/-- Reads an entry of the table up to the comma behind it. -/
def readDefinition? (s : List Char) : Option (Definition × List Char) := do
  let (name, s) ← readWord? (Text.skipSpaces s)
  let s ← after? ": ".toList s
  let (typeParameters, s) ← readTypeParameters? s
  let s ← after? "(".toList s
  let (parameters, s) ← readItems? readParameter? s.length s
  let s ← after? "): ".toList s
  let (result, s) ← readTypeExpr? s.length s
  let s ← after? " => ".toList s
  let (body, s) ← readBody? s.length s
  let s ← after? ",".toList s
  return (⟨name, typeParameters, parameters, result, body⟩, s)

/-- Reads entries of the table up to its closing brace. -/
def readDefinitions? : (fuel : Nat) → List Char → Option (List Definition)
  | 0, _ => none
  | fuel + 1, s =>
    match after? "\x7d".toList (Text.skipSpaces s) with
    | some _ => some []
    | none => do
      let (definition, s) ← readDefinition? s
      let definitions ← readDefinitions? fuel s
      return definition :: definitions

/-- Reads the table that stands in some lines. -/
def readTable? (lines : Lines) : Option (List Definition) :=
  let table := lines.dropWhile fun line ↦ line != "export const Encode = \x7b"
  readDefinitions? table.length (Lines.text (table.drop 1)).toList

/-- The definitions of the prelude's table. -/
def definitions : List Definition :=
  (readTable? Module.prelude).getD []

/-- The definition of a name in the prelude's table. -/
def definition? (name : String) : Option Definition :=
  definitions.find? fun d ↦ d.name == name

/-- The tags of arguments, from the lines that the prelude declares their type in. -/
def argumentTags : List String :=
  let declaration := Module.prelude.dropWhile fun line ↦ line != "export type ContractParamType ="
  let readTag? (line : String) : Option String := do
    let s ← after? "  | \"".toList line.toList
    let (tag, _) ← upTo? '"' s
    return String.ofList tag
  ((declaration.drop 1).map readTag?).takeWhile (·.isSome) |>.reduceOption

/-! ### What is read -/

/-- The type of arguments. -/
def argumentType : TypeExpr :=
  .named "ContractArg"

/-- The expression for what the argument for a scalar holds. -/
def payloadBody : Scalar → Body
  | .integer => .decimal "value"
  | .byteArray | .signature => .call "toHex" (.named "value")
  | _ => .named "value"

/-- The function that encodes a scalar. -/
def scalarDefinition (s : Scalar) : Definition where
  name := scalarEncoder s
  typeParameters := []
  parameters := [("value", .value (.named (scalarTypeName s)))]
  result := argumentType
  body := .object "type" (.literal s.name) "value" (payloadBody s)

/-- The function that encodes lists. -/
def arrayDefinition : Definition where
  name := "array"
  typeParameters := ["T"]
  parameters :=
    [("value", .value (.list (.named "T"))), ("item", .function (.named "T") argumentType)]
  result := argumentType
  body := .object "type" (.literal "Array") "value" (.each "value" "v" (.call "item" (.named "v")))

/-- The function that encodes maps. -/
def mapDefinition : Definition where
  name := "map"
  typeParameters := ["K", "V"]
  parameters :=
    [("value", .value (.map (.named "K") (.named "V"))),
      ("key", .function (.named "K") argumentType),
      ("entry", .function (.named "V") argumentType)]
  result := argumentType
  body := .object "type" (.literal "Map") "value"
    (.entries "value" "k" "v"
      (.object "key" (.call "key" (.named "k")) "value" (.call "entry" (.named "v"))))

/-- **The definitions of the prelude**, as they are read from it. -/
theorem definitions_eq :
    definitions =
      [Scalar.integer, .boolean, .byteArray, .signature, .string, .hash160, .hash256, .publicKey,
        .interopInterface, .any].map scalarDefinition ++ [arrayDefinition, mapDefinition] := by
  have htable : (Module.prelude.dropWhile fun line ↦ line != "export const Encode = \x7b") =
      Module.prelude.drop 45 := by
    decide +kernel
  rw [definitions, readTable?, Lines.toList_text, htable]
  simp only [Module.prelude, List.drop_succ_cons, List.drop_zero, List.flatMap_cons,
    List.flatMap_nil]
  -- Each line is turned into its characters here, since evaluation is slow to do that.
  repeat rw [String.toList_ofList]
  decide +kernel

/-- Every type has a tag, if only it has values. -/
theorem tag_mem_argumentTags {type : AbiType} (h : type ≠ .scalar .void) :
    type.tag ∈ argumentTags := by
  have htags : argumentTags =
      ["Any", "Boolean", "Integer", "ByteArray", "String", "Hash160", "Hash256", "PublicKey",
        "Signature", "Array", "Map", "InteropInterface"] := by
    decide +kernel
  rw [htags]
  cases type with
  | scalar s => cases s <;> first | decide | exact absurd rfl h
  | array element => rw [AbiType.tag]; decide
  | map key value => rw [AbiType.tag]; decide

theorem definition?_scalar {s : Scalar} (h : s ≠ .void) :
    definition? (scalarEncoder s) = some (scalarDefinition s) := by
  rw [definition?, definitions_eq]
  cases s <;> first | rfl | exact absurd rfl h

theorem definition?_array : definition? "array" = some arrayDefinition := by
  rw [definition?, definitions_eq]
  rfl

theorem definition?_map : definition? "map" = some mapDefinition := by
  rw [definition?, definitions_eq]
  rfl

end ContractBindings.Encoding
