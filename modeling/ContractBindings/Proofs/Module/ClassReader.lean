import ContractBindings.Proofs.Module.Pieces
import ContractBindings.Proofs.Module.Text

/-!
# Reading classes

A reader of modules that finds the class, the script hash that it embeds, and its members, one line
after the other and without the plan that they were written from. What a member of a client class
hands to its invoker is read as an `Invocation`, whose descriptor keeps the names of its fields; a
member of an implementation class is read as a `Call` of a method that the class declares itself,
and that method is read as a template (`Generic`), so that a call can be inlined
(`Generic.inline`).

The lines of a class that are no first line of a member are passed over. Which lines are first lines
is therefore a matter of the reader alone (`readHead?`), and that no other line passes for one,
least of all a line of documentation, has to be proved for each kind of line.
-/

namespace ContractBindings.Module

open Binding Identifier
open Text (Over)

/-! ### What is read -/

/-- The first line of a member. -/
structure Head where
  ident : String
  /-- The declarations of the parameters. -/
  parameters : List String
  result : String
  deriving DecidableEq, Repr

/-- What an invoker is given. -/
structure Invocation where
  typeArgument : String
  /-- The fields of the descriptor, each with its expression. -/
  descriptor : List (String × String)
  decoder : String
  deriving DecidableEq, Repr

/-- A call of the generic method. -/
structure Call where
  typeArgument : String
  operation : String
  arguments : String
  decoder : String
  deriving DecidableEq, Repr

/-- The generic method: its parameters and what it hands to the invoker in terms of them. -/
structure Generic where
  typeParameter : String
  parameters : List String
  invocation : Invocation
  deriving DecidableEq, Repr

/-- A class whose members have bodies of one kind. -/
structure ClassText (α : Type) where
  name : String
  /-- The expression for the constant with the script hash, if it is declared. -/
  hashConstant : Option String
  /-- The expression that the constructor takes for a missing script hash, if it takes one. -/
  hashDefault : Option String
  members : List (Head × α)

/-- The call that says as much as an invocation whose descriptor has an operation and arguments. -/
def Invocation.call? (i : Invocation) : Option Call := do
  let operation ← i.descriptor.lookup "operation"
  let arguments ← i.descriptor.lookup "args"
  return ⟨i.typeArgument, operation, arguments, i.decoder⟩

/-- An expression with the variables among `actuals` replaced by what they stand for. -/
def substitute (actuals : List (String × String)) (expression : String) : String :=
  (actuals.lookup expression).getD expression

/-- What a call of the generic method hands to the invoker. -/
def Generic.inline (g : Generic) (c : Call) : Invocation :=
  let actuals := g.parameters.zip [c.operation, c.arguments, c.decoder]
  { typeArgument := substitute [(g.typeParameter, c.typeArgument)] g.invocation.typeArgument
    descriptor := g.invocation.descriptor.map fun field ↦ (field.1, substitute actuals field.2)
    decoder := substitute actuals g.invocation.decoder }

/-! ### Readers -/

/-- Reads the first line of a member. -/
def readHead? (line : List Char) : Option Head := do
  let s ← after? "  ".toList line
  let ident := s.takeWhile isPart
  let s ← after? "(".toList (s.dropWhile isPart)
  let (parameters, s) ← upTo? ')' s
  let s ← after? ": Promise<".toList s
  let result ← before? "> \x7b".toList s
  return ⟨String.ofList ident, splitItems '<' '>' parameters, String.ofList result⟩

/-- Reads a list in brackets, none of whose items has brackets of its own. -/
def readList? (s : List Char) : Option (List Char × List Char) := do
  let s ← after? "[".toList s
  let (items, s) ← upTo? ']' s
  return ('[' :: items ++ [']'], s)

/-- Reads the name of a field, and what stands behind its colon. -/
def readField? (s : List Char) : Option (List Char × List Char) := do
  let (name, s) ← upTo? ':' s
  let s ← after? " ".toList s
  return (name, s)

/-- Reads what a member of a client class hands to its invoker. -/
def readInvocation? : List (List Char) → Option Invocation
  | first :: second :: third :: _ => do
    let s ← after? "    return this.invoker.invoke<".toList first
    let typeArgument ← before? ">(".toList s
    let s ← after? "      \x7b ".toList second
    let (hash, s) ← readField? s
    let (hashValue, s) ← upTo? ',' s
    let s ← after? " ".toList s
    let (operation, s) ← readField? s
    let (operationValue, s) ← readLiteral? s
    let s ← after? ", ".toList s
    let (arguments, s) ← readField? s
    let (argumentsValue, s) ← readList? s
    let _ ← before? " \x7d,".toList s
    let s ← after? "      ".toList third
    let decoder ← before? ",".toList s
    return ⟨String.ofList typeArgument,
      [(hash, hashValue), (operation, operationValue), (arguments, argumentsValue)].map
        fun field ↦ (String.ofList field.1, String.ofList field.2),
      String.ofList decoder⟩
  | _ => none

/-- Reads how a member of an implementation class calls the generic method. -/
def readCall? : List (List Char) → Option Call
  | line :: _ => do
    let s ← after? "    return this.invokeMethod<".toList line
    let (typeArgument, s) ← upTo? '(' s
    let typeArgument ← before? ">".toList typeArgument
    let (operation, s) ← readLiteral? s
    let s ← after? ", ".toList s
    let (arguments, s) ← readList? s
    let s ← after? ", ".toList s
    let decoder ← before? ");".toList s
    return ⟨String.ofList typeArgument, String.ofList operation, String.ofList arguments,
      String.ofList decoder⟩
  | [] => none

/-- Reads the members of a class, each behind its first line. -/
def readMembers? {α : Type} (readBody? : List (List Char) → Option α) :
    List (List Char) → Option (List (Head × α))
  | [] => some []
  | line :: rest =>
    match readHead? line with
    | none => readMembers? readBody? rest
    | some head => do
      let body ← readBody? rest
      let members ← readMembers? readBody? rest
      return (head, body) :: members

/-- Reads the constant with the script hash. -/
def readHashConstant? (line : List Char) : Option String := do
  let s ← after? "  static readonly SCRIPT_HASH: Hash160 = ".toList line
  let value ← before? ";".toList s
  return String.ofList value

/-- Reads the first line of a constructor: what it takes for a missing script hash, if anything. -/
def readHashDefault? (line : List Char) : Option (Option String) := do
  let s ← after? "  constructor(invoker: ContractInvoker, ".toList line
  let s ← after? "scriptHash: Hash160".toList s
  let s ← before? ") \x7b".toList s
  if s = [] then
    return none
  let value ← after? " = ".toList s
  return some (String.ofList value)

/-- Whether a line begins like the first line of a class. -/
def startsClass (line : List Char) : Bool :=
  (after? "export class ".toList line).isSome

/-- The lines of a module from the first line of its first class on. -/
def classLines (text : String) : List (List Char) :=
  (Text.splitOn '\n' text.toList).dropWhile fun line ↦ !startsClass line

/-- Reads the class of a module. Its fields and its constructor end at the first closing brace of a
member. -/
def readClass? {α : Type} (readBody? : List (List Char) → Option α) (text : String) :
    Option (ClassText α) :=
  match classLines text with
  | [] => none
  | head :: body => do
    let s ← after? "export class ".toList head
    let name ← before? " \x7b".toList s
    let fields := body.takeWhile (· ≠ "  \x7d".toList)
    let hashDefault ← fields.findSome? readHashDefault?
    let members ← readMembers? readBody? body
    return ⟨String.ofList name, fields.findSome? readHashConstant?, hashDefault, members⟩

/-- A field of a descriptor and its expression, which the name of the field may stand for. -/
def shorthand (s : String) : String × String :=
  match readField? s.toList with
  | some (name, value) => (String.ofList name, String.ofList value)
  | none => (s, s)

/-- Reads the generic method from its first line and the line behind it. -/
def readTemplate? (head body : List Char) : Option Generic := do
  let s ← after? "  protected invokeMethod<".toList head
  let (typeParameter, s) ← upTo? '>' s
  let s ← after? "(".toList s
  let (parameters, _) ← upTo? ')' s
  let s ← after? "    return this.invoker.invoke<".toList body
  let (typeArgument, s) ← upTo? '>' s
  let s ← after? "(\x7b ".toList s
  let (fields, s) ← upTo? '\x7d' s
  let fields ← before? " ".toList fields
  let s ← after? ", ".toList s
  let decoder ← before? ");".toList s
  return ⟨String.ofList typeParameter,
    (splitItems '<' '>' parameters).map fun p ↦ (shorthand p).1,
    ⟨String.ofList typeArgument, (splitItems '(' ')' fields).map shorthand, String.ofList decoder⟩⟩

/-- Reads the first generic method among some lines. -/
def readGeneric? : List (List Char) → Option Generic
  | head :: body :: rest => (readTemplate? head body).or (readGeneric? (body :: rest))
  | _ => none

end ContractBindings.Module
