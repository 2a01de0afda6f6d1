import ContractBindings.Json.Writer
import ContractBindings.Module.Comment
import ContractBindings.Module.Prelude

/-!
# Client modules

A client module holds the prelude, an interface for each event with the table of events, and a
class with a member for each method. A member passes the call it makes to the invoker in one
piece.
-/

namespace ContractBindings.Module

open Binding

/-- The constant that a class with an embedded hash declares, if any. The implementation class
refers to that of the client class. -/
def hashConstant? (p : Plan) (className : String) : Option String :=
  if p.embedHash then
    p.scriptHash.map fun hash ↦
      if className = p.className then Json.stringLiteral hash.text
      else p.className ++ ".SCRIPT_HASH"
  else none

/-- The constant, the fields and the constructor of a class. -/
def classFields (p : Plan) (className : String) : Lines :=
  let constant := hashConstant? p className
  let parameter :=
    if constant.isSome then "scriptHash: Hash160 = " ++ className ++ ".SCRIPT_HASH"
    else "scriptHash: Hash160"
  (match constant with
    | some value => ["  static readonly SCRIPT_HASH: Hash160 = " ++ value ++ ";", ""]
    | none => []) ++
  ["  private readonly invoker: ContractInvoker;",
    "  readonly scriptHash: Hash160;",
    "",
    "  constructor(invoker: ContractInvoker, " ++ parameter ++ ") \x7b",
    "    this.invoker = invoker;",
    "    this.scriptHash = scriptHash;",
    "  \x7d"]

/-- The first line of a member. -/
def memberHead (m : PlannedMethod) : String :=
  "  " ++ m.ident ++ "(" ++ m.declarations ++ "): Promise<" ++ m.result.typeExpr.text ++ "> \x7b"

/-- The documentation of a member. -/
def memberDoc (m : PlannedMethod) : Lines :=
  docBlock "  " m.description

/-- A member of the client class. -/
def clientMember (m : PlannedMethod) : Lines :=
  memberDoc m ++
  [memberHead m,
    "    return this.invoker.invoke<" ++ m.result.typeExpr.text ++ ">(",
    "      \x7b scriptHash: this.scriptHash, operation: " ++ Json.stringLiteral m.operation ++
      ", args: " ++ m.arguments ++ " \x7d,",
    "      " ++ m.result.decoder.text ++ ",",
    "    );",
    "  \x7d"]

/-- The interface for the payload of an event. -/
def eventInterface (e : PlannedEvent) : Lines :=
  docBlock "" ["Payload of the '" ++ e.rawName ++ "' event"] ++
  ["export interface " ++ e.interfaceName ++ " \x7b"] ++
  e.fields.map (fun field ↦ "  " ++ field.declaration ++ ";") ++
  ["\x7d"]

/-- The interfaces for events and the table of events. -/
def eventLines (p : Plan) : Lines :=
  p.events.flatMap (fun e ↦ eventInterface e ++ [""]) ++
  ["export const " ++ eventTableName p.className ++ " = \x7b"] ++
  p.events.map (fun e ↦ "  " ++ e.key ++ ": " ++ Json.stringLiteral e.rawName ++ ",") ++
  ["\x7d as const;"]

/-- The first line of a class. -/
def classHead (className : String) : String :=
  "export class " ++ className ++ " \x7b"

/-- The lines of the client module. -/
def clientLines (p : Plan) : Lines :=
  header p "typed contract client" ++
  prelude ++
  (if p.events.isEmpty then [] else "" :: eventLines p) ++
  ["", classHead p.className] ++
  classFields p p.className ++
  p.methods.flatMap (fun m ↦ "" :: clientMember m) ++
  ["\x7d"]

end ContractBindings.Module
