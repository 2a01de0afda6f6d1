import ContractBindings.Module.Client

/-!
# Implementation modules

An implementation module holds a class with the same members as the client class, all of which
call through one generic method. It imports from the client module what it refers to, values and
types apart.
-/

namespace ContractBindings.Module

open Binding

/-- The name of the class of an implementation module. -/
def implementationClass (p : Plan) : String :=
  implementationName p.className

/-- The values that an implementation module imports. -/
def importedValues (p : Plan) : List String :=
  (if p.methods.any (fun m ↦ !m.parameters.isEmpty) then ["Encode"] else []) ++
  (if p.embedHash && p.scriptHash.isSome then [p.className] else [])

/-- The types that an implementation module imports, in the order of their names. -/
def importedTypes (p : Plan) : List String :=
  ["ContractArg", "ContractInvoker"] ++
  (aliased.filter fun s ↦ s == .hash160 || p.aliases.contains s).map Scalar.name ++
  ["ResultDecoder"]

/-- The lines that import names from the client module. -/
def importLines (p : Plan) : Lines :=
  let source := Json.stringLiteral ("./" ++ p.className)
  let values := importedValues p
  (if values.isEmpty then []
    else ["import \x7b " ++ ", ".intercalate values ++ " \x7d from " ++ source ++ ";"]) ++
  ["import type \x7b " ++ ", ".intercalate (importedTypes p) ++ " \x7d from " ++ source ++ ";"]

/-- The method that all members call through. -/
def genericMember : Lines :=
  ["  protected invokeMethod<T>(operation: string, args: ContractArg[], decoder: ResultDecoder)" ++
      ": Promise<T> \x7b",
    "    return this.invoker.invoke<T>(\x7b scriptHash: this.scriptHash, operation, args \x7d, " ++
      "decoder);",
    "  \x7d"]

/-- A member of the implementation class. -/
def implementationMember (m : PlannedMethod) : Lines :=
  memberDoc m ++
  [memberHead m,
    "    return this.invokeMethod<" ++ m.result.typeExpr.text ++ ">(" ++
      Json.stringLiteral m.operation ++ ", " ++ m.arguments ++ ", " ++ m.result.decoder.text ++
      ");",
    "  \x7d"]

/-- The lines of the implementation module. -/
def implementationLines (p : Plan) : Lines :=
  header p "generic invoker implementation" ++
  importLines p ++
  ["", classHead (implementationClass p)] ++
  classFields p (implementationClass p) ++
  [""] ++ genericMember ++
  p.methods.flatMap (fun m ↦ "" :: implementationMember m) ++
  ["\x7d"]

end ContractBindings.Module
