import ContractBindings.Module.Implementation

/-!
# Generating modules

The modules of a contract are written from its plan: the client module, and the implementation
module if the options ask for it. A plan is made only when a hash that is to be embedded is known.
-/

namespace ContractBindings

/-- A module and the name of its file. -/
structure SourceModule where
  fileName : String
  text : String
  deriving DecidableEq, Repr

namespace Module

open Binding

/-- The client module of a plan. -/
def client (p : Plan) : SourceModule :=
  ⟨p.className ++ ".ts", (clientLines p).text⟩

/-- The implementation module of a plan. -/
def implementation (p : Plan) : SourceModule :=
  ⟨implementationClass p ++ ".ts", (implementationLines p).text⟩

/-- The modules of a plan. -/
def modules (options : Options) (p : Plan) : List SourceModule :=
  client p :: if options.withImplementation then [implementation p] else []

/-- The plan for a contract whose hash is known if it is to be embedded. -/
def planChecked (options : Options) (c : Contract) : Except GenerationError Plan :=
  if options.embedHash && c.scriptHash.isNone then .error .missingHash else plan options c

/-- The modules of a contract. -/
def generate (options : Options) (c : Contract) : Except GenerationError (List SourceModule) := do
  return modules options (← planChecked options c)

end Module

end ContractBindings
