import ContractBindings.Files.Fault

/-!
# Faults of fetching

Why no manifest text could be had from a file or a node.
-/

namespace ContractBindings

/-- Why a manifest could not be fetched. -/
inductive FetchError where
  | notFound (path : String)
  | unreadable (path : String) (fault : Files.Fault)
  /-- The node answered with a status other than success, or, with status 0, not at all. -/
  | http (status : Nat) (detail : String)
  /-- The node answered with an error of its own. -/
  | rpc (code : Int) (message : String)
  /-- The answer of the node is not one to the question. -/
  | answer (reason : String)
  | unknownNetwork (name : String)
  deriving DecidableEq, Repr

/-- The wording of a fetch error. -/
def FetchError.message : FetchError → String
  | notFound path => "manifest not found: " ++ path
  | unreadable path fault => "failed to read '" ++ path ++ "': " ++ fault.message
  | http status detail => s!"HTTP error {status}: " ++ detail
  | rpc code message => s!"RPC error {code}: " ++ message
  | answer reason => "invalid node response: " ++ reason
  | unknownNetwork name =>
    "unknown network '" ++ name ++ "'; pass a URL or configure the alias under rpc.endpoints"

/-- The fault that a fetch error rests on, if it has one of its own. -/
def FetchError.cause? : FetchError → Option Files.Fault
  | unreadable _ fault => some fault
  | _ => none

end ContractBindings
