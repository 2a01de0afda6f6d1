import ContractBindings.Manifest.Fault
import ContractBindings.Node.Fault
import ContractBindings.ScriptHash

/-!
# Errors of a generation

The errors that end a generation, by cause. The first one met is the one reported.
-/

namespace ContractBindings

/-- Why a generation ends without modules. -/
inductive GenerationError where
  | malformedManifest (place : ManifestPlace) (fault : ManifestFault)
  /-- The type written `type` has no counterpart in the modules. -/
  | unsupportedType (place : TypePlace) (type : String) (reason : Unsupported)
  /-- The type written `type` is not well-formed. -/
  | malformedType (place : TypePlace) (type : String) (reason : Malformed)
  /-- A chosen name that cannot name the class. -/
  | invalidIdentifier (name : String)
  /-- The script hash is to be embedded and is not known. -/
  | missingHash
  /-- A chosen script hash that is none. -/
  | invalidHash (text : String) (reason : ScriptHashError)
  | fetch (error : FetchError)
  /-- The file or directory `path` could not be written. -/
  | write (path : String) (fault : Files.Fault)
  deriving DecidableEq

namespace GenerationError

/-- The wording of a generation error. -/
def message : GenerationError → String
  | malformedManifest place fault =>
    "malformed manifest at " ++ place.text ++ ": " ++ fault.message
  | unsupportedType place type reason =>
    "unsupported type '" ++ type ++ "' in " ++ place.text ++ ": " ++ reason.message
  | malformedType place type reason =>
    "malformed type '" ++ type ++ "' in " ++ place.text ++ ": " ++ reason.message
  | invalidIdentifier name => "invalid identifier '" ++ name ++ "'"
  | missingHash =>
    "hash embedding requested but no script hash is available; pass --hash or fetch the " ++
      "manifest from a node"
  | invalidHash text reason => "invalid script hash '" ++ text ++ "': " ++ reason.message
  | fetch error => error.message
  | write path fault => "failed to write '" ++ path ++ "': " ++ fault.message

/-- The fault that an error rests on, if it has one of its own. -/
def cause? : GenerationError → Option Files.Fault
  | fetch error => error.cause?
  | write _ fault => some fault
  | _ => none

end GenerationError

end ContractBindings
