import ContractBindings.AbiType.Descriptor
import ContractBindings.Json.Fault
import ContractBindings.Json.Shape

/-!
# Faults of manifests

What can be wrong with a manifest, and the places that a fault is attributed to: an entry of the
document for its shape, a parameter or result for its type.
-/

namespace ContractBindings

/-- The place of a type in a manifest. -/
inductive TypePlace where
  | parameter (method : String) (index : Nat) (name : String)
  | returnValue (method : String)
  | eventParameter (event : String) (index : Nat) (name : String)
  deriving DecidableEq, Repr

/-- The wording of a place. -/
def TypePlace.text : TypePlace → String
  | parameter method index name =>
    "method '" ++ method ++ s!"' parameter #{index} ('" ++ name ++ "')"
  | returnValue method => "method '" ++ method ++ "' return value"
  | eventParameter event index name =>
    "event '" ++ event ++ s!"' parameter #{index} ('" ++ name ++ "')"

/-- The part of a manifest that has a fault. -/
inductive ManifestPlace where
  | document
  | name
  | method (index : Nat)
  | event (index : Nat)
  deriving DecidableEq, Repr

/-- The wording of a part of a manifest. -/
def ManifestPlace.text : ManifestPlace → String
  | document => "manifest"
  | name => "name"
  | method index => s!"abi.methods[{index}]"
  | event index => s!"abi.events[{index}]"

/-- What is wrong with a part of a manifest. -/
inductive ManifestFault where
  | notJson (error : Json.TextError)
  | notObject
  | shape (fault : Json.ShapeFault)
  | blankContractName
  | blankMethodName
  | blankEventName
  deriving DecidableEq

/-- The wording of what is wrong. -/
def ManifestFault.message : ManifestFault → String
  | notJson error => "invalid JSON: " ++ error.message Json.Fault.message
  | notObject => "expected a JSON object"
  | shape fault => fault.message
  | blankContractName => "contract name is empty"
  | blankMethodName => "method name is empty"
  | blankEventName => "event name is empty"

/-- Why a type has no counterpart in the modules. -/
inductive Unsupported where
  | unknownName (name : String)
  | voidInContainer
  | voidValue
  | keyNotPrimitive (key : AbiType)
  deriving DecidableEq

/-- The wording of why a type has no counterpart. -/
def Unsupported.message : Unsupported → String
  | unknownName name => "unknown type name '" ++ name ++ "'"
  | voidInContainer => "Void cannot appear inside a container"
  | voidValue => "Void is not a value type"
  | keyNotPrimitive key => "map key must be a primitive type, found " ++ key.text

/-- Why a type is not well-formed. -/
inductive Malformed where
  /-- Its descriptor cannot be read. -/
  | descriptor (error : DescriptorError)
  /-- It has more levels than `AbiType.maxDepth`. -/
  | tooDeep
  deriving DecidableEq

/-- The wording of why a type is not well-formed. -/
def Malformed.message : Malformed → String
  | descriptor error => error.message
  | tooDeep => s!"nesting exceeds {AbiType.maxDepth} levels"

end ContractBindings
