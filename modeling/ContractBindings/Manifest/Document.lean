import ContractBindings.Error
import ContractBindings.Json.Reader

/-!
# Manifest documents

The parts of a manifest that bindings are made from, as records of uninterpreted text. Entries of
the lists of methods and events stay values until they are looked at one by one, so that a fault
in one is attributed to it.
-/

namespace ContractBindings.Manifest

open Json

/-- A manifest as it was fetched. -/
structure Document where
  body : Json
  /-- The script hash that is implied by where the manifest was found. -/
  sourceHash : Option ScriptHash

/-- The document that a JSON text writes. -/
def Document.parse (text : String) (sourceHash : Option ScriptHash) :
    Except GenerationError Document :=
  match Json.parse text with
  | .ok body => .ok ⟨body, sourceHash⟩
  | .error error => .error (.malformedManifest .document (.notJson error))

/-- A parameter with the descriptor of its type. -/
structure ParameterRecord where
  name : String
  type : String
  deriving DecidableEq, Repr

/-- A method with the descriptors of its types. -/
structure MethodRecord where
  name : String
  parameters : List ParameterRecord
  returnType : String
  safe : Bool
  offset : Option UInt32
  deriving DecidableEq, Repr

/-- An event with the descriptors of its types. -/
structure EventRecord where
  name : String
  parameters : List ParameterRecord
  deriving DecidableEq, Repr

/-- The interface of a contract, its entries not yet looked at. -/
structure AbiRecord where
  methods : List Json
  events : List Json

/-- A manifest, its entries not yet looked at. -/
structure ManifestRecord where
  name : String
  supportedStandards : List String
  abi : AbiRecord

/-- The shape of a parameter. -/
def ParameterRecord.shape : Shape ParameterRecord
  | .object members => do
    let name ← Shape.field? members "name" .string
    let type ← Shape.field? members "type" .string
    return ⟨← Shape.required "name" name, ← Shape.required "type" type⟩
  | .array elements => do
    let wanted := "struct RawParameter with 2 elements"
    let name ← Shape.element elements 0 wanted .string
    let type ← Shape.element elements 1 wanted .string
    Shape.noMore elements 2
    return ⟨name, type⟩
  | value => Shape.refuse "struct RawParameter" value

/-- The shape of a method. -/
def MethodRecord.shape : Shape MethodRecord
  | .object members => do
    let name ← Shape.field? members "name" .string
    let offset ← Shape.field? members "offset" (.optional .natural32)
    let parameters ← Shape.field? members "parameters" (.list ParameterRecord.shape)
    let returnType ← Shape.field? members "returntype" .string
    let safe ← Shape.field? members "safe" .bool
    return {
      name := ← Shape.required "name" name
      parameters := ← Shape.required "parameters" parameters
      returnType := ← Shape.required "returntype" returnType
      safe := safe.getD false
      offset := offset.getD none }
  | .array elements => do
    let wanted := "struct RawMethod with 5 elements"
    let name ← Shape.element elements 0 wanted .string
    let parameters ← Shape.element elements 1 wanted (.list ParameterRecord.shape)
    let returnType ← Shape.element elements 2 wanted .string
    let safe ← Shape.element? elements 3 .bool
    let offset ← Shape.element? elements 4 (.optional .natural32)
    Shape.noMore elements 5
    return ⟨name, parameters, returnType, safe.getD false, offset.getD none⟩
  | value => Shape.refuse "struct RawMethod" value

/-- The shape of an event. -/
def EventRecord.shape : Shape EventRecord
  | .object members => do
    let name ← Shape.field? members "name" .string
    let parameters ← Shape.field? members "parameters" (.list ParameterRecord.shape)
    return ⟨← Shape.required "name" name, parameters.getD []⟩
  | .array elements => do
    let name ← Shape.element elements 0 "struct RawEvent with 2 elements" .string
    let parameters ← Shape.element? elements 1 (.list ParameterRecord.shape)
    Shape.noMore elements 2
    return ⟨name, parameters.getD []⟩
  | value => Shape.refuse "struct RawEvent" value

/-- The shape of an interface. -/
def AbiRecord.shape : Shape AbiRecord
  | .object members => do
    let events ← Shape.field? members "events" (.list .any)
    let methods ← Shape.field? members "methods" (.list .any)
    return ⟨← Shape.required "methods" methods, events.getD []⟩
  | .array elements => do
    let methods ← Shape.element elements 0 "struct RawAbi with 2 elements" (.list .any)
    let events ← Shape.element? elements 1 (.list .any)
    Shape.noMore elements 2
    return ⟨methods, events.getD []⟩
  | value => Shape.refuse "struct RawAbi" value

/-- The shape of the members of a manifest. -/
def ManifestRecord.ofMembers (members : List (String × Json)) :
    Except ShapeFault ManifestRecord := do
  let abi ← Shape.field? members "abi" AbiRecord.shape
  let name ← Shape.field? members "name" .string
  let standards ← Shape.field? members "supportedstandards" (.list .string)
  return {
    name := ← Shape.required "name" name
    supportedStandards := standards.getD []
    abi := ← Shape.required "abi" abi }

end ContractBindings.Manifest
