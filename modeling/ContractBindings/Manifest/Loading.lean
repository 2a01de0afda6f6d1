import ContractBindings.Contract
import ContractBindings.Manifest.Document
import ContractBindings.Manifest.Warned
import ContractBindings.Options

/-!
# Loading manifests

Loading turns a document into the interface of a contract or finds its first fault. Faults of the
whole document come first, then those of the methods and then those of the events, entry by
entry; within an entry its shape comes before its name, its name before its parameters' types
from left to right, and these before the type of its result. The overrides of the options apply
here, so that nothing later depends on where a name or a hash came from.
-/

namespace ContractBindings.Manifest

/-- A fault of the shape of a part of a manifest. -/
def shaped {α : Type} (place : ManifestPlace) (r : Except Json.ShapeFault α) : Warned α :=
  .ofResult (r.mapError fun fault ↦ .malformedManifest place (.shape fault))

/-- The type that a descriptor writes. A name that is no type's stands for any type if the options
say so. -/
def loadType (options : Options) (place : TypePlace) (descriptor : String) : Warned AbiType :=
  match AbiType.parse descriptor with
  | .ok type => pure type
  | .error error =>
    match error.fault with
    | .unknownName name =>
      if options.allowUnknownTypes then .warn ⟨place, name⟩ (.scalar .any)
      else .fail (.unsupportedType place descriptor (.unknownName name))
    | _ => .fail (.malformedType place descriptor (.descriptor error))

/-- The parameters that records describe; `place` says where the type of each stands. -/
def loadParameters (options : Options) (place : Nat → String → TypePlace)
    (records : List ParameterRecord) : Warned (List Parameter) :=
  records.zipIdx.mapM fun (record, index) ↦ do
    let type ← loadType options (place index record.name) record.type
    return ⟨record.name, type, index⟩

/-- The method that an entry of the list of methods describes. -/
def loadMethod (options : Options) (index : Nat) (entry : Json) : Warned Method := do
  let record ← shaped (.method index) (MethodRecord.shape entry)
  if Text.isBlank record.name then
    Warned.fail (.malformedManifest (.method index) .blankMethodName)
  else
    let parameters ← loadParameters options (.parameter record.name) record.parameters
    let returnType ← loadType options (.returnValue record.name) record.returnType
    return ⟨record.name, parameters, returnType, record.safe, record.offset⟩

/-- The event that an entry of the list of events describes. -/
def loadEvent (options : Options) (index : Nat) (entry : Json) : Warned Event := do
  let record ← shaped (.event index) (EventRecord.shape entry)
  if Text.isBlank record.name then
    Warned.fail (.malformedManifest (.event index) .blankEventName)
  else
    let parameters ← loadParameters options (.eventParameter record.name) record.parameters
    return ⟨record.name, parameters⟩

/-- The members of a document's body. -/
def bodyMembers (body : Json) : Warned (List (String × Json)) :=
  match body with
  | .object members => pure members
  | _ => .fail (.malformedManifest .document .notObject)

/-- The name of the contract: the chosen one, or that of the manifest unless it is blank. -/
def contractName (options : Options) (record : ManifestRecord) : Warned String :=
  match options.nameOverride with
  | some name => pure name
  | none =>
    if Text.isBlank record.name then .fail (.malformedManifest .name .blankContractName)
    else pure record.name

/-- The script hash of the contract: the chosen one before the one that the source implies. -/
def contractHash (options : Options) (document : Document) : Warned (Option ScriptHash) :=
  let hash := options.hashOverride.or document.sourceHash
  if options.embedHash && hash.isNone then .fail .missingHash else pure hash

/-- The interface that a document describes. -/
def load (options : Options) (document : Document) : Warned Contract := do
  let members ← bodyMembers document.body
  let record ← shaped .document (ManifestRecord.ofMembers members)
  let name ← contractName options record
  let scriptHash ← contractHash options document
  let methods ← record.abi.methods.zipIdx.mapM fun (entry, index) ↦
    loadMethod options index entry
  let events ← record.abi.events.zipIdx.mapM fun (entry, index) ↦ loadEvent options index entry
  return { name, scriptHash, supportedStandards := record.supportedStandards, methods, events }

end ContractBindings.Manifest
