import ContractBindings.Json.Record
import ContractBindings.Json.Writer
import ContractBindings.Node.Fault

/-!
# Answers of nodes

A node answers a question with a result or an error. If both are there the error counts. Of the
result, which describes the state of a contract, only the manifest is of interest. It is a value
of its own or, with some nodes, the text of one.
-/

namespace ContractBindings

open Json

/-- An error that a node answers with. -/
structure NodeError where
  code : Int
  message : String
  deriving DecidableEq, Repr

/-- A field of an error. -/
inductive NodeError.Field where
  | code (value : Int)
  | message (value : String)

/-- The shape of an error. -/
def NodeError.shape : RecordShape NodeError.Field NodeError where
  wanted := "struct JsonRpcError"
  fields :=
    [("code", fun s ↦ return (← FieldReader.integer64 s).map .code),
      ("message", fun s ↦ return (← FieldReader.string s).map .message)]
  assemble := fun fields ↦ do
    let code := fields.findSome? fun
      | (_, .code value) => some value
      | _ => none
    let message := fields.findSome? fun
      | (_, .message value) => some value
      | _ => none
    return ⟨← Shape.required "code" code, ← Shape.required "message" message⟩

/-- How many containers may be open in a manifest, which lies in two others. -/
def manifestDepth : Nat := greatestDepth - 2

/-- The shape of the state of a contract, of which only the manifest is kept. -/
def contractStateShape : RecordShape (Option Json) (Option Json) where
  wanted := "struct ContractState"
  fields := [("manifest", .optional (.any manifestDepth))]
  assemble := fun fields ↦ .ok (fields.lookup "manifest").join

/-- An answer of a node. -/
structure NodeAnswer where
  /-- The manifest, if there is a result and the result has one. -/
  manifest : Option Json
  error : Option NodeError

/-- A field of an answer. -/
inductive NodeAnswer.Field where
  | result (manifest : Option Json)
  | error (error : Option NodeError)

/-- The shape of an answer. -/
def NodeAnswer.shape : RecordShape NodeAnswer.Field NodeAnswer where
  wanted := "struct JsonRpcResponse"
  fields :=
    [("result", fun s ↦
        return (← FieldReader.optional contractStateShape.read s).map (.result ·.join)),
      ("error", fun s ↦ return (← FieldReader.optional NodeError.shape.read s).map .error)]
  assemble := fun fields ↦
    let manifest := fields.findSome? fun
      | (_, .result manifest) => some manifest
      | _ => none
    let error := fields.findSome? fun
      | (_, .error error) => some error
      | _ => none
    .ok ⟨manifest.join, error.join⟩

/-- The answer that a body writes. -/
def NodeAnswer.parse (body : String) : Except RecordError NodeAnswer :=
  parseRecord shape body

/-- The text of a manifest. -/
def manifestText : Json → String
  | .string text => text
  | value => value.text

/-- The text of the manifest that an answer carries. -/
def NodeAnswer.content (answer : NodeAnswer) : Except FetchError String :=
  match answer.error, answer.manifest with
  | some error, _ => .error (.rpc error.code error.message)
  | none, some manifest => .ok (manifestText manifest)
  | none, none => .error (.answer "response carries no contract manifest")

/-- The text of the manifest that a body carries. -/
def readManifest (body : String) : Except FetchError String :=
  match NodeAnswer.parse body with
  | .ok answer => answer.content
  | .error error => .error (.answer (error.message RecordFault.message))

end ContractBindings
