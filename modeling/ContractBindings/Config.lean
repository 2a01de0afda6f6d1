import ContractBindings.Node.Endpoint
import ContractBindings.Text.Space
import ContractBindings.Word
import ContractBindings.Yaml.Node

/-!
# Configuration files

A configuration file is a YAML mapping that may set the output directory and how nodes are
reached. Keys that are not known are ignored, those that are known may occur once. Nothing at all
in place of a mapping is an empty one, but a written null is not.
-/

namespace ContractBindings

/-- The settings of a configuration file. -/
structure Config where
  outputDirectory : Option String
  node : NodeSettings
  deriving DecidableEq

/-- Why a configuration file has no settings. -/
inductive ConfigError where
  | unreadable (path : String) (fault : Files.Fault)
  | notYaml (fault : Yaml.Fault)
  | wrongShape
  deriving DecidableEq

/-- The wording of a configuration error. What is wrong with the format is not told. -/
def ConfigError.message : ConfigError → String
  | unreadable path fault => "Failed to read config file " ++ path ++ ": " ++ fault.message
  | notYaml _ | wrongShape => "Invalid config format"

/-- The fault that a configuration error rests on, if it has one of its own. -/
def ConfigError.cause? : ConfigError → Option Files.Fault
  | unreadable _ fault => some fault
  | _ => none

namespace Yaml

/-- Readers of nodes of a shape, in a document with the given anchors. -/
abbrev NodeShape (α : Type) := List (Nat × Node) → Node → Option α

namespace Node

/-- The node itself, or the one that an alias stands for. -/
def resolve (anchored : List (Nat × Node)) : Node → Node
  | .alias number => (anchored.lookup number).getD void
  | node => node

/-- The text of a scalar of any style. -/
def text? : NodeShape String := fun anchored node ↦
  match node.resolve anchored with
  | scalar _ _ value => some value
  | _ => none

/-- The entries of a mapping. No text at all stands for an empty one. -/
def entries? : NodeShape (List (Node × Node)) := fun anchored node ↦
  match node.resolve anchored with
  | mapping entries => some entries
  | void => some []
  | scalar .plain _ "" => some []
  | _ => none

/-- The spellings of null. -/
def isNull (value : String) : Bool :=
  ["null", "Null", "NULL", "~"].contains value

/-- The tag of null. -/
def nullTag : String := "tag:yaml.org,2002:null"

/-- The tag of integers. -/
def intTag : String := "tag:yaml.org,2002:int"

/-- A text that may be left out: null, or the text of a scalar. -/
def optionalText? : NodeShape (Option String) := fun anchored node ↦
  match node.resolve anchored with
  | void => some none
  | scalar .plain none value => some (if value.isEmpty || isNull value then none else some value)
  | scalar .plain (some tag) value =>
    if tag = nullTag then (if isNull value then some none else none) else some (some value)
  | scalar _ _ value => some (some value)
  | _ => none

/-- The number that a plain scalar spells: decimal without leading zeros, or with the mark of
another base; a plus sign may stand in front. -/
def spelled? (value : List Char) : Option Nat :=
  let unsigned := match value with
    | '+' :: rest => rest
    | rest => rest
  let marked := match unsigned with
    | '0' :: 'x' :: rest => Hex.number? 16 rest
    | '0' :: 'o' :: rest => Hex.number? 8 rest
    | '0' :: 'b' :: rest => Hex.number? 2 rest
    | _ => none
  marked.or <|
    if 1 < unsigned.length && unsigned.head? == some '0' then none else Hex.number? 10 unsigned

/-- A number of 64 bits without sign. -/
def natural64? : NodeShape Nat := fun anchored node ↦ do
  let bounded (value : String) : Option Nat := do
    let n ← spelled? value.toList
    if n < Word.count64 then some n else none
  match node.resolve anchored with
  | scalar .plain _ value => bounded value
  | scalar .literal (some tag) value => if tag = intTag then bounded value else none
  | _ => none

/-- The field `name` of entries whose keys have been read, if it occurs; twice is too often. -/
def field? {α : Type} (anchored : List (Nat × Node)) (entries : List (String × Node))
    (name : String) (shape : NodeShape α) : Option (Option α) :=
  match entries.filter (·.1 == name) with
  | [] => some none
  | [(_, value)] => some <$> shape anchored value
  | _ => none

/-- Entries with their keys read as text. -/
def named? (anchored : List (Nat × Node)) (entries : List (Node × Node)) :
    Option (List (String × Node)) :=
  entries.mapM fun (key, value) ↦ do return (← text? anchored key, value)

end Node

end Yaml

namespace NodeSettings

open Yaml

/-- The shape of a mapping of names to texts, the last of equal names winning. -/
def endpointsShape : NodeShape (Members String) := fun anchored node ↦ do
  let entries ← Node.named? anchored (← node.entries? anchored)
  let endpoints ← entries.mapM fun (name, value) ↦ do return (name, ← value.text? anchored)
  return Members.ofList endpoints

/-- The shape of node settings; what is left out has its default. -/
def shape : NodeShape NodeSettings := fun anchored node ↦ do
  let entries ← Node.named? anchored (← node.entries? anchored)
  let endpoints ← Node.field? anchored entries "endpoints" endpointsShape
  let timeout ← Node.field? anchored entries "timeout-seconds" Node.natural64?
  return ⟨endpoints.getD default.endpoints, timeout.getD default.timeoutSeconds⟩

end NodeSettings

namespace Config

open Yaml

/-- The settings without a configuration file. -/
def default : Config := ⟨none, NodeSettings.default⟩

/-- The shape of a configuration; what is left out has its default. -/
def shape : NodeShape Config := fun anchored node ↦ do
  let entries ← Node.named? anchored (← node.entries? anchored)
  let out ← Node.field? anchored entries "out" Node.optionalText?
  let rpc ← Node.field? anchored entries "rpc" NodeSettings.shape
  return ⟨out.getD none, rpc.getD NodeSettings.default⟩

/-- The settings that a text gives. -/
def parse (text : String) : Except ConfigError Config :=
  if Text.isBlank text then .ok default
  else match Document.parse text with
    | .error fault => .error (.notYaml fault)
    | .ok document =>
      match shape document.anchored document.root with
      | some config => .ok config
      | none => .error .wrongShape

end Config

end ContractBindings
