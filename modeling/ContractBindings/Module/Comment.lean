import ContractBindings.Binding.Plan
import ContractBindings.Module.Lines

/-!
# Comments

Text from a manifest stands in comments only after every `*/` in it is broken up and every line
break is a space, so that it can neither end its comment nor its line.
-/

namespace ContractBindings.Module

/-- A text made safe to stand in a block comment. -/
def sanitizeChars : List Char → List Char
  | '*' :: '/' :: rest => '*' :: '\\' :: '/' :: sanitizeChars rest
  | c :: rest => (if c = '\r' ∨ c = '\n' then ' ' else c) :: sanitizeChars rest
  | [] => []

/-- A text made safe to stand in a block comment. -/
def sanitize (s : String) : String :=
  String.ofList (sanitizeChars s.toList)

/-- A comment that is a line of its own. -/
def comment (content : String) : String :=
  "/* " ++ content ++ " */"

/-- A block of documentation behind an indent. -/
def docBlock (indent : String) (lines : List String) : Lines :=
  (indent ++ "/**") :: lines.map (fun line ↦ indent ++ " * " ++ sanitize line) ++
    [indent ++ " */"]

/-- The name of the tool, as modules give it. -/
def toolName : String := "n3-typegen"

/-- The comments at the top of a module that is described as `description`. -/
def header (p : Binding.Plan) (description : String) : Lines :=
  [comment ("Auto-generated by " ++ toolName ++ ": " ++ description),
    comment ("WARNING: Do not modify this file directly. It is generated from the contract " ++
      "manifest."),
    comment ("Contract: " ++ sanitize p.manifestName)] ++
    (if p.supportedStandards.isEmpty then []
      else [comment ("Supported standards: " ++
        sanitize (", ".intercalate p.supportedStandards))]) ++
    (p.scriptHash.map fun hash ↦ comment ("Script hash: " ++ hash.text)).toList ++
    [""]

end ContractBindings.Module
