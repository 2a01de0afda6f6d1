import ContractBindings.Error
import ContractBindings.Identifier.Reserved
import ContractBindings.Identifier.Words

/-!
# Identifiers from names

Every name of a manifest gives an identifier of each kind: its words are joined in the case of
the kind, a stand-in replaces a name without words, and an underscore is put in front of a digit
and behind a reserved name. A name that the user chose is taken as it is or refused.
-/

namespace ContractBindings.Identifier

/-- The words of a name joined in the case of a kind. -/
def Kind.join : Kind → List (List Char) → List Char
  | contract, words => pascalCase words
  | method, words => camelCase words
  | parameter _, words => camelCase words

/-- The identifier for a name without words. -/
def Kind.standIn : Kind → String
  | contract => "Contract"
  | method => "method"
  | parameter position => "arg" ++ toString position

/-- Puts an underscore in front of a digit. -/
def guardDigit : List Char → List Char
  | [] => []
  | c :: rest => if c.isDigit then '_' :: c :: rest else c :: rest

/-- The spelling of an identifier, before reserved names are avoided. -/
def spell (kind : Kind) (raw : String) : String :=
  match kind.join (splitWords raw.toList) with
  | [] => kind.standIn
  | joined => String.ofList (guardDigit joined)

/-- The identifier of a kind that a name gives. -/
def derive (kind : Kind) (raw : String) : String :=
  let name := spell kind raw
  if isReserved kind name then name ++ "_" else name

/-- The identifier of a kind that the user chose. -/
def choose (kind : Kind) (name : String) : Except GenerationError String :=
  if isLegal name && !isReserved kind name then .ok name else .error (.invalidIdentifier name)

/-- The identifier of a kind: the chosen one, or the one that the name gives. -/
def resolve (kind : Kind) (raw : String) (chosen : Option String) :
    Except GenerationError String :=
  match chosen with
  | some name => choose kind name
  | none => .ok (derive kind raw)

end ContractBindings.Identifier
