import ContractBindings.Module.Prelude

/-!
# Names that are taken

What an identifier may look like, and the names that mean something else where it would stand:
the reserved words of the language for every identifier, the members that every class declares
for methods, and the exports and globals that modules refer to for classes.
-/

namespace ContractBindings.Identifier

/-- What an identifier names. -/
inductive Kind where
  | contract
  | method
  /-- The parameter at an index of a list of parameters. -/
  | parameter (position : Nat)
  deriving DecidableEq, Repr

/-- Whether a character may start an identifier. -/
def isStart (c : Char) : Bool :=
  c.isAlpha || c == '_' || c == '$'

/-- Whether a character may stand in an identifier after the first. -/
def isPart (c : Char) : Bool :=
  c.isAlphanum || c == '_' || c == '$'

/-- Whether a text is spelled like an identifier. -/
def isLegalChars : List Char → Bool
  | [] => false
  | c :: rest => isStart c && rest.all isPart

/-- Whether a text is spelled like an identifier. -/
def isLegal (name : String) : Bool :=
  isLegalChars name.toList

/-- Words of the language that name no binding. -/
def reservedWords : List String :=
  ["arguments", "await", "break", "case", "catch", "class", "const", "continue", "debugger",
    "default", "delete", "do", "else", "enum", "eval", "export", "extends", "false", "finally",
    "for", "function", "if", "implements", "import", "in", "instanceof", "interface", "let",
    "new", "null", "package", "private", "protected", "public", "return", "static", "super",
    "switch", "this", "throw", "true", "try", "typeof", "undefined", "var", "void", "while",
    "with", "yield"]

/-- Globals that modules refer to, which a class of the same name would hide. -/
def globals : List String :=
  ["Array", "BigInt", "Map", "Object", "Promise", "Uint8Array"]

/-- Members that every class declares. -/
def classMembers : List String :=
  ["constructor", "invoker", "scriptHash", "invokeMethod"]

/-- The names that an identifier of a kind may not be. -/
def Kind.reserved : Kind → List String
  | contract => reservedWords ++ Module.preludeExports ++ globals
  | method => reservedWords ++ classMembers
  | parameter _ => reservedWords

/-- Whether a name may not be an identifier of a kind. -/
def isReserved (kind : Kind) (name : String) : Bool :=
  kind.reserved.contains name

end ContractBindings.Identifier
