import ContractBindings.Binding.Plan
import ContractBindings.Manifest.Warned
import ContractBindings.Node.Request
import ContractBindings.Source

/-!
# Notices

What a run tells about itself while it goes on. A notice has a level, which says how much it
matters, and a target, which says which part of the program it comes from.
-/

namespace ContractBindings

/-! ### Levels -/

/-- How much a notice matters. -/
inductive Level where
  | error
  | warn
  | info
  | debug
  | trace
  deriving DecidableEq, Repr

namespace Level

/-- Levels are numbered from the most important one on. -/
def rank : Level → Nat
  | error => 1
  | warn => 2
  | info => 3
  | debug => 4
  | trace => 5

/-- The name of a level. -/
def name : Level → String
  | error => "ERROR"
  | warn => "WARN"
  | info => "INFO"
  | debug => "DEBUG"
  | trace => "TRACE"

/-- All levels, the most important one first. -/
def all : List Level := [error, warn, info, debug, trace]

end Level

/-! ### Notices -/

/-- A step of a run that is told. -/
inductive Notice where
  | fetching (source : ManifestSource)
  | asking (hash : ScriptHash)
  | answered (body : String)
  | fetched (location : String)
  | unknownType (warning : UnknownType)
  | loaded (contract : Contract)
  | planned (plan : Binding.Plan)
  | wrote (path : String)
  deriving DecidableEq

namespace Notice

/-- The level of a notice. -/
def level : Notice → Level
  | asking _ | answered _ => .trace
  | fetching _ | fetched _ | loaded _ | planned _ => .debug
  | unknownType _ => .warn
  | wrote _ => .info

/-- The part of the program that a notice comes from. -/
def target : Notice → String
  | fetching _ => "manifest_loader::fetcher"
  | asking _ | answered _ => "manifest_loader::fetcher::rpc"
  | fetched _ => "n3_typegen::generate"
  | unknownType _ | loaded _ => "manifest_loader::loader"
  | planned _ => "binding_gen::codegen"
  | wrote _ => "binding_gen::writer"

/-- The wording of a notice. -/
def message : Notice → String
  | fetching source => "fetching manifest from " ++ source.text
  | asking hash =>
    "request: JsonRpcRequest \x7b jsonrpc: \"2.0\", id: 1, method: " ++
      Text.quoted NodeRequest.method ++ ", params: Array [String(" ++ Text.quoted hash.text ++
      ")] \x7d"
  | answered body => "response: " ++ Text.quoted body
  | fetched location => "fetched manifest from " ++ location
  | unknownType warning => warning.message
  | loaded contract =>
    "loaded manifest '" ++ contract.name ++ "': " ++ toString contract.methods.length ++
      " method(s) (" ++ toString contract.safeMethods.length ++ " safe), " ++
      toString contract.events.length ++ " event(s), script hash " ++
      (contract.scriptHash.map ScriptHash.text).getD "<none>"
  | planned plan =>
    "binding plan for '" ++ plan.className ++ "': " ++ toString plan.methods.length ++
      " method(s), " ++ toString plan.events.length ++ " event(s)"
  | wrote path => "wrote " ++ path

/-- Whether a terminal may take a character for a command. -/
def isTerminalCommand (c : Char) : Bool :=
  ['\x07', '\x08', '\x0c', '\x1b'].contains c || (0x7F ≤ c.toNat && c.toNat ≤ 0x9F)

/-- How one character stands in a log. -/
def logChar (c : Char) : List Char :=
  if !isTerminalCommand c then [c]
  else if c.toNat < 0x80 then
    ['\\', 'x', Hex.digit (c.toNat / 16), Hex.digit (c.toNat % 16)]
  else ['\\', 'u', '\x7b'] ++ Text.hexDigits c.toNat ++ ['\x7d']

/-- The wording of a notice as it stands in a log. -/
def text (notice : Notice) : String :=
  String.ofList (notice.message.toList.flatMap logChar)

end Notice

end ContractBindings
