import ContractBindings.Flags.Help
import ContractBindings.Run

/-!
# Outcomes of the program

How the program ends, and what it leaves on its two channels: the answer to a question about
itself, the paths of the modules, or an error with the fault that it rests on.
-/

namespace ContractBindings

/-- How the program ends. -/
inductive Outcome where
  /-- A text that was asked for. -/
  | shown (text : String)
  /-- The command line is not understood. -/
  | refused (stop : FlagStop)
  | failed (error : RunError)
  /-- The modules with these paths are written. -/
  | written (paths : List String)
  deriving DecidableEq

/-- The outcome of a command line that ends without flags; `program` is how the program was
called. -/
def FlagStop.outcome (program : Option String) : FlagStop → Outcome
  | help => .shown (Flags.help program)
  | version => .shown Flags.version
  | stop => .refused stop

/-- The wording of a fault of a command line. -/
def FlagStop.message : FlagStop → String
  | help => "help is wanted"
  | version => "the version is wanted"
  | unknownArgument argument => "unexpected argument '" ++ argument ++ "' found"
  | repeated flag => "the argument '" ++ flag.usage ++ "' cannot be used multiple times"
  | invalidValue setting =>
    "a value is required for '" ++ (Flag.setting setting).usage ++ "' but none was supplied"
  | unwantedValue switch => "no value is allowed for '" ++ (Flag.switch switch).usage ++ "'"
  | twoSources => "'--manifest' cannot be used with '--node'"
  | noSource => "one of '--manifest' and '--node' is required"
  | noHash => "'--node' requires '--hash'"

/-- An error and the fault that it rests on. -/
def RunError.report (error : RunError) : String :=
  "Error: " ++ error.message ++
    ((error.cause?.map fun fault ↦ "\n\nCaused by:\n    " ++ fault.message).getD "") ++ "\n"

namespace Outcome

/-- The outcome of a run. -/
def ofRun : Except RunError (List String) → Outcome
  | .ok paths => .written paths
  | .error error => .failed error

/-- The exit code. -/
def code : Outcome → Nat
  | shown _ | written _ => 0
  | failed _ => 1
  | refused _ => 2

/-- What is printed. -/
def output : Outcome → String
  | shown text => text
  | written paths => String.join (paths.map (· ++ "\n"))
  | failed _ | refused _ => ""

/-- What is printed on the channel of errors, behind the notices. -/
def errorOutput : Outcome → String
  | shown _ | written _ => ""
  | failed error => error.report
  | refused stop => "error: " ++ stop.message ++ "\n"

end Outcome

end ContractBindings
