import ContractBindings.Log.Filter
import ContractBindings.Outcome

/-!
# The command line program

The outer layer: the operations of the real system, and the program itself. Nodes cannot be
reached from here, as there is no transport; a request to one ends as if nobody answered.
-/

namespace ContractBindings.Main

/-- The fault behind an error of the system. -/
def faultOf (e : IO.Error) : Files.Fault :=
  match e with
  | .noFileOrDirectory .. => .notFound
  | .alreadyExists .. => .alreadyExists
  | .inappropriateType _ 20 _ => .notDirectory
  | .inappropriateType _ 21 _ => .isDirectory
  | .resourceExhausted _ 36 _ => .nameTooLong
  | .invalidArgument _ 36 _ => .nameTooLong
  | e => .other (toString e)

/-- An operation of the system. -/
def attempt {α : Type} (action : IO α) : ExceptT Files.Fault IO α :=
  ExceptT.mk do
    match ← action.toBaseIO with
    | .ok value => return .ok value
    | .error e => return .error (faultOf e)

/-- The real system; notices that `filter` shows are printed. -/
def host (filter : Log.Filter) : Host IO where
  readFile path := attempt (IO.FS.readBinFile path)
  canonicalPath path := attempt do return (← IO.FS.realPath path).toString
  createDirectories path := attempt (IO.FS.createDirAll path)
  writeFile path content := attempt (IO.FS.writeBinFile path content)
  ask _ := return .silence
  tell notice := do
    if filter.shows notice then
      IO.eprintln (notice.level.name ++ " " ++ notice.target ++ ": " ++ notice.text)

/-- Runs the program on the arguments of a command line. -/
def outcome (arguments : List String) : IO Outcome := do
  match Flags.parse arguments with
  | .error stop => return stop.outcome none
  | .ok flags =>
    let filter := Log.Filter.choose (← IO.getEnv "RUST_LOG") (flags.has .verbose)
    return Outcome.ofRun (← (run (host filter) flags).run)

end ContractBindings.Main

open ContractBindings in
/-- Generates the modules that the command line asks for. -/
def main (arguments : List String) : IO UInt32 := do
  let outcome ← Main.outcome arguments
  IO.print outcome.output
  IO.eprint outcome.errorOutput
  return outcome.code.toUInt32
