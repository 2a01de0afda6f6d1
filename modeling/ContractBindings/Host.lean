import ContractBindings.Files.Fault
import ContractBindings.Log

/-!
# Hosts

What a run asks of the system around it, for any monad in which that is done. All that a run does
outside of itself goes through these operations, so a run on a modelled file system and one on a
real one are the same program.
-/

namespace ContractBindings

/-- The operations of the system that a run takes place on. -/
structure Host (m : Type → Type) where
  /-- The bytes of a file. -/
  readFile : String → ExceptT Files.Fault m ByteArray
  /-- The absolute path of what a path names. -/
  canonicalPath : String → ExceptT Files.Fault m String
  /-- Makes a directory and all that it lies in, as far as they are missing. -/
  createDirectories : String → ExceptT Files.Fault m Unit
  /-- Writes a file, in place of one of that path. -/
  writeFile : String → ByteArray → ExceptT Files.Fault m Unit
  /-- Sends a request to a node. -/
  ask : NodeRequest → m NodeReply
  /-- Tells a notice. -/
  tell : Notice → m Unit

/-- The text of a file. -/
def Host.readText {m : Type → Type} [Monad m] (host : Host m) (path : String) :
    ExceptT Files.Fault m String := do
  match String.fromUTF8? (← host.readFile path) with
  | some text => return text
  | none => throw .notUtf8

end ContractBindings
