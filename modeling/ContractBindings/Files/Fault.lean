/-!
# Faults of file operations

Why a file or directory could not be read, made or written, in the words of the system.
-/

namespace ContractBindings.Files

/-- Why a file operation failed. -/
inductive Fault where
  | notFound
  | alreadyExists
  | notDirectory
  | isDirectory
  | nameTooLong
  /-- The path holds a NUL, which no system call takes. -/
  | nulInPath
  /-- The bytes of a file that is read as text are not UTF-8. -/
  | notUtf8
  /-- Any other fault, in the system's words. -/
  | other (words : String)
  deriving DecidableEq, Repr

/-- The wording of a fault. -/
def Fault.message : Fault → String
  | notFound => "No such file or directory (os error 2)"
  | alreadyExists => "File exists (os error 17)"
  | notDirectory => "Not a directory (os error 20)"
  | isDirectory => "Is a directory (os error 21)"
  | nameTooLong => "File name too long (os error 36)"
  | nulInPath => "file name contained an unexpected NUL byte"
  | notUtf8 => "stream did not contain valid UTF-8"
  | other words => words

end ContractBindings.Files
