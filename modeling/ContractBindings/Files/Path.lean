import ContractBindings.Text.Bytes
import ContractBindings.Text.Split

/-!
# Paths

A path is a text; what it names depends on the directory it is read from. Its parts stand between
slashes. Parts are kept as they are written here: what `.` and `..` mean is for the walk through
the directories to say, because a path through a directory that is missing names nothing.
-/

namespace ContractBindings.Files

/-- The parts of a path, empty ones included. -/
def parts (path : String) : List String :=
  (Text.splitOn '/' path.toList).map String.ofList

/-- Whether a path starts at the root. -/
def isAbsolute (path : String) : Bool :=
  path.toList.head? == some '/'

/-- The path of `file` in `directory`. An absolute path stays itself. -/
def join (directory file : String) : String :=
  if isAbsolute file then file
  else if directory.isEmpty || directory.toList.getLast? == some '/' then directory ++ file
  else directory ++ "/" ++ file

/-- The parts of a path that name something: all but empty ones and, after the first, `.`. -/
def significantParts (path : String) : List String :=
  match parts path with
  | [] => []
  | first :: rest =>
    (if first.isEmpty then [] else [first]) ++ rest.filter fun p ↦ !p.isEmpty && p != "."

/-- The path with some of the parts of another. -/
def ofParts (path : String) (parts : List String) : String :=
  (if isAbsolute path then "/" else "") ++ "/".intercalate parts

/-- The paths of the directories that a path lies in, the innermost first. -/
def ancestors (path : String) : List String :=
  let parts := significantParts path
  ((List.range (parts.length - 1)).map fun n ↦ ofParts path (parts.take (n + 1))).reverse

/-- The name that a path ends in, if it does not end in `..`. -/
def fileName? (path : String) : Option String :=
  match ((parts path).filter fun p ↦ !p.isEmpty && p != ".").getLast? with
  | some ".." => none
  | name => name

/-- The most bytes that a name may have. -/
def longestName : Nat := 255

/-- The most bytes that a path may have. -/
def longestPath : Nat := 4095

/-- The number of bytes of a name or path. -/
def size (path : String) : Nat :=
  Text.byteLength path.toList

end ContractBindings.Files
