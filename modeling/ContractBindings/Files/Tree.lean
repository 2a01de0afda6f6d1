import ContractBindings.Files.Fault
import ContractBindings.Files.Path

/-!
# File trees

The state of a file system as far as paths can tell it apart: which locations hold a directory and
which hold a file with which bytes. A location lists names from the root. Paths are walked part by
part, and each part in front of another has to be a directory that exists.

What the tree allows the disk may still not do. It may refuse to make an entry or to open a file for
writing, as where permission is missing or nothing can be added, and then nothing is changed. It may
also stop taking bytes of a file that is open, as where it is full or files may not be larger. By
then the file has been made or has lost what it held. So an operation that changes the tree gives a
result and the tree that it leaves behind, and one that fails may have done some of its work.

Left out are links and files that are neither plain nor directories, permissions to read and to walk
through directories, faults of the disk while it is read, bytes that are lost after they were taken,
and changes by other programs in the course of a run.
-/

namespace ContractBindings.Files

/-- A place in a file tree: the names on the way to it from the root. -/
abbrev Location := List String

/-- What a location holds. -/
inductive Entry where
  | directory
  | file (content : ByteArray)

/-- What the locations other than the root hold. -/
structure Tree where
  entries : List (Location × Entry)

namespace Tree

/-- A tree with nothing but the root. -/
def empty : Tree := ⟨[]⟩

/-- What a location holds. The root is a directory. -/
def get? (tree : Tree) (location : Location) : Option Entry :=
  if location = [] then some .directory else tree.entries.lookup location

/-- Whether a location holds a directory. -/
def isDirectory (tree : Tree) (location : Location) : Bool :=
  match tree.get? location with
  | some .directory => true
  | _ => false

/-- Puts an entry at a location, in place of what it held. -/
def set (tree : Tree) (location : Location) (entry : Entry) : Tree :=
  ⟨(location, entry) :: tree.entries.filter (·.1 != location)⟩

/-! ### Walking -/

/-- Walks from a location along the parts of a path. -/
def walk (tree : Tree) : Location → List String → Except Fault Location
  | at_, [] => .ok at_
  | at_, part :: rest =>
    if !tree.isDirectory at_ then .error .notDirectory
    else if part.isEmpty || part = "." then walk tree at_ rest
    else if part = ".." then walk tree at_.dropLast rest
    else if longestName < size part then .error .nameTooLong
    else if (tree.get? (at_ ++ [part])).isNone then .error .notFound
    else walk tree (at_ ++ [part]) rest

/-- Refuses texts that no system call takes as a path. -/
def checkPath (path : String) : Except Fault Unit :=
  if path.toList.contains '\x00' then .error .nulInPath
  else if path.isEmpty then .error .notFound
  else if longestPath < size path then .error .nameTooLong
  else .ok ()

/-- Where a walk along a path starts. -/
def origin (current : Location) (path : String) : Location :=
  if isAbsolute path then [] else current

/-- The location that a path names. -/
def locate (tree : Tree) (current : Location) (path : String) : Except Fault Location := do
  checkPath path
  tree.walk (origin current path) (parts path)

/-- Whether a path names a directory. -/
def namesDirectory (tree : Tree) (current : Location) (path : String) : Bool :=
  match tree.locate current path with
  | .ok location => tree.isDirectory location
  | .error _ => false

/-- A path that may name something new: an entry of a directory that exists, or a directory in
a way that names no entry. -/
inductive Target where
  /-- The path ends in `.` or `..`, or is the root. -/
  | unnamed
  /-- The entry `name` of `parent`; `slash` says whether a slash follows it. -/
  | entry (parent : Location) (name : String) (slash : Bool)

/-- What a path would name if it were new. -/
def target (tree : Tree) (current : Location) (path : String) : Except Fault Target := do
  checkPath path
  let backwards := (parts path).reverse
  match backwards.dropWhile String.isEmpty with
  | [] => return .unnamed
  | name :: above =>
    let parent ← tree.walk (origin current path) above.reverse
    if !tree.isDirectory parent then throw .notDirectory
    if name = "." || name = ".." then return .unnamed
    if longestName < size name then throw .nameTooLong
    return .entry parent name ((backwards.head?.map String.isEmpty).getD false)

/-! ### Reading -/

/-- The bytes of the file that a path names. -/
def read (tree : Tree) (current : Location) (path : String) : Except Fault ByteArray := do
  match tree.get? (← tree.locate current path) with
  | some (.file content) => return content
  | some .directory => throw .isDirectory
  | none => throw .notFound

/-- The absolute path of a location. -/
def absolutePath (location : Location) : String :=
  "/" ++ "/".intercalate location

/-- The absolute path of what a path names, without `.` and `..`. -/
def canonical (tree : Tree) (current : Location) (path : String) : Except Fault String :=
  absolutePath <$> tree.locate current path

end Tree

/-! ### Disks -/

/-- How many bytes a file can take, and why it takes no more. -/
structure Limit where
  size : Nat
  fault : Fault

/-- What a disk makes of changes that a tree allows. Both answers may depend on all that the tree
holds when they are given. -/
structure Disk where
  /-- Why an entry is not made, or a file not opened for writing. -/
  refusal? : Tree → Location → Option Fault
  /-- How much is taken of what is written to a file that has been opened. -/
  limit? : Tree → Location → Option Limit

/-- The disk that does all that it is asked for. -/
def Disk.sound : Disk where
  refusal? _ _ := none
  limit? _ _ := none

namespace Tree

/-! ### Writing -/

/-- Writes the bytes of a file that has been opened, as far as the disk takes them. -/
def fill (tree : Tree) (disk : Disk) (location : Location) (content : ByteArray) :
    Except Fault Unit × Tree :=
  match disk.limit? tree location with
  | none => (.ok (), tree.set location (.file content))
  | some limit =>
    if content.size ≤ limit.size then (.ok (), tree.set location (.file content))
    else (.error limit.fault, tree.set location (.file (content.extract 0 limit.size)))

/-- Writes a file, in place of one of that path: opens it, which leaves it empty, and fills it. -/
def write (tree : Tree) (disk : Disk) (current : Location) (path : String) (content : ByteArray) :
    Except Fault Unit × Tree :=
  match tree.target current path with
  | .error fault => (.error fault, tree)
  | .ok .unnamed => (.error .isDirectory, tree)
  | .ok (.entry parent name slash) =>
    let location := parent ++ [name]
    if slash || tree.isDirectory location then (.error .isDirectory, tree)
    else
      match disk.refusal? tree location with
      | some fault => (.error fault, tree)
      | none => (tree.set location (.file ByteArray.empty)).fill disk location content

/-! ### Making directories -/

/-- Makes a directory. -/
def makeDirectory (tree : Tree) (disk : Disk) (current : Location) (path : String) :
    Except Fault Unit × Tree :=
  match tree.target current path with
  | .error fault => (.error fault, tree)
  | .ok .unnamed => (.error .alreadyExists, tree)
  | .ok (.entry parent name _) =>
    let location := parent ++ [name]
    if (tree.get? location).isSome then (.error .alreadyExists, tree)
    else
      match disk.refusal? tree location with
      | some fault => (.error fault, tree)
      | none => (.ok (), tree.set location .directory)

/-- Makes a directory unless there is one. -/
def ensureDirectory (tree : Tree) (disk : Disk) (current : Location) (path : String) :
    Except Fault Unit × Tree :=
  match tree.makeDirectory disk current path with
  | (.error .alreadyExists, _) =>
    (if tree.namesDirectory current path then .ok () else .error .alreadyExists, tree)
  | result => result

/-- Makes a directory unless there is one, and before it those of `above` that are missing. -/
def ensureDirectories (tree : Tree) (disk : Disk) (current : Location) (path : String) :
    (above : List String) → Except Fault Unit × Tree
  | [] => tree.ensureDirectory disk current path
  | parent :: above =>
    match tree.ensureDirectory disk current path with
    | (.error .notFound, _) =>
      match tree.ensureDirectories disk current parent above with
      | (.ok (), tree) => tree.ensureDirectory disk current path
      | failed => failed
    | result => result

/-- Makes a directory and all that it lies in, as far as they are missing. -/
def createDirectories (tree : Tree) (disk : Disk) (current : Location) (path : String) :
    Except Fault Unit × Tree :=
  if path.toList.all (· == '/') then (.ok (), tree)
  else tree.ensureDirectories disk current path (ancestors path)

end Tree

end ContractBindings.Files
