import ContractBindings.Files.Tree
import ContractBindings.Host

/-!
# Modelled worlds

A host that is a value: a file tree, the behaviour of its disk and of the nodes, and a record of
what was asked and told. What a run does to the system around it is what it does to this value.
-/

namespace ContractBindings

/-- The state of the system around a run. -/
structure World where
  files : Files.Tree
  /-- What becomes of changes to the files. -/
  disk : Files.Disk
  /-- What comes of a request. -/
  reply : NodeRequest → NodeReply
  /-- The requests that were sent, in order. -/
  requests : List NodeRequest
  /-- The notices that were told, in order. -/
  notices : List Notice

namespace World

/-- A world with the given files on a sound disk, in which nothing has happened yet. -/
def ofFiles (files : Files.Tree) (reply : NodeRequest → NodeReply) : World :=
  ⟨files, .sound, reply, [], []⟩

/-- Reads from the file tree. -/
def reading {α : Type} (read : Files.Tree → Except Files.Fault α) :
    ExceptT Files.Fault (StateM World) α :=
  ExceptT.mk fun world ↦ (read world.files, world)

/-- Changes the file tree as its disk does; what has been done stays done if the change fails. -/
def changing {α : Type} (change : Files.Disk → Files.Tree → Except Files.Fault α × Files.Tree) :
    ExceptT Files.Fault (StateM World) α :=
  ExceptT.mk fun world ↦
    let (result, files) := change world.disk world.files
    (result, { world with files })

/-- The host of a run that takes place in a modelled world, in the directory `current`. -/
def host (current : Files.Location) : Host (StateM World) where
  readFile path := reading fun files ↦ files.read current path
  canonicalPath path := reading fun files ↦ files.canonical current path
  createDirectories path := changing fun disk files ↦ files.createDirectories disk current path
  writeFile path content := changing fun disk files ↦ files.write disk current path content
  ask request := fun world ↦
    (world.reply request, { world with requests := world.requests ++ [request] })
  tell notice := fun world ↦ ((), { world with notices := world.notices ++ [notice] })

end World

end ContractBindings
