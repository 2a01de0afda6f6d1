import ContractBindings.Config
import ContractBindings.Fetch
import ContractBindings.Files.Path
import ContractBindings.Flags
import ContractBindings.Manifest.Loading
import ContractBindings.Module.Generate

/-!
# Runs

A run has two parts. The first prepares the modules: it reads the configuration and the manifest
and does everything that can be wrong with them. The second writes the modules. So the disk is
touched only when there is nothing left to fail but the writing itself.
-/

namespace ContractBindings

/-- Why a run ends without modules, or without all of them. -/
inductive RunError where
  | config (error : ConfigError)
  | generation (error : GenerationError)
  /-- A node is named and the hash of the contract is not. -/
  | nodeWithoutHash
  /-- Neither a file nor a node is named. -/
  | noSource
  deriving DecidableEq

namespace RunError

/-- The wording of an error of a run. -/
def message : RunError → String
  | config error => error.message
  | generation error => error.message
  | nodeWithoutHash => "--node requires --hash to locate the contract"
  | noSource => "Provide either --manifest <path> or --node <url>"

/-- The fault that an error rests on, if it has one of its own. -/
def cause? : RunError → Option Files.Fault
  | config error => error.cause?
  | generation error => error.cause?
  | _ => none

end RunError

variable {m : Type → Type} [Monad m]

/-! ### Choices -/

/-- Reads a configuration file. -/
def readConfig (host : Host m) (path : String) : ExceptT ConfigError m Config := do
  let text ← (host.readText path).adapt (.unreadable path)
  ExceptT.mk (pure (Config.parse text))

/-- The configuration that flags name. -/
def configOf (host : Host m) (flags : Flags) : ExceptT ConfigError m Config :=
  match flags.value? .config with
  | some path => readConfig host path
  | none => pure Config.default

/-- The hash that flags choose. -/
def hashOf (flags : Flags) : Except GenerationError (Option ScriptHash) :=
  match flags.value? .hash with
  | none => .ok none
  | some text => (ScriptHash.parse text).map some |>.mapError (.invalidHash text)

/-- The options that flags and a configuration choose; flags count more. -/
def optionsOf (flags : Flags) (config : Config) : Except GenerationError Options := do
  let hash ← hashOf flags
  return {
    outputDirectory :=
      ((flags.value? .out).or config.outputDirectory).getD defaultOutputDirectory
    nameOverride := flags.value? .name
    hashOverride := hash
    embedHash := flags.has .embedHash
    withImplementation := flags.has .implementation
    allowUnknownTypes := flags.has .allowUnknownTypes }

/-- The source that flags name. A file counts more than a node. -/
def sourceOf (flags : Flags) (hash : Option ScriptHash) : Except RunError ManifestSource :=
  match flags.value? .manifest, flags.value? .node, hash with
  | some path, _, _ => .ok (.file path)
  | none, some name, some hash => .ok (.node name hash)
  | none, some _, none => .error .nodeWithoutHash
  | none, none, _ => .error .noSource

/-! ### Preparing -/

/-- Loads a manifest, telling the warnings even if an error follows them. -/
def loadTelling (host : Host m) (options : Options) (document : Manifest.Document) :
    ExceptT GenerationError m Contract := do
  let loaded := Manifest.load options document
  for warning in loaded.warnings do host.tell (.unknownType warning)
  let contract ← ExceptT.mk (pure loaded.result)
  host.tell (.loaded contract)
  return contract

/-- The modules for a manifest. -/
def modulesOf (host : Host m) (options : Options) (fetched : FetchedManifest) :
    ExceptT GenerationError m (List SourceModule) := do
  let document ← ExceptT.mk (pure (Manifest.Document.parse fetched.content fetched.scriptHash))
  let contract ← loadTelling host options document
  let plan ← ExceptT.mk (pure (Module.planChecked options contract))
  host.tell (.planned plan)
  return Module.modules options plan

/-- The modules that flags ask for, and the directory that they belong in. -/
def prepare (host : Host m) (flags : Flags) :
    ExceptT RunError m (String × List SourceModule) := do
  let config ← (configOf host flags).adapt .config
  let options ← ExceptT.mk (pure ((optionsOf flags config).mapError .generation))
  let source ← ExceptT.mk (pure (sourceOf flags options.hashOverride))
  let fetched ← (fetch host config.node source).adapt (.generation ∘ .fetch)
  host.tell (.fetched fetched.location)
  let modules ← (modulesOf host options fetched).adapt .generation
  return (options.outputDirectory, modules)

/-! ### Writing -/

/-- Writes a module into a directory; gives its path. -/
def writeModule (host : Host m) (directory : String) (module : SourceModule) :
    ExceptT GenerationError m String := do
  let path := Files.join directory module.fileName
  (host.writeFile path module.text.toUTF8).adapt (.write path)
  host.tell (.wrote path)
  return path

/-- Writes modules into a directory, which is made if it is missing; gives their paths. -/
def writeModules (host : Host m) (directory : String) (modules : List SourceModule) :
    ExceptT GenerationError m (List String) := do
  (host.createDirectories directory).adapt (.write directory)
  modules.mapM (writeModule host directory)

/-- Prepares and writes the modules that flags ask for; gives their paths. -/
def run (host : Host m) (flags : Flags) : ExceptT RunError m (List String) := do
  let (directory, modules) ← prepare host flags
  (writeModules host directory modules).adapt .generation

end ContractBindings
