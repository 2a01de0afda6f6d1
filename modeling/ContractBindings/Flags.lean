/-!
# Command line flags

A command line is read from left to right. A setting takes a value, either after an equals sign
or as the next argument; a switch takes none. Only flags are taken: an argument that is neither a
flag nor the value of one is refused, and so is everything after `--`.

A value that stands by itself is checked late, when the next flag or the end is reached. So where
a command line has two faults, a value without a setting or a flag that does not exist is told
before what is wrong with the setting in front of it.
-/

namespace ContractBindings

/-! ### Flags -/

/-- A flag with a value. -/
inductive Setting where
  | manifest
  | node
  | out
  | name
  | hash
  | config
  deriving DecidableEq, Repr

/-- A flag without a value. -/
inductive Switch where
  | embedHash
  | implementation
  | allowUnknownTypes
  | verbose
  | help
  | version
  deriving DecidableEq, Repr

/-- A flag. -/
inductive Flag where
  | setting (s : Setting)
  | switch (s : Switch)
  deriving DecidableEq, Repr

namespace Flag

/-- All flags, in the order in which they are described. -/
def all : List Flag :=
  [.setting .manifest, .setting .node, .setting .out, .setting .name, .setting .hash,
    .switch .embedHash, .switch .implementation, .switch .allowUnknownTypes, .setting .config,
    .switch .verbose, .switch .help, .switch .version]

/-- The name of a flag, which follows two dashes. -/
def name : Flag → String
  | setting .manifest => "manifest"
  | setting .node => "node"
  | setting .out => "out"
  | setting .name => "name"
  | setting .hash => "hash"
  | setting .config => "config"
  | switch .embedHash => "embed-hash"
  | switch .implementation => "impl"
  | switch .allowUnknownTypes => "allow-unknown-types"
  | switch .verbose => "verbose"
  | switch .help => "help"
  | switch .version => "version"

/-- The flag of a name. -/
def ofName? (name : String) : Option Flag :=
  all.find? (·.name == name)

end Flag

/-- The letter that stands for a switch after a single dash, alone or among others. -/
def Switch.letter? : Switch → Option Char
  | verbose => some 'v'
  | help => some 'h'
  | version => some 'V'
  | _ => none

/-- The switch of a letter. -/
def Switch.ofLetter? (letter : Char) : Option Switch :=
  [verbose, help, version].find? (·.letter? == some letter)

/-- Whether a setting names a file or a directory, which an empty value does not. -/
def Setting.isPath : Setting → Bool
  | manifest | out | config => true
  | _ => false

/-! ### What a command line chooses -/

/-- The flags of a command line. -/
structure Flags where
  settings : List (Setting × String)
  switches : List Switch
  deriving DecidableEq, Repr

namespace Flags

/-- No flags at all. -/
def none : Flags := ⟨[], []⟩

/-- The value of a setting, if it was given. -/
def value? (flags : Flags) (setting : Setting) : Option String :=
  flags.settings.lookup setting

/-- Whether a switch was given. -/
def has (flags : Flags) (switch : Switch) : Bool :=
  flags.switches.contains switch

end Flags

/-- Why reading a command line ends without flags. -/
inductive FlagStop where
  /-- A description of the flags is wanted. -/
  | help
  /-- The version of the program is wanted. -/
  | version
  /-- An argument that is no flag and no value. -/
  | unknownArgument (argument : String)
  /-- A flag that was given twice. -/
  | repeated (flag : Flag)
  /-- A setting without a value, or a path without a name. -/
  | invalidValue (setting : Setting)
  /-- A switch with a value. -/
  | unwantedValue (switch : Switch)
  /-- Both a file and a node are named. -/
  | twoSources
  /-- Neither a file nor a node is named. -/
  | noSource
  /-- A node is named and the hash of the contract is not. -/
  | noHash
  deriving DecidableEq, Repr

namespace Flags

/-! ### Reading -/

/-- Adds a setting with its value, if it has one. -/
def addSetting (flags : Flags) (setting : Setting) : Option String → Except FlagStop Flags
  | .none => .error (.invalidValue setting)
  | some value =>
    if (flags.value? setting).isSome then .error (.repeated (.setting setting))
    else if setting.isPath && value.isEmpty then .error (.invalidValue setting)
    else .ok ⟨flags.settings ++ [(setting, value)], flags.switches⟩

/-- Adds a switch; two of them end the reading. -/
def addSwitch (flags : Flags) : Switch → Except FlagStop Flags
  | .help => .error .help
  | .version => .error .version
  | switch =>
    if flags.has switch then .error (.repeated (.switch switch))
    else .ok ⟨flags.settings, flags.switches ++ [switch]⟩

/-- How far a command line has been read. -/
structure Reader where
  flags : Flags
  /-- The last setting, with its value if that has been met, until it is checked. -/
  pending : Option (Setting × Option String)
  /-- Whether `--` has been passed. -/
  closed : Bool

namespace Reader

/-- The start of a command line. -/
def start : Reader := ⟨Flags.none, .none, false⟩

/-- The flags so far, the last setting checked. -/
def settle (r : Reader) : Except FlagStop Flags :=
  match r.pending with
  | .none => .ok r.flags
  | some (setting, value) => r.flags.addSetting setting value

/-- Goes on with flags that are all checked. -/
def settled (flags : Flags) : Reader := ⟨flags, .none, false⟩

/-- Reads what follows two dashes: the name of a flag, and a value after an equals sign. -/
def long (r : Reader) (text : List Char) : Except FlagStop Reader :=
  let name := String.ofList (text.takeWhile (· != '='))
  match Flag.ofName? name, text.dropWhile (· != '=') with
  | .none, _ => .error (.unknownArgument ("--" ++ String.ofList text))
  | some (.setting setting), [] => return ⟨← r.settle, some (setting, .none), false⟩
  | some (.setting setting), _ :: value => do
    return settled (← (← r.settle).addSetting setting (some (String.ofList value)))
  | some (.switch switch), [] => do return settled (← (← r.settle).addSwitch switch)
  | some (.switch switch), _ :: _ => .error (.unwantedValue switch)

/-- Reads the letters after a single dash. -/
def letters (r : Reader) : List Char → Except FlagStop Reader
  | [] => .ok r
  | letter :: rest =>
    match Switch.ofLetter? letter with
    | .none => .error (.unknownArgument ("-" ++ String.ofList [letter]))
    | some switch => do letters (settled (← (← r.settle).addSwitch switch)) rest

/-- Reads an argument that is no flag: the value of the last setting if that has none. -/
def value (r : Reader) (text : String) : Except FlagStop Reader :=
  match r.pending with
  | some (setting, .none) => .ok { r with pending := some (setting, some text) }
  | _ => .error (.unknownArgument text)

/-- Reads an argument. A dash alone is no flag. -/
def argument (r : Reader) (text : String) : Except FlagStop Reader :=
  if r.closed then .error (.unknownArgument text)
  else match text.toList with
    | ['-', '-'] => .ok { r with closed := true }
    | '-' :: '-' :: rest => r.long rest
    | '-' :: letter :: rest => r.letters (letter :: rest)
    | _ => r.value text

end Reader

/-- Refuses flags that do not name one source of the manifest. -/
def check (flags : Flags) : Except FlagStop Flags :=
  match flags.value? .manifest, flags.value? .node with
  | some _, some _ => .error .twoSources
  | .none, .none => .error .noSource
  | some _, .none => .ok flags
  | .none, some _ => if (flags.value? .hash).isSome then .ok flags else .error .noHash

/-- The flags of a command line, the name of the program left out. -/
def parse (arguments : List String) : Except FlagStop Flags := do
  let r ← arguments.foldlM Reader.argument Reader.start
  (← r.settle).check

end Flags

end ContractBindings
