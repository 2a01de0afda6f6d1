import ContractBindings.Files.Path
import ContractBindings.Flags

/-!
# The description of the flags

The text that a command line with `--help` or `--version` asks for: what the program does, how it
is called, and a row for each flag with all descriptions in one column.
-/

namespace ContractBindings

/-- The name of the program. -/
def programName : String := "n3-typegen"

/-- The version of the program. -/
def programVersion : String := "0.1.0"

/-- What stands for the value of a setting. -/
def Setting.placeholder : Setting → String
  | manifest => "<PATH>"
  | node => "<URL>"
  | out => "<DIR>"
  | name => "<CONTRACT_NAME>"
  | hash => "<SCRIPT_HASH>"
  | config => "<FILE>"

namespace Flag

/-- What a flag is for. -/
def description : Flag → String
  | setting .manifest => "Contract manifest JSON file"
  | setting .node => "RPC node URL or configured network alias to fetch the manifest from"
  | setting .out => "Output directory [default: src/contracts]"
  | setting .name => "Override the contract name from the manifest"
  | setting .hash => "Contract script hash; required with --node"
  | setting .config => "YAML configuration file"
  | switch .embedHash => "Embed the contract hash into the client class"
  | switch .implementation => "Also generate an implementation class using a generic invoker"
  | switch .allowUnknownTypes => "Map unknown manifest types to `unknown` instead of failing"
  | switch .verbose => "Enable verbose output"
  | switch .help => "Print help"
  | switch .version => "Print version"

/-- How a flag is written, with a place for its value. -/
def usage : Flag → String
  | setting s => "--" ++ (setting s).name ++ " " ++ s.placeholder
  | switch s => "--" ++ (switch s).name

/-- The letter of a flag and the flag, in columns. -/
def heading (flag : Flag) : String :=
  let letter := match flag with
    | setting _ => none
    | switch s => s.letter?
  (match letter with
    | some c => "  -" ++ c.toString ++ ", "
    | none => "      ") ++ flag.usage

/-- A text filled up with blanks to a width. -/
def padded (width : Nat) (text : String) : String :=
  text ++ String.ofList (List.replicate (width - text.length) ' ')

/-- The width of the column of flags: room for the longest, and two blanks. -/
def headingWidth : Nat :=
  (all.map (·.heading.length)).foldl max 0 + 2

/-- The row of a flag. -/
def row (flag : Flag) : String :=
  padded headingWidth flag.heading ++ flag.description ++ "\n"

end Flag

namespace Flags

/-- The description of the flags, for a program that was called as `program`. -/
def help (program : Option String) : String :=
  "Generate typed Neo N3 contract bindings\n\n" ++
    "Usage: " ++ ((program.bind Files.fileName?).getD programName) ++ " [OPTIONS] <" ++
    (Flag.setting .manifest).usage ++ "|" ++ (Flag.setting .node).usage ++ ">\n\n" ++
    "Options:\n" ++ String.join (Flag.all.map Flag.row)

/-- The name and the version of the program. -/
def version : String :=
  programName ++ " " ++ programVersion ++ "\n"

end Flags

end ContractBindings
