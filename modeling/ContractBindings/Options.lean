import ContractBindings.ScriptHash

/-!
# Options of a generation

What the user of the generator chooses, apart from where the manifest comes from.
-/

namespace ContractBindings

/-- The directory that modules are written to unless another is named. -/
def defaultOutputDirectory : String := "src/contracts"

/-- What a generation is told besides the manifest. -/
structure Options where
  outputDirectory : String := defaultOutputDirectory
  /-- Replaces the contract name of the manifest as the name of the class. -/
  nameOverride : Option String := none
  /-- Replaces the script hash that the source of the manifest implies. -/
  hashOverride : Option ScriptHash := none
  /-- Whether the class carries the script hash as a constant. -/
  embedHash : Bool := false
  /-- Whether a second class, which calls through one generic method, is written too. -/
  withImplementation : Bool := false
  /-- Whether type names that are not known stand for any type. -/
  allowUnknownTypes : Bool := false
  deriving DecidableEq

end ContractBindings
