import ContractBindings.ScriptHash
import ContractBindings.Text.Quoted

/-!
# Sources of manifests

A manifest is a file, or is known to a node as part of a deployed contract.
-/

namespace ContractBindings

/-- Where a manifest comes from. -/
inductive ManifestSource where
  | file (path : String)
  /-- A node, named by its URL or by an alias, that is asked for the contract at `hash`. -/
  | node (name : String) (hash : ScriptHash)
  deriving DecidableEq

/-- The bytes of a hash, as notices show them. -/
def ScriptHash.byteList (hash : ScriptHash) : String :=
  "ScriptHash([" ++ ", ".intercalate (hash.bytes.map fun b ↦ toString b.toNat) ++ "])"

/-- A source, as notices show it. -/
def ManifestSource.text : ManifestSource → String
  | file path => "File \x7b path: " ++ Text.quoted path ++ " \x7d"
  | node name hash =>
    "Node \x7b url: " ++ Text.quoted name ++ ", hash: " ++ hash.byteList ++ " \x7d"

/-- The text of a manifest and where it was found. -/
structure FetchedManifest where
  content : String
  location : String
  /-- The hash of the contract that the manifest is known to belong to. -/
  scriptHash : Option ScriptHash
  deriving DecidableEq

end ContractBindings
