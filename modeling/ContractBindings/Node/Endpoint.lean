import ContractBindings.Members
import ContractBindings.Node.Fault

/-!
# Node endpoints

A node is named by its URL or by an alias from the settings. What looks like a URL is taken as
one, even if an alias of that name exists.
-/

namespace ContractBindings

/-- How nodes are reached. -/
structure NodeSettings where
  /-- The URLs of nodes, by alias. -/
  endpoints : Members String
  /-- How long an answer may take, in seconds. -/
  timeoutSeconds : Nat
  deriving DecidableEq

namespace NodeSettings

/-- The public nodes, and half a minute. -/
def default : NodeSettings where
  endpoints := [("mainnet", "https://mainnet1.neo.coz.io:443"),
    ("testnet", "https://testnet1.neo.coz.io:443")]
  timeoutSeconds := 30

/-- The endpoint that a URL or an alias names. -/
def resolve (settings : NodeSettings) (name : String) : Except FetchError String :=
  if name.startsWith "http://" || name.startsWith "https://" then .ok name
  else match settings.endpoints.get? name with
    | some url => .ok url
    | none => .error (.unknownNetwork name)

end NodeSettings

end ContractBindings
