import ContractBindings.Host

/-!
# Fetching manifests

The text of a manifest is read from its file, or a node is asked for it. What the text says is not
looked at here.
-/

namespace ContractBindings

variable {m : Type → Type} [Monad m]

/-- Reads a manifest from a file. It is located by its absolute path if that can be had. -/
def fetchFile (host : Host m) (path : String) : ExceptT FetchError m FetchedManifest := do
  let content ← (host.readText path).adapt fun
    | .notFound => .notFound path
    | fault => .unreadable path fault
  let location ← (host.canonicalPath path).run
  return ⟨content, location.toOption.getD path, none⟩

/-- Asks a node for a manifest. -/
def fetchFromNode (host : Host m) (settings : NodeSettings) (name : String) (hash : ScriptHash) :
    ExceptT FetchError m FetchedManifest := do
  let endpoint ← ExceptT.mk (pure (settings.resolve name))
  host.tell (.asking hash)
  let url ← ExceptT.mk <| pure <|
    (Url.parseWeb endpoint).mapError fun fault ↦ requestFailed endpoint fault.message
  let reply ← host.ask ⟨url, hash⟩
  let body ← ExceptT.mk (pure (reply.body endpoint url))
  host.tell (.answered body)
  let content ← ExceptT.mk (pure (readManifest body))
  return ⟨content, endpoint ++ "#" ++ hash.text, some hash⟩

/-- Fetches a manifest from its source. -/
def fetch (host : Host m) (settings : NodeSettings) (source : ManifestSource) :
    ExceptT FetchError m FetchedManifest := do
  host.tell (.fetching source)
  match source with
  | .file path => fetchFile host path
  | .node name hash => fetchFromNode host settings name hash

end ContractBindings
