import ContractBindings.Proofs.Node.AnswerTree
import ContractBindings.Proofs.Node.ManifestText
import ContractBindings.Proofs.Run.Sources

/-!
# What comes of asking a node

A node is given by its name, and what it answers by a status and the text of a body. Whatever these
are, asking it for a contract ends in exactly one way (`run_fetchFromNode_answered`). The faults
that there are, each for itself, are listed in the order in which they count (`fetchFaults`): the
name is unknown, the endpoint is no URL of a web server, the status is none of success, the body is
no answer, the answer is an error, the manifest is missing. The outcome is the first of them, and a
manifest if there is none. The list is written down without stopping anywhere, so an error in an
answer is listed whether or not there is a result beside it, and a status whatever the body says.

What is sent depends on the name alone (`requestsFor`, `sends_fetchFromNode`): one request if it
leads to a URL, and none otherwise. An endpoint may look like a URL without being one, and then
nothing is sent to it (`run_fetchFromNode_malformed`).

Which endpoints are URLs of web servers is for `Url.parseWeb` to say, and nothing here rests on how
it does. Its limit is that of `Url.host?`: hosts beyond ASCII, and hosts with labels in Punycode,
are neither mapped nor checked, so a reader that does so may take another view of which of these are
usable.
-/

namespace ContractBindings

open Files (Location)
open Json

variable {settings : NodeSettings} {name body : String} {hash : ScriptHash} {status : Nat}
  {current : Location} {world : World}

/-! ### Faults, written down without stopping -/

/-- What is wrong with an answer. -/
def NodeAnswer.faults (answer : NodeAnswer) : List FetchError :=
  (answer.error.map fun error ↦ .rpc error.code error.message).toList ++
    faultIf (answer.manifest = none) (.answer "response carries no contract manifest")

/-- What is wrong with a body. -/
def bodyFaults (body : String) : List FetchError :=
  match NodeAnswer.parse body with
  | .error error => [.answer (error.message RecordFault.message)]
  | .ok answer => answer.faults

/-- What is wrong with an endpoint. -/
def endpointFaults (endpoint : String) : List FetchError :=
  match Url.parseWeb endpoint with
  | .error fault => [requestFailed endpoint fault.message]
  | .ok _ => []

/-- What is wrong with a status. -/
def statusFaults (endpoint : String) (status : Nat) : List FetchError :=
  faultIf (Status.isSuccess status = false)
    (.http status ("HTTP " ++ Status.text status ++ " for " ++ endpoint))

/-- What goes wrong with a node that answers. -/
def fetchFaults (settings : NodeSettings) (name : String) (status : Nat) (body : String) :
    List FetchError :=
  match settings.resolve name with
  | .error _ => [.unknownNetwork name]
  | .ok endpoint => endpointFaults endpoint ++ (statusFaults endpoint status ++ bodyFaults body)

/-- The requests for a contract: one, unless the name of the node leads to no URL. -/
def requestsFor (settings : NodeSettings) (name : String) (hash : ScriptHash) : List NodeRequest :=
  match settings.resolve name with
  | .error _ => []
  | .ok endpoint =>
    match Url.parseWeb endpoint with
    | .error _ => []
    | .ok url => [⟨url, hash⟩]

theorem reports_content (answer : NodeAnswer) : Reports answer.faults answer.content := by
  obtain ⟨manifest, error⟩ := answer
  cases error with
  | some error => exact reports_error _ _
  | none =>
    cases manifest with
    | none => exact reports_error _ _
    | some manifest => exact reports_ok _

theorem reports_readManifest (body : String) : Reports (bodyFaults body) (readManifest body) := by
  rw [bodyFaults, readManifest]
  cases NodeAnswer.parse body with
  | error error => exact reports_error _ _
  | ok answer => exact reports_content answer

theorem reports_body (endpoint : String) (url : Url) (status : Nat) (body : String) :
    Reports (statusFaults endpoint status)
      (NodeReply.body endpoint url (.answered status (some body))) := by
  rw [NodeReply.body, statusFaults, faultIf]
  cases Status.isSuccess status with
  | false => exact reports_error _ _
  | true => exact reports_ok _

theorem reports_parseWeb (endpoint : String) :
    Reports (endpointFaults endpoint)
      ((Url.parseWeb endpoint).mapError fun fault ↦ requestFailed endpoint fault.message) := by
  rw [endpointFaults]
  cases Url.parseWeb endpoint with
  | error fault => exact reports_error _ _
  | ok url => exact reports_ok _

theorem resolve_eq_error {fault : FetchError} (h : settings.resolve name = .error fault) :
    fault = .unknownNetwork name := by
  rw [NodeSettings.resolve] at h
  split at h
  case isTrue => cases h
  case isFalse =>
    split at h <;> cases h
    rfl

/-! ### Runs -/

/-- What is fetched from nodes that reply. -/
def fetchedFrom (reply : NodeRequest → NodeReply) (settings : NodeSettings) (name : String)
    (hash : ScriptHash) : Except FetchError FetchedManifest := do
  let endpoint ← settings.resolve name
  let url ← (Url.parseWeb endpoint).mapError fun fault ↦ requestFailed endpoint fault.message
  let body ← (reply ⟨url, hash⟩).body endpoint url
  let content ← readManifest body
  return ⟨content, endpoint ++ "#" ++ hash.text, some hash⟩

section Answered

variable {reply : NodeRequest → NodeReply} {endpoint : String} {url : Url}

theorem requestsFor_eq (hresolve : settings.resolve name = .ok endpoint)
    (hurl : Url.parseWeb endpoint = .ok url) (hash : ScriptHash) :
    requestsFor settings name hash = [⟨url, hash⟩] := by
  rw [requestsFor, hresolve]
  dsimp only
  rw [hurl]

section Fault

variable {fault : Url.Fault}

theorem requestsFor_of_fault (hresolve : settings.resolve name = .ok endpoint)
    (hurl : Url.parseWeb endpoint = .error fault) (hash : ScriptHash) :
    requestsFor settings name hash = [] := by
  rw [requestsFor, hresolve]
  dsimp only
  rw [hurl]

theorem fetchedFrom_of_fault (hresolve : settings.resolve name = .ok endpoint)
    (hurl : Url.parseWeb endpoint = .error fault) :
    fetchedFrom reply settings name hash = .error (requestFailed endpoint fault.message) := by
  rw [fetchedFrom, hresolve]
  show (Url.parseWeb endpoint).mapError _ >>= _ = _
  rw [hurl]
  rfl

end Fault

/-- Only the reply to a request that is sent counts. -/
theorem reply_of_requestsFor
    (hreply : ∀ request ∈ requestsFor settings name hash,
      reply request = .answered status (some body))
    (hresolve : settings.resolve name = .ok endpoint) (hurl : Url.parseWeb endpoint = .ok url) :
    reply ⟨url, hash⟩ = .answered status (some body) :=
  hreply _ (requestsFor_eq hresolve hurl hash ▸ List.mem_singleton_self _)

theorem reports_fetchedFrom
    (hreply : ∀ request ∈ requestsFor settings name hash,
      reply request = .answered status (some body)) :
    Reports (fetchFaults settings name status body) (fetchedFrom reply settings name hash) := by
  rw [fetchFaults, fetchedFrom]
  cases hresolve : settings.resolve name with
  | error fault =>
    rw [resolve_eq_error hresolve]
    exact reports_error _ _
  | ok endpoint =>
    refine (reports_parseWeb endpoint).bind fun url hurl ↦ ?_
    rw [reply_of_requestsFor hreply hresolve (ok_of_mapError_eq_ok hurl)]
    refine (reports_body endpoint url status body).bind fun text htext ↦ ?_
    obtain ⟨_, htext, -⟩ := (body_eq_ok_iff endpoint url).1 htext
    cases htext
    exact (reports_readManifest body).bind_ok _

theorem fetchedFrom_eq_ok_iff
    (hreply : ∀ request ∈ requestsFor settings name hash,
      reply request = .answered status (some body)) (fetched : FetchedManifest) :
    fetchedFrom reply settings name hash = .ok fetched ↔
      ∃ endpoint url manifest, settings.resolve name = .ok endpoint ∧
        Url.parseWeb endpoint = .ok url ∧ Status.isSuccess status = true ∧
        NodeAnswer.parse body = .ok ⟨some manifest, none⟩ ∧
        fetched = ⟨manifestText manifest, endpoint ++ "#" ++ hash.text, some hash⟩ := by
  constructor
  · intro h
    obtain ⟨endpoint, hresolve, h⟩ := exists_of_bind_eq_ok h
    obtain ⟨url, hurl, h⟩ := exists_of_bind_eq_ok h
    have hurl := ok_of_mapError_eq_ok hurl
    obtain ⟨text, htext, h⟩ := exists_of_bind_eq_ok h
    obtain ⟨content, hcontent, h⟩ := exists_of_bind_eq_ok h
    rw [reply_of_requestsFor hreply hresolve hurl] at htext
    obtain ⟨_, htext, hsuccess⟩ := (body_eq_ok_iff endpoint url).1 htext
    cases htext
    obtain ⟨manifest, hparse, rfl⟩ := readManifest_eq_ok_iff.1 hcontent
    exact ⟨endpoint, url, manifest, hresolve, hurl, hsuccess, hparse, (Except.ok.inj h).symm⟩
  · rintro ⟨endpoint, url, manifest, hresolve, hurl, hsuccess, hparse, rfl⟩
    have hbody := (body_eq_ok_iff endpoint url).2
      ⟨status, reply_of_requestsFor hreply hresolve hurl, hsuccess⟩
    have hcontent := readManifest_eq_ok_iff.2 ⟨manifest, hparse, rfl⟩
    rw [fetchedFrom, hresolve]
    show (Url.parseWeb endpoint).mapError _ >>= _ = _
    rw [hurl]
    show (reply ⟨url, hash⟩).body endpoint url >>= _ = _
    rw [hbody]
    show readManifest body >>= _ = _
    rw [hcontent]
    rfl

end Answered

theorem fst_run_result_bind {ε α β : Type} (result : Except ε α)
    (f : α → ExceptT ε (StateM World) β) (world : World) :
    ((ExceptT.mk (pure result) >>= f).run world).1 =
      result >>= fun a ↦ ((f a).run world).1 := by
  cases result with
  | error e => rfl
  | ok a => rfl

/-- What is told on the way does not change what is fetched. -/
theorem fst_run_fetchFromNode (current : Location) (settings : NodeSettings) (name : String)
    (hash : ScriptHash) (world : World) :
    ((fetchFromNode (World.host current) settings name hash).run world).1 =
      fetchedFrom world.reply settings name hash := by
  refine (fst_run_result_bind _ _ _).trans (bind_congr fun endpoint ↦ ?_)
  rw [run_lift_bind]
  refine (fst_run_result_bind _ _ _).trans (bind_congr fun url ↦ ?_)
  rw [run_lift_bind]
  refine (fst_run_result_bind _ _ _).trans (bind_congr fun body ↦ ?_)
  rw [run_lift_bind]
  exact (fst_run_result_bind _ _ _).trans (bind_congr fun content ↦ rfl)

/-- Whatever the world is like, a computation sends these requests. -/
def Sends {ε α : Type} (requests : List NodeRequest) (x : ExceptT ε (StateM World) α) : Prop :=
  ∀ world, (x.run world).2.requests = world.requests ++ requests

section Sends

variable {ε α β : Type} {requests : List NodeRequest}

theorem sends_result (result : Except ε α) :
    Sends [] (ExceptT.mk (pure result) : ExceptT ε (StateM World) α) :=
  fun _ ↦ (List.append_nil _).symm

theorem sends_ok_bind {f : α → ExceptT ε (StateM World) β} {a : α} (hf : Sends requests (f a)) :
    Sends requests (ExceptT.mk (pure (.ok a)) >>= f) :=
  hf

/-- Where nothing is sent after a success, nothing is sent at all. -/
theorem sends_nil_bind {f : α → ExceptT ε (StateM World) β} (result : Except ε α)
    (hf : ∀ a, Sends [] (f a)) : Sends [] (ExceptT.mk (pure result) >>= f) := by
  cases result with
  | error e => exact sends_result (.error e)
  | ok a => exact hf a

theorem sends_tell {f : Unit → ExceptT ε (StateM World) β} (notice : Notice)
    (hf : Sends requests (f ())) :
    Sends requests (liftM ((World.host current).tell notice) >>= f) :=
  fun world ↦ hf { world with notices := world.notices ++ [notice] }

theorem sends_ask {f : NodeReply → ExceptT ε (StateM World) β} (request : NodeRequest)
    (hf : ∀ reply, Sends [] (f reply)) :
    Sends [request] (liftM ((World.host current).ask request) >>= f) := by
  intro world
  have hrest := hf (world.reply request) { world with requests := world.requests ++ [request] }
  exact hrest.trans (List.append_nil _)

end Sends

/-- **A request is sent exactly if there is a URL for it**, whatever comes of it. -/
theorem sends_fetchFromNode (current : Location) (settings : NodeSettings) (name : String)
    (hash : ScriptHash) :
    Sends (requestsFor settings name hash)
      (fetchFromNode (World.host current) settings name hash) := by
  rw [fetchFromNode, requestsFor]
  cases settings.resolve name with
  | error fault => exact sends_result _
  | ok endpoint =>
    refine sends_ok_bind (sends_tell (.asking hash) ?_)
    dsimp only
    cases Url.parseWeb endpoint with
    | error fault => exact sends_result _
    | ok url =>
      refine sends_ok_bind (sends_ask ⟨url, hash⟩ fun reply ↦ ?_)
      refine sends_nil_bind _ fun body ↦ sends_tell (.answered body) ?_
      exact sends_nil_bind _ fun content ↦ sends_result (.ok _)

/-- **What comes of asking a node that answers.** A manifest is fetched exactly if the name of the
node leads to the URL of a web server, the status is one of success, and the body is read as an
answer with a manifest and without an error. Its text is the string that the manifest is, or is read
as the manifest if the numbers in that are whole. Otherwise the error is the first fault that there
is. The one request is sent in either case if there is a URL for it. What a body is read as is what
its tree describes: a manifest and no error if the error is absent or null and the result has a
manifest that is not null. The manifest has whole numbers if the tree has. What is the URL of a web
server is as `Url.parseWeb` has it, within the limits of `Url.host?`. -/
theorem run_fetchFromNode_answered (current : Location)
    (hreply : ∀ request ∈ requestsFor settings name hash,
      world.reply request = .answered status (some body)) :
    let outcome := (fetchFromNode (World.host current) settings name hash).run world
    (∀ fetched, outcome.1 = .ok fetched ↔
      ∃ endpoint url manifest, settings.resolve name = .ok endpoint ∧
        Url.parseWeb endpoint = .ok url ∧ Status.isSuccess status = true ∧
        NodeAnswer.parse body = .ok ⟨some manifest, none⟩ ∧
        fetched = ⟨manifestText manifest, endpoint ++ "#" ++ hash.text, some hash⟩) ∧
    (∀ manifest, NodeAnswer.parse body = .ok ⟨some manifest, none⟩ → manifest.Whole →
      IsTextOf (manifestText manifest) manifest) ∧
    Reports (fetchFaults settings name status body) outcome.1 ∧
    outcome.2.requests = world.requests ++ requestsFor settings name hash ∧
    ∀ tree, Writes body tree →
      (∀ answer, NodeAnswer.parse body = .ok answer ↔ NodeAnswer.ofTree? tree = some answer) ∧
      ∀ manifest, (NodeAnswer.parse body = .ok ⟨some manifest, none⟩ ↔ HasManifest tree manifest) ∧
        (HasManifest tree manifest → tree.Whole → manifest.Whole) := by
  intro outcome
  have hresult : outcome.1 = fetchedFrom world.reply settings name hash :=
    fst_run_fetchFromNode current settings name hash world
  rw [hresult]
  refine ⟨fetchedFrom_eq_ok_iff hreply, fun manifest hparse ↦ isTextOf_manifestText hparse rfl,
    reports_fetchedFrom hreply, sends_fetchFromNode current settings name hash world, ?_⟩
  intro tree htree
  have hparse := NodeAnswer.parse_eq_ok_iff htree
  exact ⟨hparse, fun manifest ↦
    ⟨(hparse _).trans NodeAnswer.ofTree?_eq_manifest_iff, HasManifest.whole⟩⟩

theorem run_fetchFromNode_answered_vault :
    let hash : ScriptHash := ⟨List.replicate ScriptHash.size 0xab, List.length_replicate⟩
    let settings := NodeSettings.default
    let outcome := (fetchFromNode (World.host []) settings "https://node" hash).run vaultWorld
    (∀ request ∈ requestsFor settings "https://node" hash,
      vaultWorld.reply request = .answered 200 (some vaultAnswer)) ∧
    outcome.1 = .ok ⟨manifestText vaultManifest, "https://node#" ++ hash.text, some hash⟩ ∧
    IsTextOf (manifestText vaultManifest) vaultManifest ∧
    ∃ url, outcome.2.requests = [⟨url, hash⟩] := by
  intro hash settings outcome
  have hreply : ∀ request ∈ requestsFor settings "https://node" hash,
      vaultWorld.reply request = .answered 200 (some vaultAnswer) := fun _ _ ↦ rfl
  obtain ⟨hfetched, htext, -, hrequests, -⟩ := run_fetchFromNode_answered [] hreply
  have hresolve : settings.resolve "https://node" = .ok "https://node" := by decide +kernel
  obtain ⟨endpoint, url, -, -, hresolve', hurl, -⟩ := answers_vaultWorld hash
  cases Except.ok.inj (hresolve.symm.trans hresolve')
  refine ⟨hreply, ?_, htext _ parse_vaultAnswer integral_vaultManifest.whole, url, ?_⟩
  · exact (hfetched _).2 ⟨_, url, _, hresolve, hurl, rfl, parse_vaultAnswer, rfl⟩
  · rw [hrequests, requestsFor_eq hresolve hurl]
    rfl

/-- A name that looks like a URL leads to an endpoint even if it is none. Nothing is sent to it
then, and nothing fetched, whatever a node would answer. -/
theorem run_fetchFromNode_malformed :
    let hash : ScriptHash := ⟨List.replicate ScriptHash.size 0xab, List.length_replicate⟩
    let settings := NodeSettings.default
    let outcome := (fetchFromNode (World.host []) settings "http://a b" hash).run vaultWorld
    settings.resolve "http://a b" = .ok "http://a b" ∧
    (∀ request, vaultWorld.reply request = .answered 200 (some vaultAnswer)) ∧
    Status.isSuccess 200 = true ∧
    NodeAnswer.parse vaultAnswer = .ok ⟨some vaultManifest, none⟩ ∧
    Json.Integral vaultManifest ∧
    outcome.1 = .error (.http 0 "Request to http://a b failed: builder error") ∧
    outcome.2.requests = [] := by
  intro hash settings outcome
  have hresolve : settings.resolve "http://a b" = .ok "http://a b" := by decide +kernel
  have hurl : Url.parseWeb "http://a b" = .error .malformed := by decide +kernel
  have hresult := fst_run_fetchFromNode [] settings "http://a b" hash vaultWorld
  have hrequests := sends_fetchFromNode [] settings "http://a b" hash vaultWorld
  rw [fetchedFrom_of_fault hresolve hurl] at hresult
  rw [requestsFor_of_fault hresolve hurl] at hrequests
  exact ⟨hresolve, fun _ ↦ rfl, rfl, parse_vaultAnswer, integral_vaultManifest, hresult, hrequests⟩

end ContractBindings
