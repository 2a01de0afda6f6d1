import ContractBindings.Proofs.Results
import ContractBindings.Proofs.Run.Steps

/-!
# What runs fetch and make of it

Fetching from a node succeeds exactly if the node answers (`Answers`): its name leads to a URL, and
the reply to the request is a success with a body that carries a manifest and no error. What is then
made of the text of the manifest is a function of the options, the text and the hash that is known
from the source (`modulesFor`); telling about it does not change it (`fst_run_modulesOf`).
-/

namespace ContractBindings

open Files (Location)

variable {ε α β : Type} {world after : World} {current : Location} {flags other : Flags}

/-! ### Choices -/

/-- Flags that choose the same, except where the manifest comes from. The hash is the same, however
it is spelled. -/
structure Flags.Agree (flags other : Flags) : Prop where
  out : flags.value? .out = other.value? .out
  name : flags.value? .name = other.value? .name
  config : flags.value? .config = other.value? .config
  hash : hashOf flags = hashOf other
  has : ∀ switch, flags.has switch = other.has switch

theorem configOf_congr {m : Type → Type} [Monad m] (host : Host m) (h : flags.Agree other) :
    configOf host flags = configOf host other := by
  rw [configOf, configOf, h.config]

theorem optionsOf_congr (h : flags.Agree other) (config : Config) :
    optionsOf flags config = optionsOf other config := by
  simp only [optionsOf, h.out, h.name, h.hash, h.has]

theorem hashOverride_of_optionsOf {config : Config} {options : Options}
    {hash : Option ScriptHash} (hhash : hashOf flags = .ok hash)
    (h : optionsOf flags config = .ok options) : options.hashOverride = hash := by
  obtain ⟨found, hfound, h⟩ := exists_of_bind_eq_ok h
  rw [hhash] at hfound
  cases hfound
  cases h
  rfl

/-! ### Steps -/

theorem run_result (result : Except ε α) (world : World) :
    (ExceptT.mk (pure result) : ExceptT ε (StateM World) α).run world = (result, world) :=
  rfl

theorem run_tell (notice : Notice) (world : World) :
    (liftM ((World.host current).tell notice) : ExceptT ε (StateM World) Unit).run world =
      (.ok (), { world with notices := world.notices ++ [notice] }) :=
  rfl

theorem run_ask (request : NodeRequest) (world : World) :
    (liftM ((World.host current).ask request) : ExceptT ε (StateM World) NodeReply).run world =
      (.ok (world.reply request), { world with requests := world.requests ++ [request] }) :=
  rfl

/-- Reading a text does nothing to the world. -/
theorem run_readText_snd (path : String) (world : World) :
    (((World.host current).readText path).run world).2 = world := by
  rw [Host.readText, run_bind]
  split
  case h_1 content middle h =>
    obtain ⟨-, rfl⟩ := Prod.mk.inj h
    split
    · rfl
    · rfl
  case h_2 error middle h => exact (Prod.mk.inj h).2.symm

theorem fromUTF8?_toUTF8 (text : String) : String.fromUTF8? text.toUTF8 = some text := by
  have hvalid : text.toUTF8.IsValidUTF8 := text.isValidUTF8
  rw [String.fromUTF8?, dif_pos hvalid]
  rfl

theorem run_readText {path text : String}
    (h : world.files.read current path = .ok text.toUTF8) :
    ((World.host current).readText path).run world = (.ok text, world) := by
  have hread : ((World.host current).readFile path).run world = (.ok text.toUTF8, world) :=
    congrArg (·, world) h
  rw [Host.readText, run_bind, hread]
  dsimp only
  rw [fromUTF8?_toUTF8]
  rfl

theorem run_configOf_snd (flags : Flags) (world : World) :
    ((configOf (World.host current) flags).run world).2 = world := by
  rw [configOf]
  split
  case h_1 path _ =>
    have hworld : (((World.host current).readText path).run world).2 = world :=
      run_readText_snd path world
    rw [readConfig, run_bind, run_adapt]
    split
    case h_1 text middle h =>
      obtain ⟨-, rfl⟩ := Prod.mk.inj h
      exact hworld
    case h_2 error middle h =>
      obtain ⟨-, rfl⟩ := Prod.mk.inj h
      exact hworld
  case h_2 => rfl

/-! ### Fetching -/

/-- The node that is named `name` answers the question for the contract at `hash` with a manifest:
its name leads to a URL, and the reply is a success with a body that carries the manifest and no
error. -/
def Answers (reply : NodeRequest → NodeReply) (settings : NodeSettings) (name : String)
    (hash : ScriptHash) (manifest : Json) : Prop :=
  ∃ endpoint url status body,
    settings.resolve name = .ok endpoint ∧ Url.parseWeb endpoint = .ok url ∧
      reply ⟨url, hash⟩ = .answered status (some body) ∧ Status.isSuccess status = true ∧
      NodeAnswer.parse body = .ok ⟨some manifest, none⟩

theorem readManifest_eq_ok_iff {body content : String} :
    readManifest body = .ok content ↔
      ∃ manifest, NodeAnswer.parse body = .ok ⟨some manifest, none⟩ ∧
        manifestText manifest = content := by
  rw [readManifest]
  constructor
  · intro h
    split at h
    case h_1 answer hanswer =>
      obtain ⟨manifest, error⟩ := answer
      rcases manifest with _ | manifest <;> rcases error with _ | error <;> cases h
      exact ⟨manifest, hanswer, rfl⟩
    case h_2 => cases h
  · rintro ⟨manifest, hanswer, rfl⟩
    rw [hanswer]
    rfl

theorem body_eq_ok_iff {reply : NodeReply} (endpoint : String) (url : Url) {text : String} :
    reply.body endpoint url = .ok text ↔
      ∃ status, reply = .answered status (some text) ∧ Status.isSuccess status = true := by
  constructor
  · intro h
    rcases reply with _ | ⟨status, body⟩
    · cases h
    · simp only [NodeReply.body] at h
      split at h
      case isTrue => cases h
      case isFalse hsuccess =>
        rcases body with _ | body <;> cases h
        exact ⟨status, rfl, by simpa using hsuccess⟩
  · rintro ⟨status, rfl, hsuccess⟩
    simp only [NodeReply.body, hsuccess]
    rfl

section Fetch

variable {settings : NodeSettings} {name : String} {hash : ScriptHash} {manifest : Json}
  {fetched : FetchedManifest}

/-- What is fetched from a node that answers, with one request for the hash. -/
theorem run_fetchFromNode (current : Location) (world : World)
    (h : Answers world.reply settings name hash manifest) :
    ∃ url location after,
      (fetchFromNode (World.host current) settings name hash).run world =
        (.ok ⟨manifestText manifest, location, some hash⟩, after) ∧
      after.requests = world.requests ++ [⟨url, hash⟩] := by
  obtain ⟨endpoint, url, status, body, hresolve, hurl, hreply, hsuccess, hparse⟩ := h
  have hbody := (body_eq_ok_iff endpoint url).2 ⟨status, hreply, hsuccess⟩
  have hcontent := readManifest_eq_ok_iff.2 ⟨manifest, hparse, rfl⟩
  refine ⟨url, endpoint ++ "#" ++ hash.text, { world with
    requests := world.requests ++ [⟨url, hash⟩]
    notices := world.notices ++ [.asking hash] ++ [.answered body] }, ?_, rfl⟩
  refine (run_bind_of_ok (congrArg (·, world) hresolve)).trans ?_
  refine (run_bind_of_ok (run_tell _ _)).trans ?_
  refine (run_bind_of_ok (congrArg (·, _) (congrArg (Except.mapError _) hurl))).trans ?_
  refine (run_bind_of_ok (run_ask _ _)).trans ?_
  refine (run_bind_of_ok (congrArg (·, _) hbody)).trans ?_
  refine (run_bind_of_ok (run_tell _ _)).trans ?_
  exact run_bind_of_ok (congrArg (·, _) hcontent)

/-- **Only from a node that answers is a manifest fetched.** -/
theorem exists_answers_of_run_fetchFromNode
    (h : (fetchFromNode (World.host current) settings name hash).run world = (.ok fetched, after)) :
    ∃ manifest, Answers world.reply settings name hash manifest ∧
      fetched.content = manifestText manifest ∧ fetched.scriptHash = some hash := by
  obtain ⟨endpoint, hresolve, h⟩ := exists_of_run_result_bind_eq_ok h
  rw [run_lift_bind] at h
  obtain ⟨url, hurl, h⟩ := exists_of_run_result_bind_eq_ok h
  rw [run_lift_bind] at h
  obtain ⟨body, hbody, h⟩ := exists_of_run_result_bind_eq_ok h
  rw [run_lift_bind] at h
  obtain ⟨content, hcontent, h⟩ := exists_of_run_result_bind_eq_ok h
  cases h
  obtain ⟨manifest, hparse, hmanifest⟩ := readManifest_eq_ok_iff.1 hcontent
  obtain ⟨status, hreply, hsuccess⟩ := (body_eq_ok_iff endpoint url).1 hbody
  -- What was told on the way leaves the replies of the node as they are.
  exact ⟨manifest, ⟨endpoint, url, status, body, hresolve, ok_of_mapError_eq_ok hurl, hreply,
    hsuccess, hparse⟩, hmanifest.symm, rfl⟩

/-- What is fetched from a file. -/
theorem run_fetchFile (world : World) {path text : String}
    (h : world.files.read current path = .ok text.toUTF8) :
    ∃ location, (fetchFile (World.host current) path).run world =
      (.ok ⟨text, location, none⟩, world) := by
  refine ⟨(world.files.canonical current path).toOption.getD path, ?_⟩
  refine (run_bind_of_ok (a := text) ?_).trans rfl
  rw [run_adapt, run_readText h]
  rfl

end Fetch

/-! ### Modules -/

/-- The modules for the text of a manifest from a source that implies a hash or none. -/
def modulesFor (options : Options) (content : String) (sourceHash : Option ScriptHash) :
    Except GenerationError (List SourceModule) := do
  let document ← Manifest.Document.parse content sourceHash
  let contract ← (Manifest.load options document).result
  let plan ← Module.planChecked options contract
  return Module.modules options plan

theorem fst_run_forIn_tell (warnings : List UnknownType) (world : World) :
    ((forIn warnings PUnit.unit (fun warning _ ↦ do
      (World.host current).tell (.unknownType warning)
      pure (ForInStep.yield PUnit.unit)) : ExceptT GenerationError (StateM World) PUnit).run
        world).1 = .ok PUnit.unit := by
  induction warnings generalizing world with
  | nil => rfl
  | cons warning warnings ih =>
    rw [List.forIn_cons]
    exact ih _

theorem fst_run_loadTelling (options : Options) (document : Manifest.Document) (world : World) :
    ((loadTelling (World.host current) options document).run world).1 =
      (Manifest.load options document).result := by
  have hrest : ∀ middle, (((ExceptT.mk (pure (Manifest.load options document).result) >>=
      fun contract ↦ do
        (World.host current).tell (.loaded contract)
        return contract) : ExceptT GenerationError (StateM World) Contract).run middle).1 =
      (Manifest.load options document).result := by
    intro middle
    rw [run_bind, run_result]
    rcases (Manifest.load options document).result with error | contract
    · rfl
    · rfl
  exact fst_run_bind (fst_run_forIn_tell _ world) fun _ ↦ hrest

/-- **What is made of a manifest does not depend on what is told about it.** -/
theorem fst_run_modulesOf (options : Options) (fetched : FetchedManifest) (world : World) :
    ((modulesOf (World.host current) options fetched).run world).1 =
      modulesFor options fetched.content fetched.scriptHash :=
  fst_run_bind rfl fun document middle ↦
    fst_run_bind (fst_run_loadTelling options document middle) fun _ _ ↦
      fst_run_bind rfl fun _ _ ↦ rfl

end ContractBindings
