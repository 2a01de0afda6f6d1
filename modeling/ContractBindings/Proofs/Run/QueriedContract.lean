import ContractBindings.Proofs.Json.RoundTrip
import ContractBindings.Proofs.Run.ChosenHash
import ContractBindings.Proofs.Run.Sources
import ContractBindings.Proofs.Run.Trace
import ContractBindings.Proofs.Run.Written
import ContractBindings.Proofs.ScriptHash.Spelling

/-!
# Bindings for the contract that was asked for

A run that is given a hash asks nodes for the contract at that hash, loads it as the contract at
that hash and writes modules that name that hash (`run_names_queried_contract`). Once it is read
from its spelling, the hash goes two ways, to the node and back with the manifest, and as a choice
past the manifest; that both end at the same contract is said of each step (`keeps_run`), and the
spelling is not looked at again (`run_congr`).
-/

namespace ContractBindings

open Files (Location)

variable {ε α β : Type} {world after : World} {current : Location} {flags other : Flags}
  {options : Options} {config : Config} {hash : ScriptHash} {name text : String}
  {asks : NodeRequest → Prop}

/-! ### What is asked and told -/

/-- A request for the contract at a hash: the parameters in its body are the written form of the
hash and nothing else. -/
def Asks (hash : ScriptHash) (request : NodeRequest) : Prop :=
  ∃ members, Json.parse request.body = .ok (.object members) ∧
    Members.get? "params" members = some (.array [.string hash.text])

/-- A notice that tells of the loading of no contract but the one at a hash. -/
def Tells (hash : ScriptHash) : Notice → Prop
  | .loaded contract => contract.scriptHash = some hash
  | _ => True

theorem asks_request (url : Url) (hash : ScriptHash) : Asks hash ⟨url, hash⟩ := by
  let parameters : Json := .array [.string hash.text]
  let before : List (String × Json) := [("jsonrpc", .string "2.0"),
    ("id", .number (.integer 1)), ("method", .string NodeRequest.method)]
  have hparameters : Json.ReadsBack (Json.readValue 126) parameters :=
    Json.readsBack_of_formed (List.forall_mem_singleton.2 trivial)
      (.array (List.forall_mem_singleton.2 (.string _)))
  have hmembers : ∀ m ∈ before ++ [("params", parameters)],
      Json.ReadsBack (Json.readValue 126) m.2 := by
    refine List.forall_mem_append.2 ⟨?_, List.forall_mem_singleton.2 hparameters⟩
    simp only [before, List.forall_mem_cons]
    exact ⟨Json.readsBack_string _ _, Json.readsBack_integer _ ⟨by decide, by decide⟩,
      Json.readsBack_string _ _, List.forall_mem_nil _⟩
  have hread := Json.readsTo_object hmembers []
  rw [List.append_nil] at hread
  refine ⟨_, Json.parse_eq_ok hread, ?_⟩
  rw [Members.ofList_append_singleton, Members.get?_insert]

/-! ### Fetching -/

theorem keeps_readText (path : String) :
    Keeps asks (Tells hash) (fun _ ↦ True) (fun _ ↦ True)
      ((World.host current).readText path) :=
  keeps_of_eq fun world ↦ by rw [run_readText_snd]; exact ⟨rfl, rfl⟩

theorem keeps_configOf (flags : Flags) :
    Keeps asks (Tells hash) (fun _ ↦ True) (fun _ ↦ True)
      (configOf (World.host current) flags) :=
  keeps_of_eq fun world ↦ by rw [run_configOf_snd]; exact ⟨rfl, rfl⟩

theorem keeps_fetchFile (path : String) :
    Keeps asks (Tells hash) (fun _ ↦ True) (fun _ ↦ True)
      (fetchFile (World.host current) path) := by
  refine (keeps_readText path).adapt (fun _ _ ↦ trivial) |>.bind fun content _ ↦ ?_
  have hcanonical : Keeps asks (Tells hash) (fun _ ↦ True) (fun _ ↦ True)
      (liftM ((World.host current).canonicalPath path).run :
        ExceptT FetchError (StateM World) (Except Files.Fault String)) :=
    keeps_of_eq fun _ ↦ ⟨rfl, rfl⟩
  exact hcanonical.bind fun location _ ↦ keeps_pure trivial

theorem keeps_fetchFromNode (settings : NodeSettings) (name : String) (hash : ScriptHash) :
    Keeps (Asks hash) (Tells hash) (fun _ ↦ True) (fun _ ↦ True)
      (fetchFromNode (World.host current) settings name hash) := by
  have hresult : ∀ {γ : Type} (result : Except FetchError γ), Keeps (Asks hash) (Tells hash)
      (fun _ ↦ True) (fun _ ↦ True) (ExceptT.mk (pure result)) := fun result ↦
    keeps_result (fun _ _ ↦ trivial) fun _ _ ↦ trivial
  refine (hresult _).bind fun endpoint _ ↦ ?_
  refine (keeps_tell (by trivial)).bind fun _ _ ↦ ?_
  refine (hresult _).bind fun url _ ↦ ?_
  refine (keeps_ask (asks_request url hash)).bind fun reply _ ↦ ?_
  refine (hresult _).bind fun body _ ↦ ?_
  refine (keeps_tell (by trivial)).bind fun _ _ ↦ ?_
  exact (hresult _).bind fun content _ ↦ keeps_pure trivial

theorem keeps_fetch (settings : NodeSettings) {place : ManifestSource}
    (hplace : ∀ name asked, place = .node name asked → asked = hash) :
    Keeps (Asks hash) (Tells hash) (fun _ ↦ True) (fun _ ↦ True)
      (fetch (World.host current) settings place) := by
  refine (keeps_tell (by trivial)).bind fun _ _ ↦ ?_
  rcases place with path | ⟨name, asked⟩
  · exact keeps_fetchFile path
  · obtain rfl := hplace name asked rfl
    exact keeps_fetchFromNode settings name asked

/-! ### Modules -/

theorem keeps_loadTelling (hoverride : options.hashOverride = some hash)
    (document : Manifest.Document) :
    Keeps asks (Tells hash) (· ≠ .missingHash) (·.scriptHash = some hash)
      (loadTelling (World.host current) options document) := by
  refine (Keeps.forIn (fun warning _ ↦ ?_) _ _).bind fun _ _ ↦ ?_
  · exact (keeps_tell (by trivial)).bind fun _ _ ↦ keeps_pure trivial
  have hresult : Keeps asks (Tells hash) (· ≠ .missingHash) (·.scriptHash = some hash)
      (ExceptT.mk (pure (Manifest.load options document).result)) :=
    keeps_result (fun _ h heq ↦ avoids_load hoverride (h.trans (congrArg _ heq)))
      fun _ h ↦ scriptHash_of_load hoverride h
  exact hresult.bind fun c hc ↦ (keeps_tell hc).bind fun _ _ ↦ keeps_pure hc

theorem keeps_modulesOf (hoverride : options.hashOverride = some hash)
    (fetched : FetchedManifest) :
    Keeps asks (Tells hash) (· ≠ .missingHash) (Names hash options.embedHash)
      (modulesOf (World.host current) options fetched) := by
  have hdocument : Keeps asks (Tells hash) (· ≠ .missingHash) (fun _ ↦ True)
      (ExceptT.mk (pure (Manifest.Document.parse fetched.content fetched.scriptHash))) := by
    refine keeps_result (fun error h ↦ ?_) fun _ _ ↦ trivial
    rw [Manifest.Document.parse] at h
    split at h
    · cases h
    · cases h
      intro heq
      cases heq
  refine hdocument.bind fun document _ ↦ (keeps_loadTelling hoverride document).bind fun c hc ↦ ?_
  have hplan : Keeps asks (Tells hash) (· ≠ .missingHash)
      (Module.planChecked options c = .ok ·)
      (ExceptT.mk (pure (Module.planChecked options c))) :=
    keeps_result (fun _ h heq ↦ avoids_planChecked hc (h.trans (congrArg _ heq))) fun _ h ↦ h
  refine hplan.bind fun p hp ↦ (keeps_tell (by trivial)).bind fun _ _ ↦ ?_
  refine keeps_pure (names_of_generate hc ?_)
  rw [Module.generate, hp]
  rfl

/-! ### Runs -/

theorem embedHash_of_optionsOf (h : optionsOf flags config = .ok options) :
    options.embedHash = flags.has .embedHash := by
  obtain ⟨hash, -, h⟩ := exists_of_bind_eq_ok h
  cases h
  rfl

theorem hash_of_sourceOf {chosen : Option ScriptHash}
    (h : sourceOf flags chosen = .ok (.node name hash)) : chosen = some hash := by
  unfold sourceOf at h
  split at h <;> cases h
  rfl

theorem keeps_prepare (hhash : hashOf flags = .ok (some hash)) :
    Keeps (Asks hash) (Tells hash) (· ≠ .generation .missingHash)
      (fun prepared ↦ Names hash (flags.has .embedHash) prepared.2)
      (prepare (World.host current) flags) := by
  refine ((keeps_configOf flags).adapt fun _ _ ↦ by intro heq; cases heq).bind fun config _ ↦ ?_
  have hoptions : Keeps (Asks hash) (Tells hash) (· ≠ RunError.generation .missingHash)
      (optionsOf flags config = .ok ·)
      (ExceptT.mk (pure ((optionsOf flags config).mapError .generation))) := by
    refine keeps_result (fun error h ↦ ?_) fun options h ↦ ok_of_mapError_eq_ok h
    rw [optionsOf, hhash] at h
    cases h
  refine hoptions.bind fun options hoptions ↦ ?_
  have hoverride := hashOverride_of_optionsOf hhash hoptions
  have hplace : Keeps (Asks hash) (Tells hash) (· ≠ .generation .missingHash)
      (fun place ↦ ∀ name asked, place = .node name asked → asked = hash)
      (ExceptT.mk (pure (sourceOf flags options.hashOverride))) := by
    refine keeps_result (fun error h heq ↦ ?_) fun place h name asked hnode ↦ ?_
    · rw [heq] at h
      unfold sourceOf at h
      split at h <;> cases h
    · have hchosen := hash_of_sourceOf (h.trans (congrArg _ hnode))
      rw [hoverride] at hchosen
      exact (Option.some.inj hchosen).symm
  refine hplace.bind fun place hplace ↦ ?_
  refine ((keeps_fetch config.node hplace).adapt fun _ _ ↦ by intro heq; cases heq).bind
    fun fetched _ ↦ ?_
  refine (keeps_tell (by trivial)).bind fun _ _ ↦ ?_
  refine ((keeps_modulesOf hoverride fetched).adapt fun error herror heq ↦ ?_).bind
    fun modules hmodules ↦ keeps_pure ?_
  · exact herror (RunError.generation.inj heq)
  · rw [← embedHash_of_optionsOf hoptions]
    exact hmodules

theorem keeps_writeModules (directory : String) (modules : List SourceModule) :
    Keeps asks (Tells hash) (· ≠ .missingHash) (fun _ ↦ True)
      (writeModules (World.host current) directory modules) := by
  have hcreate : Keeps asks (Tells hash) (fun _ ↦ True) (fun _ ↦ True)
      ((World.host current).createDirectories directory) := keeps_of_eq fun _ ↦ ⟨rfl, rfl⟩
  have hwrite : ∀ path content, Keeps asks (Tells hash) (fun _ ↦ True) (fun _ ↦ True)
      ((World.host current).writeFile path content) := fun _ _ ↦ keeps_of_eq fun _ ↦ ⟨rfl, rfl⟩
  refine (hcreate.adapt fun _ _ ↦ nofun).bind fun _ _ ↦ Keeps.mapM (fun m ↦ ?_) modules
  refine ((hwrite _ _).adapt fun _ _ ↦ nofun).bind fun _ _ ↦ ?_
  exact (keeps_tell (by trivial)).bind fun _ _ ↦ keeps_pure trivial

/-- **What a run asks, tells and fails with**, if it is given a hash. -/
theorem keeps_run (hhash : hashOf flags = .ok (some hash)) :
    Keeps (Asks hash) (Tells hash) (· ≠ .generation .missingHash) (fun _ ↦ True)
      (run (World.host current) flags) := by
  refine (keeps_prepare hhash).bind fun (directory, modules) _ ↦ ?_
  refine (keeps_writeModules directory modules).adapt fun error herror heq ↦ ?_
  exact herror (RunError.generation.inj heq)

/-! ### The manifest that was fetched -/

/-- Modules are those for the manifest that the node called `name` answers with when it is asked for
the contract at a hash. -/
def Answered (current : Location) (flags : Flags) (world : World) (name : String)
    (hash : ScriptHash) (modules : List SourceModule) : Prop :=
  ∃ config options manifest, ((configOf (World.host current) flags).run world).1 = .ok config ∧
    optionsOf flags config = .ok options ∧
    Answers world.reply config.node name hash manifest ∧
    modulesFor options (manifestText manifest) (some hash) = .ok modules

/-- Without a file, modules are prepared for what the node has answered, and it was asked once. -/
theorem answered_of_prepare {directory : String} {modules : List SourceModule}
    (hhash : hashOf flags = .ok (some hash)) (hnode : flags.value? .node = some name)
    (hnone : flags.value? .manifest = none)
    (h : (prepare (World.host current) flags).run world = (.ok (directory, modules), after)) :
    Answered current flags world name hash modules ∧
      ∃ url, after.requests = world.requests ++ [⟨url, hash⟩] := by
  obtain ⟨config, middle, hconfig, h⟩ := exists_of_run_bind_eq_ok h
  replace hconfig := run_eq_of_run_adapt_eq_ok hconfig
  have hmiddle : ((configOf (World.host current) flags).run world).2 = world :=
    run_configOf_snd flags world
  rw [hconfig] at hmiddle
  rw [show middle = world from hmiddle] at h
  obtain ⟨options, hoptions, h⟩ := exists_of_run_result_bind_eq_ok h
  replace hoptions := ok_of_mapError_eq_ok hoptions
  have hoverride := hashOverride_of_optionsOf hhash hoptions
  have hplace : sourceOf flags options.hashOverride = .ok (.node name hash) := by
    simp only [sourceOf, hnone, hnode, hoverride]
  obtain ⟨place, hplace', h⟩ := exists_of_run_result_bind_eq_ok h
  obtain rfl : ManifestSource.node name hash = place :=
    Except.ok.inj (hplace.symm.trans hplace')
  obtain ⟨fetched, asked, hfetch, h⟩ := exists_of_run_bind_eq_ok h
  obtain ⟨⟨⟩, told, htell, h⟩ := exists_of_run_bind_eq_ok h
  obtain ⟨modules, last, hmodules, h⟩ := exists_of_run_bind_eq_ok h
  cases h
  replace hfetch := run_eq_of_run_adapt_eq_ok hfetch
  replace hmodules := run_eq_of_run_adapt_eq_ok hmodules
  obtain ⟨manifest, hanswers, hcontent, hsource⟩ := exists_answers_of_run_fetchFromNode hfetch
  obtain ⟨url, _, _, hrun, hrequests⟩ := run_fetchFromNode current _ hanswers
  refine ⟨⟨config, options, manifest, congrArg Prod.fst hconfig, hoptions, hanswers, ?_⟩, url, ?_⟩
  · rw [← hcontent, ← hsource, ← fst_run_modulesOf options fetched]
    exact congrArg Prod.fst hmodules
  · have hquiet : Keeps (fun _ ↦ False) (Tells hash) _ _
        (modulesOf (World.host current) options fetched) := keeps_modulesOf hoverride fetched
    have hlast := (hquiet.log told).requests_eq
    rw [hmodules] at hlast
    cases htell
    have hasked := congrArg (fun run ↦ run.2.requests) (hfetch.symm.trans hrun)
    exact hlast.trans (hasked.trans hrequests)

/-! ### Spellings -/

/-- Other flags that choose the same but for one setting. -/
structure Flags.SameBut (setting : Setting) (flags other : Flags) : Prop where
  value? : ∀ s, s ≠ setting → other.value? s = flags.value? s
  has : ∀ switch, other.has switch = flags.has switch

/-- A run depends on what its flags choose and on the source that they name. -/
theorem run_congr {m : Type → Type} [Monad m] (host : Host m) (h : flags.Agree other)
    (hnode : flags.value? .node = other.value? .node)
    (hmanifest : flags.value? .manifest = other.value? .manifest) :
    run host flags = run host other := by
  have hsource : sourceOf flags = sourceOf other := by
    funext chosen
    simp only [sourceOf, hnode, hmanifest]
  have hprepare : prepare host flags = prepare host other := by
    simp only [prepare, configOf_congr host h, optionsOf_congr h, hsource]
  rw [run, run, hprepare]

theorem hashOf_of_spells (htext : flags.value? .hash = some text) (h : hash.Spells text) :
    hashOf flags = .ok (some hash) := by
  simp only [hashOf, htext, ScriptHash.parse_eq_ok_iff_spells.2 h]
  rfl

/-- **How the hash is spelled does not matter.** -/
theorem run_eq_of_spells {spelled : String} (current : Location)
    (hsame : flags.SameBut .hash other) (hhash : hashOf flags = .ok (some hash))
    (hspelled : other.value? .hash = some spelled) (hspells : hash.Spells spelled) :
    run (World.host current) other = run (World.host current) flags := by
  have hagree : other.Agree flags :=
    { out := hsame.value? .out (by decide)
      name := hsame.value? .name (by decide)
      config := hsame.value? .config (by decide)
      hash := (hashOf_of_spells hspelled hspells).trans hhash.symm
      has := hsame.has }
  exact run_congr _ hagree (hsame.value? .node (by decide)) (hsame.value? .manifest (by decide))

/-- **A run binds to the contract that it asks for.** If it is given a node and a hash, every
request that it sends asks for the contract at that hash, every contract that it loads has that
hash, and it never ends for want of one. The modules that it prepares name that hash and no other,
whether or not they come to be written, and without a file they are made of the manifest that the
node answers with. If the run succeeds, the files that it names hold them, and without a file the
node was asked once. None of this depends on how the hash is spelled. -/
theorem run_names_queried_contract (current : Location) (world : World)
    (hnode : flags.value? .node = some name) (htext : flags.value? .hash = some text)
    (hparse : ScriptHash.parse text = .ok hash) :
    Log (Asks hash) (Tells hash) world ((run (World.host current) flags).run world).2 ∧
      ((run (World.host current) flags).run world).1 ≠ .error (.generation .missingHash) ∧
      (∀ directory modules,
        ((prepare (World.host current) flags).run world).1 = .ok (directory, modules) →
          Names hash (flags.has .embedHash) modules ∧
            (flags.value? .manifest = none → Answered current flags world name hash modules)) ∧
      (∀ paths, ((run (World.host current) flags).run world).1 = .ok paths →
        (∃ directory modules,
          ((prepare (World.host current) flags).run world).1 = .ok (directory, modules) ∧
            paths = modules.map (fun m ↦ Files.join directory m.fileName) ∧
            ∀ m ∈ modules, ((run (World.host current) flags).run world).2.files.read current
              (Files.join directory m.fileName) = .ok m.text.toUTF8) ∧
          (flags.value? .manifest = none → ∃ url,
            ((run (World.host current) flags).run world).2.requests =
              world.requests ++ [⟨url, hash⟩])) ∧
      ∀ other spelled, flags.SameBut .hash other → other.value? .hash = some spelled →
        hash.Spells spelled → run (World.host current) other = run (World.host current) flags := by
  have hhash := hashOf_of_spells htext (ScriptHash.parse_eq_ok_iff_spells.1 hparse)
  have hkeeps : Keeps (Asks hash) (Tells hash) (· ≠ .generation .missingHash) (fun _ ↦ True)
      (run (World.host current) flags) := keeps_run hhash
  refine ⟨hkeeps.log world, fun h ↦ hkeeps.error (Prod.ext h rfl) rfl, ?prepared, ?written,
    fun other spelled hsame hspelled hspells ↦
      run_eq_of_spells current hsame hhash hspelled hspells⟩
  case prepared =>
    intro directory modules h
    have hprepare : (prepare (World.host current) flags).run world =
        (.ok (directory, modules), _) := Prod.ext h rfl
    exact ⟨(keeps_prepare hhash).value hprepare,
      fun hnone ↦ (answered_of_prepare hhash hnode hnone hprepare).1⟩
  case written =>
    intro paths h
    have hrun : (run (World.host current) flags).run world = (.ok paths, _) := Prod.ext h rfl
    obtain ⟨prepared, middle, hprepare, hwrite⟩ := exists_of_run_bind_eq_ok hrun
    obtain ⟨options, p, hprepared, rfl⟩ := exists_prepared hprepare
    replace hwrite := run_eq_of_run_adapt_eq_ok hwrite
    obtain ⟨hplain, hnodup⟩ := plain_modules options hprepared.isLegal
    obtain ⟨hpaths, location, hdelivered⟩ :=
      exists_delivered (by simp [Module.modules]) hplain hnodup hwrite
    refine ⟨⟨_, _, congrArg Prod.fst hprepare, hpaths, hdelivered.read_eq⟩, fun hnone ↦ ?_⟩
    -- Writing asks nothing.
    have hquiet : Keeps (fun _ ↦ False) (Tells hash) _ _ (writeModules (World.host current)
        options.outputDirectory (Module.modules options p)) := keeps_writeModules _ _
    have hlast := (hquiet.log middle).requests_eq
    rw [hwrite] at hlast
    obtain ⟨-, url, hasked⟩ := answered_of_prepare hhash hnode hnone hprepare
    exact ⟨url, hlast.trans hasked⟩

/-- The hash is given with capitals, a mark and spaces. -/
theorem run_names_queried_contract_vault :
    let hash : ScriptHash := ⟨List.replicate ScriptHash.size 0xab, List.length_replicate⟩
    let flags : Flags := ⟨[(.node, "https://node"),
      (.hash, " 0XABABABABABABABABABABABABABABABABABABABAB ")], [.embedHash, .implementation]⟩
    let paths := ["src/contracts/Vault.ts", "src/contracts/VaultImpl.ts"]
    ((run (World.host []) flags).run vaultWorld).1 = .ok paths ∧
      ((run (World.host []) flags).run vaultWorld).2.requests.map (·.hash) = [hash] ∧
      Log (Asks hash) (Tells hash) vaultWorld ((run (World.host []) flags).run vaultWorld).2 ∧
      ∃ directory modules, Names hash true modules ∧
        paths = modules.map fun m ↦ Files.join directory m.fileName := by
  intro hash flags paths
  have hparse : ScriptHash.parse " 0XABABABABABABABABABABABABABABABABABABABAB " = .ok hash := by
    decide +kernel
  have hrun : ((run (World.host []) flags).run vaultWorld).1 = .ok paths := by decide +kernel
  have hnode : flags.value? .node = some "https://node" := rfl
  obtain ⟨hlog, -, hprepared, hwritten, -⟩ :=
    run_names_queried_contract [] vaultWorld hnode rfl hparse
  obtain ⟨⟨directory, modules, hprepare, hpaths, -⟩, -⟩ := hwritten paths hrun
  have hnames := (hprepared directory modules hprepare).1
  exact ⟨hrun, by decide +kernel, hlog, directory, modules, hnames, hpaths⟩

end ContractBindings
