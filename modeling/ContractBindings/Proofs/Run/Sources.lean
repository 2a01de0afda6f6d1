import ContractBindings.Proofs.Json.RoundTrip
import ContractBindings.Proofs.Run.Fetching

/-!
# Manifests from nodes and from files

A run makes the same of a manifest wherever it comes from (`run_source_irrelevant`). Three things
are behind this. The text that is taken from the answer of a node need not be the text of the file,
but it is read as the same value (`parse_manifestText`). The hash that a node is asked for is also
the one that is chosen, and the chosen one counts more than what a source implies
(`load_congr`). And what is asked and told on the way is not looked at again: preparing ends with
the files as they were, and writing depends on nothing but the files and their disk
(`DependsOnFiles`).
-/

namespace ContractBindings

open Files (Location Tree)

variable {ε ε' α β : Type} {world : World} {current : Location} {flags other : Flags}
  {options : Options} {config : Config} {hash : ScriptHash} {name path source : String}
  {manifest v : Json}

/-! ### Texts of one value -/

/-- A manifest in an answer stands for a value: an object whose numbers are integers for itself, a
string for the value that it is the text of. -/
inductive Carries : (manifest value : Json) → Prop where
  | object {members : List (String × Json)} (h : Json.Integral (.object members)) :
    Carries (.object members) (.object members)
  | text {s : String} {value : Json} (h : Json.parse s = .ok value) : Carries (.string s) value

/-- The text that is taken from an answer is read as what the manifest in it stands for. -/
theorem parse_manifestText (hcarries : Carries manifest v) (hsource : Json.parse source = .ok v) :
    Json.parse (manifestText manifest) = .ok v := by
  rcases hcarries with ⟨hintegral⟩ | ⟨hparse⟩
  · exact Json.parse_text hsource hintegral
  · exact hparse

/-- A chosen hash leaves nothing to the source. -/
theorem load_congr (hoverride : options.hashOverride = some hash) (body : Json)
    (sourceHash otherHash : Option ScriptHash) :
    Manifest.load options ⟨body, sourceHash⟩ = Manifest.load options ⟨body, otherHash⟩ := by
  have hhash : Manifest.contractHash options ⟨body, sourceHash⟩ =
      Manifest.contractHash options ⟨body, otherHash⟩ := by
    rw [Manifest.contractHash, Manifest.contractHash, hoverride]
    rfl
  rw [Manifest.load, Manifest.load, hhash]

theorem modulesFor_congr (hoverride : options.hashOverride = some hash) {content : String}
    (hcontent : Json.parse content = .ok v) (hsource : Json.parse source = .ok v)
    (sourceHash otherHash : Option ScriptHash) :
    modulesFor options content sourceHash = modulesFor options source otherHash := by
  have hdocument : ∀ {text : String} {hash : Option ScriptHash}, Json.parse text = .ok v →
      Manifest.Document.parse text hash = .ok ⟨v, hash⟩ := by
    intro text hash h
    rw [Manifest.Document.parse, h]
  rw [modulesFor, modulesFor, hdocument hcontent, hdocument hsource]
  show (Manifest.load options _).result >>= _ = (Manifest.load options _).result >>= _
  rw [load_congr hoverride v sourceHash otherHash]

/-! ### Preparing -/

/-- What is prepared once a manifest is fetched. -/
def preparedFrom (options : Options) (fetched : FetchedManifest) :
    Except RunError (String × List SourceModule) := do
  let modules ← (modulesFor options fetched.content fetched.scriptHash).mapError .generation
  return (options.outputDirectory, modules)

theorem fst_run_prepare_of_config_error {error : ConfigError}
    (h : ((configOf (World.host current) flags).run world).1 = .error error) :
    ((prepare (World.host current) flags).run world).1 = .error (.config error) := by
  have hconfig : ((configOf (World.host current) flags).adapt RunError.config).run world =
      (.error (.config error), world) := by
    rw [run_adapt, h, run_configOf_snd]
    rfl
  rw [prepare, run_bind_of_error hconfig]

/-- A run whose choices are made and whose manifest is fetched fails over nothing but the
manifest. -/
theorem fst_run_prepare {place : ManifestSource} {fetched : FetchedManifest} {middle : World}
    (hconfig : ((configOf (World.host current) flags).run world).1 = .ok config)
    (hoptions : optionsOf flags config = .ok options)
    (hplace : sourceOf flags options.hashOverride = .ok place)
    (hfetch : (fetch (World.host current) config.node place).run world = (.ok fetched, middle)) :
    ((prepare (World.host current) flags).run world).1 = preparedFrom options fetched := by
  have hconfig' : ((configOf (World.host current) flags).adapt RunError.config).run world =
      (.ok config, world) := by
    rw [run_adapt, hconfig, run_configOf_snd]
    rfl
  have hfetch' : ((fetch (World.host current) config.node place).adapt
      (RunError.generation ∘ GenerationError.fetch)).run world = (.ok fetched, middle) := by
    rw [run_adapt, hfetch]
    rfl
  have hmodules : ∀ middle, (((modulesOf (World.host current) options fetched).adapt
      RunError.generation).run middle).1 =
        (modulesFor options fetched.content fetched.scriptHash).mapError .generation := by
    intro middle
    rw [run_adapt, fst_run_modulesOf]
  have hoptions' : (optionsOf flags config).mapError RunError.generation = .ok options :=
    congrArg (Except.mapError _) hoptions
  rw [prepare, run_bind_of_ok hconfig', run_result_bind hoptions', run_result_bind hplace,
    run_bind_of_ok hfetch', run_lift_bind]
  exact fst_run_bind (hmodules _) fun _ _ ↦ rfl

theorem exists_run_fetch_node (current : Location)
    (hanswers : Answers world.reply config.node name hash manifest) :
    ∃ location middle, (fetch (World.host current) config.node (.node name hash)).run world =
      (.ok ⟨manifestText manifest, location, some hash⟩, middle) := by
  let told : World := { world with notices := world.notices ++ [.fetching (.node name hash)] }
  obtain ⟨-, location, middle, hrun, -⟩ := run_fetchFromNode current told hanswers
  exact ⟨location, middle, hrun⟩

theorem exists_run_fetch_file (settings : NodeSettings)
    (hread : world.files.read current path = .ok source.toUTF8) :
    ∃ location middle, (fetch (World.host current) settings (.file path)).run world =
      (.ok ⟨source, location, none⟩, middle) := by
  let told : World := { world with notices := world.notices ++ [.fetching (.file path)] }
  obtain ⟨location, hrun⟩ := run_fetchFile told hread
  exact ⟨location, told, hrun⟩

/-! ### Writing -/

/-- What comes of a computation, and the files that it leaves, depend on nothing but the files and
their disk. -/
def DependsOnFiles (x : StateM World α) : Prop :=
  ∀ world other, SameFiles world other →
    (x world).1 = (x other).1 ∧ SameFiles (x world).2 (x other).2

section DependsOnFiles

variable {x : ExceptT ε (StateM World) α} {f : α → ExceptT ε (StateM World) β}

theorem DependsOnFiles.bind (hx : DependsOnFiles x.run) (hf : ∀ a, DependsOnFiles (f a).run) :
    DependsOnFiles (x >>= f).run := by
  intro world other hsame
  have hfirst := hx world other hsame
  show ((x >>= f).run world).1 = ((x >>= f).run other).1 ∧
    SameFiles ((x >>= f).run world).2 ((x >>= f).run other).2
  rw [run_bind, run_bind]
  rcases hrun : x.run world with ⟨result, middle⟩
  rcases hother : x.run other with ⟨result', middle'⟩
  obtain ⟨rfl, hmiddle⟩ : result = result' ∧ SameFiles middle middle' := by
    rwa [show x.run world = _ from hrun, show x.run other = _ from hother] at hfirst
  rcases result with e | a
  · exact ⟨rfl, hmiddle⟩
  · exact hf a middle middle' hmiddle

theorem DependsOnFiles.adapt (hx : DependsOnFiles x.run) (g : ε → ε') :
    DependsOnFiles (x.adapt g).run := by
  intro world other hsame
  obtain ⟨hresult, hafter⟩ := hx world other hsame
  exact ⟨congrArg (Except.mapError g) hresult, hafter⟩

theorem dependsOnFiles_pure (a : α) :
    DependsOnFiles (pure a : ExceptT ε (StateM World) α).run :=
  fun _ _ hsame ↦ ⟨rfl, hsame⟩

theorem dependsOnFiles_tell (notice : Notice) :
    DependsOnFiles (liftM ((World.host current).tell notice) :
      ExceptT ε (StateM World) Unit).run :=
  fun _ _ hsame ↦ ⟨rfl, hsame.files, hsame.disk⟩

theorem dependsOnFiles_changing
    (change : Files.Disk → Files.Tree → Except Files.Fault α × Files.Tree) :
    DependsOnFiles (World.changing change).run := by
  intro world other hsame
  have hchange : change world.disk world.files = change other.disk other.files := by
    rw [hsame.files, hsame.disk]
  have hresult : (change world.disk world.files).1 = (change other.disk other.files).1 :=
    congrArg Prod.fst hchange
  have hfiles : (change world.disk world.files).2 = (change other.disk other.files).2 :=
    congrArg Prod.snd hchange
  exact ⟨hresult, hfiles, hsame.disk⟩

theorem DependsOnFiles.mapM (hf : ∀ a, DependsOnFiles (f a).run) (l : List α) :
    DependsOnFiles (l.mapM f).run := by
  induction l with
  | nil => exact dependsOnFiles_pure []
  | cons a l ih =>
    rw [List.mapM_cons]
    exact (hf a).bind fun b ↦ ih.bind fun bs ↦ dependsOnFiles_pure (b :: bs)

end DependsOnFiles

theorem dependsOnFiles_writeModules (directory : String) (modules : List SourceModule) :
    DependsOnFiles (writeModules (World.host current) directory modules).run := by
  have hcreate : DependsOnFiles ((World.host current).createDirectories directory).run :=
    dependsOnFiles_changing fun disk files ↦ files.createDirectories disk current directory
  have hwrite : ∀ path content,
      DependsOnFiles ((World.host current).writeFile path content).run := fun path content ↦
    dependsOnFiles_changing fun disk files ↦ files.write disk current path content
  refine (hcreate.adapt _).bind fun _ ↦ DependsOnFiles.mapM (fun m ↦ ?_) modules
  refine ((hwrite _ _).adapt _).bind fun _ ↦ ?_
  exact (dependsOnFiles_tell _).bind fun _ ↦ dependsOnFiles_pure _

/-- Runs that prepare the same in worlds with the same files come to the same and leave the same
files. -/
theorem run_eq_of_prepare_eq
    (h : ((prepare (World.host current) flags).run world).1 =
      ((prepare (World.host current) other).run world).1) :
    ((run (World.host current) flags).run world).1 =
        ((run (World.host current) other).run world).1 ∧
      ((run (World.host current) flags).run world).2.files =
        ((run (World.host current) other).run world).2.files := by
  have hleft := leavesFiles_prepare current flags world
  have hleft' := leavesFiles_prepare current other world
  rw [run, run, run_bind, run_bind]
  rcases hprepare : (prepare (World.host current) flags).run world with ⟨result, middle⟩
  rcases hprepare' : (prepare (World.host current) other).run world with ⟨result', middle'⟩
  rw [hprepare] at h hleft
  rw [hprepare'] at h hleft'
  obtain rfl : result = result' := h
  have hmiddle : SameFiles middle middle' := hleft.trans hleft'.symm
  rcases result with error | ⟨directory, modules⟩
  · exact ⟨rfl, hmiddle.files⟩
  · obtain ⟨hresult, hafter⟩ := (dependsOnFiles_writeModules directory modules).adapt
      RunError.generation middle middle' hmiddle
    exact ⟨hresult, hafter.files⟩

/-! ### Sources -/

/-- **The source of a manifest does not matter.** For the same choices and the same hash, a run that
asks a node for a manifest and a run that reads a text of the same value from a file prepare the
same modules, or fail with the same error; and they leave the same files, or fail with the same
error over these. -/
theorem run_source_irrelevant (hagree : flags.Agree other) (hhash : hashOf flags = .ok (some hash))
    (hnode : flags.value? .node = some name) (hnone : flags.value? .manifest = none)
    (hfile : other.value? .manifest = some path)
    (hanswers : ∀ config, ((configOf (World.host current) flags).run world).1 = .ok config →
      Answers world.reply config.node name hash manifest)
    (hcarries : Carries manifest v) (hread : world.files.read current path = .ok source.toUTF8)
    (hsource : Json.parse source = .ok v) :
    ((prepare (World.host current) flags).run world).1 =
        ((prepare (World.host current) other).run world).1 ∧
      ((run (World.host current) flags).run world).1 =
        ((run (World.host current) other).run world).1 ∧
      ((run (World.host current) flags).run world).2.files =
        ((run (World.host current) other).run world).2.files := by
  have hsame := configOf_congr (World.host current) hagree
  have hprepare : ((prepare (World.host current) flags).run world).1 =
      ((prepare (World.host current) other).run world).1 := by
    rcases hconfig : ((configOf (World.host current) flags).run world).1 with error | config
    · rw [fst_run_prepare_of_config_error hconfig,
        fst_run_prepare_of_config_error (hsame ▸ hconfig)]
    obtain ⟨options, hoptions⟩ : ∃ options, optionsOf flags config = .ok options := by
      rw [optionsOf, hhash]
      exact ⟨_, rfl⟩
    have hoverride := hashOverride_of_optionsOf hhash hoptions
    have hplace : sourceOf flags options.hashOverride = .ok (.node name hash) := by
      simp only [sourceOf, hnone, hnode, hoverride]
    have hplace' : sourceOf other options.hashOverride = .ok (.file path) := by
      simp only [sourceOf, hfile]
    obtain ⟨location, middle, hfetch⟩ := exists_run_fetch_node current (hanswers config hconfig)
    obtain ⟨location', middle', hfetch'⟩ := exists_run_fetch_file config.node hread
    have hcontent := parse_manifestText hcarries hsource
    rw [fst_run_prepare hconfig hoptions hplace hfetch,
      fst_run_prepare (hsame ▸ hconfig) (optionsOf_congr hagree config ▸ hoptions) hplace' hfetch',
      preparedFrom, preparedFrom, modulesFor_congr hoverride hcontent hsource (some hash) none]
  exact ⟨hprepare, run_eq_of_prepare_eq hprepare⟩

/-- The manifest of a contract without members, with a number in it. -/
def vaultManifest : Json :=
  .object [("abi", .object [("methods", .array [])]), ("extra", .number (.integer 7)),
    ("name", .string "Vault")]

/-- A text of the manifest. -/
def vaultFile : String :=
  "\x7b \"name\": \"Vault\", \"extra\": 7, \"abi\": \x7b \"methods\": [] \x7d \x7d"

/-- An answer that carries the manifest, in another order and with an escape. -/
def vaultAnswer : String :=
  "\x7b\"result\":\x7b\"manifest\":\x7b\"abi\":\x7b\"methods\":[]\x7d," ++
    "\"name\":\"\\u0056ault\",\"extra\":7\x7d\x7d\x7d"

/-- A world in which the manifest can be had from a file and from every node. -/
def vaultWorld : World :=
  .ofFiles (Tree.empty.set ["m.json"] (.file vaultFile.toUTF8))
    fun _ ↦ .answered 200 (some vaultAnswer)

/-- Whether a value is the manifest. Equality of JSON values is not decidable, that of the texts and
numbers in them is. -/
def isVaultManifest : Json → Bool
  | .object [(a, .object [(b, .array [])]), (c, .number (.integer n)), (d, .string name)] =>
    [a, b, c, d, name] == ["abi", "methods", "extra", "name", "Vault"] && n == 7
  | _ => false

theorem eq_of_isVaultManifest {v : Json} (h : isVaultManifest v = true) : v = vaultManifest := by
  unfold isVaultManifest at h
  split at h
  case h_1 a b c n d name =>
    rw [Bool.and_eq_true, beq_iff_eq, beq_iff_eq] at h
    obtain ⟨hnames, rfl⟩ := h
    cases hnames
    rfl
  case h_2 => cases h

theorem parse_vaultFile : Json.parse vaultFile = .ok vaultManifest := by
  have h : (Json.parse vaultFile).toOption.any isVaultManifest = true := by decide +kernel
  cases hparse : Json.parse vaultFile with
  | error fault =>
    rw [hparse] at h
    cases h
  | ok v =>
    rw [hparse] at h
    rw [eq_of_isVaultManifest h]

theorem parse_vaultAnswer : NodeAnswer.parse vaultAnswer = .ok ⟨some vaultManifest, none⟩ := by
  have h : (NodeAnswer.parse vaultAnswer).toOption.any (fun answer ↦
      answer.manifest.any isVaultManifest && answer.error.isNone) = true := by
    decide +kernel
  cases hparse : NodeAnswer.parse vaultAnswer with
  | error fault =>
    rw [hparse] at h
    cases h
  | ok answer =>
    obtain ⟨manifest, error⟩ := answer
    rw [hparse] at h
    obtain ⟨hmanifest, herror⟩ := Bool.and_eq_true_iff.1 h
    obtain ⟨v, rfl, hv⟩ := (Option.any_eq_true _ _).1 hmanifest
    obtain rfl := Option.isNone_iff_eq_none.1 herror
    rw [eq_of_isVaultManifest hv]

theorem integral_vaultManifest : Json.Integral vaultManifest := by
  refine .object fun m hm ↦ ?_
  simp only [List.mem_cons, List.not_mem_nil, or_false] at hm
  rcases hm with rfl | rfl | rfl
  · exact .object (List.forall_mem_singleton.2 (.array (List.forall_mem_nil _)))
  · exact .integer ⟨by decide, by decide⟩
  · exact .string _

theorem answers_vaultWorld (hash : ScriptHash) :
    Answers vaultWorld.reply Config.default.node "https://node" hash vaultManifest := by
  have hresolve : Config.default.node.resolve "https://node" = .ok "https://node" := by
    decide +kernel
  have hweb : (Url.parseWeb "https://node").isOk = true := by decide +kernel
  rcases hurl : Url.parseWeb "https://node" with fault | url
  · rw [hurl] at hweb
    cases hweb
  · exact ⟨"https://node", url, 200, vaultAnswer, hresolve, hurl, rfl, rfl, parse_vaultAnswer⟩

theorem run_source_irrelevant_vault :
    let hash : ScriptHash := ⟨List.replicate ScriptHash.size 0xab, List.length_replicate⟩
    let asking : Flags := ⟨[(.node, "https://node"), (.hash, hash.text)], [.embedHash]⟩
    let reading : Flags := ⟨[(.manifest, "m.json"), (.hash, hash.text)], [.embedHash]⟩
    ((run (World.host []) asking).run vaultWorld).1.toOption = some ["src/contracts/Vault.ts"] ∧
      ((run (World.host []) asking).run vaultWorld).1 =
        ((run (World.host []) reading).run vaultWorld).1 ∧
      ((run (World.host []) asking).run vaultWorld).2.files =
        ((run (World.host []) reading).run vaultWorld).2.files := by
  intro hash asking reading
  have hagree : asking.Agree reading := ⟨rfl, rfl, rfl, rfl, fun _ ↦ rfl⟩
  have hhash : hashOf asking = .ok (some hash) := by decide +kernel
  have hanswers : ∀ config, ((configOf (World.host []) asking).run vaultWorld).1 = .ok config →
      Answers vaultWorld.reply config.node "https://node" hash vaultManifest := by
    rintro config ⟨⟩
    exact answers_vaultWorld hash
  have hread : vaultWorld.files.read [] "m.json" = .ok vaultFile.toUTF8 := by decide +kernel
  have hsame := run_source_irrelevant hagree hhash rfl rfl rfl hanswers
    (.object integral_vaultManifest) hread parse_vaultFile
  exact ⟨by decide +kernel, hsame.2⟩

end ContractBindings
