import ContractBindings.Proofs.Run.Fetching
import ContractBindings.Proofs.Run.Written

/-!
# Flags that name a source

Whether a run has a source for its manifest is looked at twice: when a command line is read, and
when the run makes its choices. The two agree. A command line is accepted only if its flags name a
file or a node, and with a node the hash of the contract (`Flags.NamesSource`), and from such flags
the run gets a source as soon as their hash can be read (`exists_source`). So the errors that a run
has for a missing source never come up behind the reader of command lines, however the flags are
ordered and spelled (`run_of_parsed_has_source`).
-/

namespace ContractBindings

open Files (Location)

variable {ε α β : Type} {flags other : Flags} {config : Config} {options : Options}
  {arguments : List String} {text : String}

/-! ### What the reader of command lines accepts -/

/-- Flags that name one source of the manifest, and for a node the hash of the contract. -/
structure Flags.NamesSource (flags : Flags) : Prop where
  /-- A file or a node is named, and not both. -/
  one : (flags.value? .manifest).isSome = !(flags.value? .node).isSome
  /-- A node is asked for the contract at a hash. -/
  hash : (flags.value? .node).isSome → (flags.value? .hash).isSome

/-- **Flags are refused exactly if they do not name a source**, and changed in no case. -/
theorem Flags.check_eq_ok_iff : flags.check = .ok other ↔ other = flags ∧ flags.NamesSource := by
  constructor
  · intro h
    unfold check at h
    split at h
    case h_1 => cases h
    case h_2 => cases h
    case h_3 path hmanifest hnode =>
      cases h
      exact ⟨rfl, ⟨by rw [hmanifest, hnode]; rfl, fun hsome ↦ by rw [hnode] at hsome; cases hsome⟩⟩
    case h_4 name hmanifest hnode =>
      split at h <;> cases h
      case isTrue hhash => exact ⟨rfl, ⟨by rw [hmanifest, hnode]; rfl, fun _ ↦ hhash⟩⟩
  · rintro ⟨rfl, hone, hhash⟩
    unfold check
    split
    case h_1 hmanifest hnode => rw [hmanifest, hnode] at hone; cases hone
    case h_2 hmanifest hnode => rw [hmanifest, hnode] at hone; cases hone
    case h_3 => rfl
    case h_4 hnode => exact if_pos (hhash (by rw [hnode]; rfl))

/-- However a command line is read, its flags are checked in the end. -/
theorem Flags.namesSource_of_parse (h : Flags.parse arguments = .ok flags) :
    flags.NamesSource := by
  obtain ⟨r, -, h⟩ := exists_of_bind_eq_ok h
  obtain ⟨settled, -, h⟩ := exists_of_bind_eq_ok h
  obtain ⟨rfl, hnames⟩ := check_eq_ok_iff.1 h
  exact hnames

/-! ### The source of a run -/

/-- What flags name, with the hash that is read for a node. -/
inductive Flags.Designates (flags : Flags) : ManifestSource → Prop where
  | file {path : String} (h : flags.value? .manifest = some path) : flags.Designates (.file path)
  | node {name text : String} {hash : ScriptHash} (hname : flags.value? .node = some name)
    (htext : flags.value? .hash = some text) (hhash : ScriptHash.parse text = .ok hash) :
    flags.Designates (.node name hash)

/-- A hash that flags give can be read if there are options for them, and it is the chosen one. -/
theorem exists_parse_of_optionsOf (htext : flags.value? .hash = some text)
    (h : optionsOf flags config = .ok options) :
    ∃ hash, ScriptHash.parse text = .ok hash ∧ options.hashOverride = some hash := by
  obtain ⟨chosen, hchosen, -⟩ := exists_of_bind_eq_ok h
  have hread := hchosen
  simp only [hashOf, htext] at hread
  cases hparse : ScriptHash.parse text with
  | error error =>
    rw [hparse] at hread
    cases hread
  | ok hash =>
    rw [hparse] at hread
    cases hread
    exact ⟨hash, rfl, hashOverride_of_optionsOf hchosen h⟩

/-- **Flags that name a source get it**, if there are options for them. -/
theorem exists_source (hnames : flags.NamesSource) (h : optionsOf flags config = .ok options) :
    ∃ source, sourceOf flags options.hashOverride = .ok source ∧ flags.Designates source := by
  cases hmanifest : flags.value? .manifest with
  | some path => exact ⟨.file path, by simp only [sourceOf, hmanifest], .file hmanifest⟩
  | none =>
    have hnode : (flags.value? .node).isSome = true := by simpa [hmanifest] using hnames.one
    obtain ⟨text, htext⟩ := Option.isSome_iff_exists.1 (hnames.hash hnode)
    obtain ⟨name, hname⟩ := Option.isSome_iff_exists.1 hnode
    obtain ⟨hash, hparse, hoverride⟩ := exists_parse_of_optionsOf htext h
    exact ⟨.node name hash, by simp only [sourceOf, hmanifest, hname, hoverride],
      .node hname htext hparse⟩

/-! ### Runs -/

/-- The errors of a run that has no source. -/
def RunError.WantsSource : RunError → Prop
  | nodeWithoutHash | noSource => True
  | _ => False

theorem failsWith_result_bind {p : ε → Prop} {result : Except ε α}
    {f : α → ExceptT ε (StateM World) β} (herror : ∀ error, result = .error error → p error)
    (hf : ∀ a, result = .ok a → FailsWith p (f a)) :
    FailsWith p (ExceptT.mk (pure result) >>= f) := by
  rcases result with error | a
  · rintro world _ after ⟨⟩
    exact herror error rfl
  · exact hf a rfl

/-- A run with flags that name a source fails over anything but a missing source. -/
theorem failsWith_run (current : Location) (hnames : flags.NamesSource) :
    FailsWith (¬ ·.WantsSource) (run (World.host current) flags) := by
  have hprepare : FailsWith (¬ ·.WantsSource) (prepare (World.host current) flags) := by
    refine (failsWith_adapt fun _ ↦ id).bind fun config ↦ ?_
    refine failsWith_result_bind (fun error h ↦ ?_) fun options hoptions ↦ ?_
    · cases hoptions : optionsOf flags config <;> rw [hoptions] at h <;> cases h
      exact id
    refine failsWith_result_bind (fun error h ↦ ?_) fun source _ ↦ ?_
    · obtain ⟨source, hsource, -⟩ := exists_source hnames (ok_of_mapError_eq_ok hoptions)
      rw [hsource] at h
      cases h
    refine (failsWith_adapt fun _ ↦ id).bind fun fetched ↦ (failsWith_lift _).bind fun _ ↦ ?_
    exact (failsWith_adapt fun _ ↦ id).bind fun modules ↦ failsWith_pure _
  exact hprepare.bind fun _ ↦ failsWith_adapt fun _ ↦ id

/-- **A run of an accepted command line has a source.** Its flags name a file or a node and not
both, and a node together with a hash. As soon as there are options for them they have a source,
which is what they name, and for a node the hash that they give. The run ends with neither of the
errors for a missing source, whatever the world is like. -/
theorem run_of_parsed_has_source (h : Flags.parse arguments = .ok flags) :
    (flags.value? .manifest).isSome = !(flags.value? .node).isSome ∧
      ((flags.value? .node).isSome → (flags.value? .hash).isSome) ∧
      (∀ config options, optionsOf flags config = .ok options →
        ∃ source, sourceOf flags options.hashOverride = .ok source ∧ flags.Designates source) ∧
      ∀ current world, ((run (World.host current) flags).run world).1 ≠ .error .nodeWithoutHash ∧
        ((run (World.host current) flags).run world).1 ≠ .error .noSource := by
  have hnames := Flags.namesSource_of_parse h
  refine ⟨hnames.one, hnames.hash, fun _ _ ↦ exists_source hnames, fun current world ↦ ?_⟩
  have hfails := failsWith_run current hnames world
  exact ⟨fun herror ↦ hfails _ _ (Prod.ext herror rfl) trivial,
    fun herror ↦ hfails _ _ (Prod.ext herror rfl) trivial⟩

/-- A command line with a node, its flags in another order than they are described in and one with
its value behind an equals sign. -/
theorem run_of_parsed_has_source_testnet :
    let hash : ScriptHash := ⟨List.replicate ScriptHash.size 0xab, List.length_replicate⟩
    let arguments := ["-v", "--hash=0XABABABABABABABABABABABABABABABABABABABAB", "--node", "testnet"]
    let world := World.ofFiles .empty fun _ ↦ .silence
    ∃ flags, Flags.parse arguments = .ok flags ∧
      (∃ options, optionsOf flags .default = .ok options ∧
        sourceOf flags options.hashOverride = .ok (.node "testnet" hash)) ∧
      ((run (World.host []) flags).run world).1 ≠ .error .nodeWithoutHash := by
  intro hash arguments world
  let flags : Flags := ⟨[(.hash, "0XABABABABABABABABABABABABABABABABABABABAB"),
    (.node, "testnet")], [.verbose]⟩
  have hparse : Flags.parse arguments = .ok flags := by decide +kernel
  have hhash : ScriptHash.parse "0XABABABABABABABABABABABABABABABABABABABAB" = .ok hash := by
    decide +kernel
  obtain ⟨-, -, hsource, hrun⟩ := run_of_parsed_has_source hparse
  refine ⟨flags, hparse, ?_, (hrun [] world).1⟩
  obtain ⟨options, hoptions⟩ : ∃ options, optionsOf flags .default = .ok options := by
    have hchosen : hashOf flags = .ok (some hash) := by
      rw [hashOf, show flags.value? .hash = some _ from rfl]
      dsimp only
      rw [hhash]
      rfl
    rw [optionsOf, hchosen]
    exact ⟨_, rfl⟩
  obtain ⟨source, hsource, hdesignates⟩ := hsource _ _ hoptions
  refine ⟨options, hoptions, hsource.trans ?_⟩
  cases hdesignates with
  | file h => cases h
  | node hname htext hread =>
    cases hname
    cases htext
    rw [hhash] at hread
    cases hread
    rfl

end ContractBindings
