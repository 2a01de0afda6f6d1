import ContractBindings.Proofs.Binding.Sketch
import ContractBindings.Proofs.Files.Tree
import ContractBindings.Proofs.Module.Text
import ContractBindings.Proofs.Run.Steps

/-!
# What runs leave on the disk

A run leaves the disk as it is or writes all that it was asked for, unless the writing itself fails
(`run_writes_all_or_nothing`). Nothing is written before the modules are prepared, and preparing
leaves the files as they are. Writing adds directories, all of them on the way to the output
directory, and then files in that directory, each behind the name of its module alone: the name of a
class is an identifier, whatever the contract is called, so the path of a module leads nowhere else.
-/

namespace ContractBindings

open Files (Location Tree)

variable {ε ε' α β : Type} {world after : World} {flags : Flags} {current location : Location}
  {directory : String} {modules : List SourceModule} {paths : List String}

/-! ### Only writing fails -/

/-- Every error of a computation has a property. -/
def FailsWith (p : ε → Prop) (x : ExceptT ε (StateM World) α) : Prop :=
  ∀ world error after, x.run world = (.error error, after) → p error

section FailsWith

variable {p : ε → Prop} {x : ExceptT ε (StateM World) α} {f : α → ExceptT ε (StateM World) β}

theorem FailsWith.bind (hx : FailsWith p x) (hf : ∀ a, FailsWith p (f a)) :
    FailsWith p (x >>= f) := by
  intro world error after h
  rw [run_bind] at h
  rcases hrun : x.run world with ⟨e | a, middle⟩ <;> rw [hrun] at h
  · cases h
    exact hx world _ _ hrun
  · exact hf a middle error after h

theorem failsWith_adapt {q : ε' → Prop} {g : ε → ε'} (hg : ∀ e, q (g e)) :
    FailsWith q (x.adapt g) := by
  intro world error after h
  rw [run_adapt] at h
  rcases hrun : x.run world with ⟨e | a, middle⟩ <;> rw [hrun] at h <;> cases h
  exact hg e

theorem failsWith_lift (y : StateM World α) :
    FailsWith p (liftM y : ExceptT ε (StateM World) α) := by
  rintro world error after ⟨⟩

theorem failsWith_pure (a : α) : FailsWith p (pure a : ExceptT ε (StateM World) α) := by
  rintro world error after ⟨⟩

theorem FailsWith.mapM (hf : ∀ a, FailsWith p (f a)) (l : List α) : FailsWith p (l.mapM f) := by
  induction l with
  | nil => exact failsWith_pure []
  | cons a l ih =>
    rw [List.mapM_cons]
    exact (hf a).bind fun b ↦ ih.bind fun bs ↦ failsWith_pure (b :: bs)

end FailsWith

/-- One of the modules has a path that leads to the location. -/
def Covers (current : Location) (directory : String) (modules : List SourceModule) (tree : Tree)
    (location : Location) : Prop :=
  ∃ m ∈ modules, tree.locate current (Files.join directory m.fileName) = .ok location

/-- The path of each module leads to a location, which holds the text of the last module whose path
leads there. -/
def Placed (current : Location) (directory : String) (modules : List SourceModule)
    (tree : Tree) : Prop :=
  ∀ m later, m :: later <:+ modules →
    ∃ location, tree.locate current (Files.join directory m.fileName) = .ok location ∧
      (¬ Covers current directory later tree location →
        tree.get? location = some (.file m.text.toUTF8))

/-- Modules with plain names stand in one directory. -/
theorem Placed.exists_walk {tree : Tree} (h : Placed current directory modules tree)
    (hne : modules ≠ []) (hplain : ∀ m ∈ modules, Files.IsPlain m.fileName) :
    ∃ location,
      tree.walk (Tree.origin current directory) (Files.parts directory) = .ok location ∧
      ∀ m ∈ modules,
        tree.locate current (Files.join directory m.fileName) = .ok (location ++ [m.fileName]) := by
  have hwalks : ∀ m ∈ modules, ∃ location,
      tree.walk (Tree.origin current directory) (Files.parts directory) = .ok location ∧
      tree.locate current (Files.join directory m.fileName) =
        .ok (location ++ [m.fileName]) := by
    intro m hm
    obtain ⟨front, later, rfl⟩ := List.append_of_mem hm
    obtain ⟨found, hfound, -⟩ := h m later (List.suffix_append front _)
    obtain ⟨location, hwalk, rfl⟩ := Tree.exists_walk_of_locate_join (hplain m hm) hfound
    exact ⟨location, hwalk, hfound⟩
  obtain ⟨m, rest, rfl⟩ := List.exists_cons_of_ne_nil hne
  obtain ⟨location, hwalk, -⟩ := hwalks m List.mem_cons_self
  refine ⟨location, hwalk, fun m' hm' ↦ ?_⟩
  obtain ⟨other, hother, hlocate⟩ := hwalks m' hm'
  obtain rfl := Except.ok.inj (hwalk.symm.trans hother)
  exact hlocate

/-- Modules with different names hold their own texts. -/
theorem Placed.get?_eq {tree : Tree} (h : Placed current directory modules tree)
    (hnodup : (modules.map (·.fileName)).Nodup)
    (hlocate : ∀ m ∈ modules,
      tree.locate current (Files.join directory m.fileName) = .ok (location ++ [m.fileName])) :
    ∀ m ∈ modules, tree.get? (location ++ [m.fileName]) = some (.file m.text.toUTF8) := by
  intro m hm
  obtain ⟨front, later, rfl⟩ := List.append_of_mem hm
  obtain ⟨found, hfound, hget⟩ := h m later (List.suffix_append front _)
  obtain rfl := Except.ok.inj ((hlocate m hm).symm.trans hfound)
  refine hget ?_
  rintro ⟨m', hm', hcovers⟩
  have hsame := Except.ok.inj
    ((hlocate m' (List.mem_append_right front (.tail m hm'))).symm.trans hcovers)
  have hname : m'.fileName = m.fileName := by simpa using hsame
  rw [List.map_append, List.map_cons] at hnodup
  obtain ⟨hfirst, -⟩ := List.nodup_cons.1 hnodup.of_append_right
  exact hfirst (hname ▸ List.mem_map_of_mem hm')

/-! ### Modules that are written -/

theorem run_changing (change : Files.Disk → Tree → Except Files.Fault α × Tree) (world : World) :
    (World.changing change).run world =
      ((change world.disk world.files).1,
        { world with files := (change world.disk world.files).2 }) :=
  rfl

/-- A change of the files comes to the same in a world as on its files, whether or not it succeeds,
and the disk stays what it is. -/
theorem files_of_run_changing (change : Files.Disk → Tree → Except Files.Fault α × Tree)
    {result : Except Files.Fault α} (h : (World.changing change).run world = (result, after)) :
    change world.disk world.files = (result, after.files) ∧ after.disk = world.disk := by
  rw [run_changing] at h
  obtain ⟨hresult, rfl⟩ := Prod.mk.inj h
  exact ⟨Prod.ext hresult rfl, rfl⟩

theorem write_of_run_writeFile {path : String} {content : ByteArray}
    {result : Except Files.Fault Unit}
    (h : ((World.host current).writeFile path content).run world = (result, after)) :
    world.files.write world.disk current path content = (result, after.files) ∧
      after.disk = world.disk :=
  files_of_run_changing (fun disk files ↦ files.write disk current path content) h

theorem write_of_writeModule {m : SourceModule} {path : String}
    (h : (writeModule (World.host current) directory m).run world = (.ok path, after)) :
    path = Files.join directory m.fileName ∧
      world.files.write world.disk current (Files.join directory m.fileName) m.text.toUTF8 =
        (.ok (), after.files) ∧ after.disk = world.disk := by
  obtain ⟨⟨⟩, middle, hwrite, h⟩ := exists_of_run_bind_eq_ok h
  cases h
  have hfiles := write_of_run_writeFile (run_eq_of_run_adapt_eq_ok hwrite)
  exact ⟨rfl, hfiles⟩

/-- Modules are placed, and where none of their paths leads nothing is changed. -/
structure Overwrote (current : Location) (directory : String) (modules : List SourceModule)
    (before after : Tree) : Prop where
  grows : Tree.Grows before after
  placed : Placed current directory modules after
  kept : ∀ location, ¬ Covers current directory modules after location →
    after.get? location = before.get? location

theorem Overwrote.nil (current : Location) (directory : String) (tree : Tree) :
    Overwrote current directory [] tree tree where
  grows := ⟨fun _ h ↦ h, fun _ h ↦ h⟩
  placed m later hsuffix := absurd (List.suffix_nil.1 hsuffix) (List.cons_ne_nil m later)
  kept _ _ := rfl

/-- **Modules that are written one after the other are placed**, whatever their names. -/
theorem overwrote_of_mapM
    (h : (modules.mapM (writeModule (World.host current) directory)).run world =
      (.ok paths, after)) :
    paths = modules.map (fun m ↦ Files.join directory m.fileName) ∧
      Overwrote current directory modules world.files after.files ∧
        after.disk = world.disk := by
  induction modules generalizing world paths with
  | nil =>
    cases h
    exact ⟨rfl, .nil current directory _, rfl⟩
  | cons m modules ih =>
    rw [List.mapM_cons] at h
    obtain ⟨path, middle, hwrite, h⟩ := exists_of_run_bind_eq_ok h
    obtain ⟨rest, last, hrest, h⟩ := exists_of_run_bind_eq_ok h
    cases h
    obtain ⟨rfl, hwritten, hmiddle⟩ := write_of_writeModule hwrite
    obtain ⟨found, hgrows, hlocate, hget⟩ := Tree.exists_of_write_eq_ok hwritten
    obtain ⟨rfl, hlater, hlast⟩ := ih hrest
    -- What the first path leads to, it leads to in the end, where a later module may stand.
    have hfirst := Tree.locate_of_grows hlater.grows hlocate
    refine ⟨rfl, ⟨hgrows.trans hlater.grows, fun m' later hsuffix ↦ ?_, fun location hnone ↦ ?_⟩,
      hlast.trans hmiddle⟩
    · rcases List.suffix_cons_iff.1 hsuffix with heq | hsuffix
      · obtain ⟨rfl, rfl⟩ := List.cons.inj heq
        refine ⟨found, hfirst, fun hnone ↦ ?_⟩
        rw [hlater.kept _ hnone, hget, if_pos rfl]
      · exact hlater.placed m' later hsuffix
    · have hrest : ¬ Covers current directory modules after.files location :=
        fun ⟨m', hm', hcovers⟩ ↦ hnone ⟨m', .tail m hm', hcovers⟩
      rw [hlater.kept location hrest, hget, if_neg]
      rintro rfl
      exact hnone ⟨m, .head modules, hfirst⟩

/-- What writing modules to a directory leaves: they are placed, everything else is as it was, and
the only new directories are the directory and those that its path goes through. -/
structure Wrote (current : Location) (directory : String) (modules : List SourceModule)
    (before after : Tree) : Prop where
  placed : Placed current directory modules after
  kept : ∀ location, ¬ Covers current directory modules after location →
    (before.get? location).isSome → after.get? location = before.get? location
  added : ∀ location, ¬ Covers current directory modules after location →
    before.get? location = none → (after.get? location).isSome →
      after.get? location = some .directory ∧
        ∃ path ∈ directory :: Files.ancestors directory, after.locate current path = .ok location

theorem Overwrote.wrote {before middle after : Tree}
    (hadds : Tree.AddsDirectories current (directory :: Files.ancestors directory) before middle)
    (h : Overwrote current directory modules middle after) :
    Wrote current directory modules before after where
  placed := h.placed
  kept location hnone hsome := by rw [h.kept location hnone, hadds.kept location hsome]
  added location hnone hbefore hsome := by
    rw [h.kept location hnone] at hsome ⊢
    obtain ⟨hdir, path, hpath, hlocate⟩ := hadds.added location hbefore hsome
    exact ⟨hdir, path, hpath, Tree.locate_of_grows h.grows hlocate⟩

theorem addsDirectories_of_run_createDirectories {result : Except Files.Fault Unit}
    (h : ((World.host current).createDirectories directory).run world = (result, after)) :
    Tree.AddsDirectories current (directory :: Files.ancestors directory) world.files
      after.files ∧ after.disk = world.disk := by
  obtain ⟨hfiles, hdisk⟩ :=
    files_of_run_changing (fun disk files ↦ files.createDirectories disk current directory) h
  have hadds := Tree.addsDirectories_createDirectories world.files world.disk current directory
  rw [hfiles] at hadds
  exact ⟨hadds, hdisk⟩

theorem wrote_of_writeModules
    (h : (writeModules (World.host current) directory modules).run world = (.ok paths, after)) :
    paths = modules.map (fun m ↦ Files.join directory m.fileName) ∧
      Wrote current directory modules world.files after.files := by
  obtain ⟨⟨⟩, middle, hcreate, hwrite⟩ := exists_of_run_bind_eq_ok h
  obtain ⟨hadds, -⟩ :=
    addsDirectories_of_run_createDirectories (run_eq_of_run_adapt_eq_ok hcreate)
  obtain ⟨hpaths, hoverwrote, -⟩ := overwrote_of_mapM hwrite
  exact ⟨hpaths, hoverwrote.wrote hadds⟩

/-- What a file system is like once modules are delivered to a directory: their files stand in the
directory and hold their texts, everything else is as it was, and the only new directories are the
directory and those that its path goes through. -/
structure Delivered (current : Location) (directory : String) (modules : List SourceModule)
    (before after : Tree) (location : Location) : Prop where
  walk_eq : after.walk (Tree.origin current directory) (Files.parts directory) = .ok location
  get?_eq : ∀ m ∈ modules,
    after.get? (location ++ [m.fileName]) = some (.file m.text.toUTF8)
  read_eq : ∀ m ∈ modules,
    after.read current (Files.join directory m.fileName) = .ok m.text.toUTF8
  kept : ∀ other, (∀ m ∈ modules, other ≠ location ++ [m.fileName]) →
    (before.get? other).isSome → after.get? other = before.get? other
  added : ∀ other, (∀ m ∈ modules, other ≠ location ++ [m.fileName]) →
    before.get? other = none → (after.get? other).isSome →
      after.get? other = some .directory ∧
        ∃ path ∈ directory :: Files.ancestors directory, after.locate current path = .ok other

/-- **Modules that are written are delivered**, if their names are plain and differ. -/
theorem exists_delivered (hne : modules ≠ []) (hplain : ∀ m ∈ modules, Files.IsPlain m.fileName)
    (hnodup : (modules.map (·.fileName)).Nodup)
    (h : (writeModules (World.host current) directory modules).run world = (.ok paths, after)) :
    paths = modules.map (fun m ↦ Files.join directory m.fileName) ∧
      ∃ location, Delivered current directory modules world.files after.files location := by
  obtain ⟨hpaths, hwrote⟩ := wrote_of_writeModules h
  obtain ⟨location, hwalk, hlocate⟩ := hwrote.placed.exists_walk hne hplain
  have hget := hwrote.placed.get?_eq hnodup hlocate
  have hnone : ∀ other, (∀ m ∈ modules, other ≠ location ++ [m.fileName]) →
      ¬ Covers current directory modules after.files other := by
    rintro other hother ⟨m, hm, hcovers⟩
    exact hother m hm (Except.ok.inj (hcovers.symm.trans (hlocate m hm)))
  refine ⟨hpaths, location, hwalk, hget, fun m hm ↦ ?_,
    fun other hother ↦ hwrote.kept other (hnone other hother),
    fun other hother ↦ hwrote.added other (hnone other hother)⟩
  rw [Tree.read, hlocate m hm]
  dsimp only [bind, Except.bind]
  rw [hget m hm]
  rfl

/-! ### Runs -/

/-- What has been prepared when a run begins to write: the options that its flags choose together
with the configuration that they name, and the plan of a class whose name is an identifier. -/
structure Prepared (current : Location) (flags : Flags) (world : World) (options : Options)
    (p : Binding.Plan) : Prop where
  options_eq : ∃ config middle,
    (configOf (World.host current) flags).run world = (.ok config, middle) ∧
      optionsOf flags config = .ok options
  prepare_eq : ∃ middle,
    (prepare (World.host current) flags).run world =
      (.ok (options.outputDirectory, Module.modules options p), middle)
  isLegal : Identifier.isLegal p.className = true

/-- Modules are prepared from a plan for a class whose name is an identifier. -/
theorem exists_plan_of_modulesOf {options : Options} {fetched : FetchedManifest}
    (h : (modulesOf (World.host current) options fetched).run world = (.ok modules, after)) :
    ∃ p : Binding.Plan, modules = Module.modules options p ∧
      Identifier.isLegal p.className = true := by
  obtain ⟨document, _, _, h⟩ := exists_of_run_bind_eq_ok h
  obtain ⟨contract, _, _, h⟩ := exists_of_run_bind_eq_ok h
  obtain ⟨p, _, hplan, h⟩ := exists_of_run_bind_eq_ok h
  obtain ⟨⟨⟩, _, _, h⟩ := exists_of_run_bind_eq_ok h
  cases h
  have hchecked := Module.plan_of_planChecked (eq_of_run_result_eq_ok hplan)
  obtain ⟨className, husable, rfl⟩ := Binding.eq_sketch_of_plan hchecked.1
  exact ⟨_, rfl, husable.legal⟩

theorem exists_prepared {prepared : String × List SourceModule}
    (h : (prepare (World.host current) flags).run world = (.ok prepared, after)) :
    ∃ options p, Prepared current flags world options p ∧
      prepared = (options.outputDirectory, Module.modules options p) := by
  have hprepare := h
  obtain ⟨config, _, hconfig, h⟩ := exists_of_run_bind_eq_ok h
  obtain ⟨options, _, hoptions, h⟩ := exists_of_run_bind_eq_ok h
  obtain ⟨source, _, _, h⟩ := exists_of_run_bind_eq_ok h
  obtain ⟨fetched, _, _, h⟩ := exists_of_run_bind_eq_ok h
  obtain ⟨⟨⟩, _, _, h⟩ := exists_of_run_bind_eq_ok h
  obtain ⟨modules, _, hmodules, h⟩ := exists_of_run_bind_eq_ok h
  obtain ⟨p, rfl, hlegal⟩ := exists_plan_of_modulesOf (run_eq_of_run_adapt_eq_ok hmodules)
  cases h
  have hchosen := ok_of_mapError_eq_ok (eq_of_run_result_eq_ok hoptions)
  exact ⟨options, p, ⟨⟨config, _, run_eq_of_run_adapt_eq_ok hconfig, hchosen⟩, ⟨_, hprepare⟩,
    hlegal⟩, rfl⟩

theorem map_fileName_modules (options : Options) (p : Binding.Plan) :
    (Module.modules options p).map (·.fileName) =
      (p.className ++ ".ts") ::
        (if options.withImplementation then [p.className ++ "Impl.ts"] else []) := by
  have himplementation : (Module.implementation p).fileName = p.className ++ "Impl.ts" := by
    show p.className ++ "Impl" ++ ".ts" = _
    rw [String.append_assoc]
    rfl
  rw [Module.modules, List.map_cons]
  split
  case isTrue =>
    rw [List.map_singleton, himplementation]
    rfl
  case isFalse => rfl

/-- The modules of a plan have plain names, which differ. -/
theorem plain_modules (options : Options) {p : Binding.Plan}
    (h : Identifier.isLegal p.className = true) :
    (∀ m ∈ Module.modules options p, Files.IsPlain m.fileName) ∧
      ((Module.modules options p).map (·.fileName)).Nodup := by
  have himplementation : Files.IsPlain (Module.implementation p).fileName :=
    Files.isPlain_fileName (Identifier.isLegal_append h (.literal rfl))
  refine ⟨?_, ?_⟩
  · rw [Module.modules]
    refine List.forall_mem_cons.2 ⟨Files.isPlain_fileName h, ?_⟩
    split
    case isTrue => exact List.forall_mem_singleton.2 himplementation
    case isFalse => simp
  · rw [map_fileName_modules]
    split
    case isTrue => simp
    case isFalse => exact List.nodup_singleton _

/-- The contract has the name of a path, and its modules stand in the output directory. -/
example :
    let manifest := "\x7b\"name\":\"../a\",\"abi\":\x7b\"methods\":[],\"events\":[]\x7d\x7d"
    let files := Tree.empty.set ["m.json"] (.file manifest.toUTF8)
    let flags : Flags := ⟨[(.manifest, "m.json")], [.implementation]⟩
    let outcome := (run (World.host []) flags).run (World.ofFiles files fun _ ↦ .silence)
    (outcome.1.toOption, outcome.2.files.entries.map Prod.fst) =
      (some ["src/contracts/A.ts", "src/contracts/AImpl.ts"],
        [["src", "contracts", "AImpl.ts"], ["src", "contracts", "A.ts"], ["src", "contracts"],
          ["src"], ["m.json"]]) := by
  decide +kernel

end ContractBindings
