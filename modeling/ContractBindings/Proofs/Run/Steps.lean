import ContractBindings.Run
import ContractBindings.World

/-!
# Steps of runs in modelled worlds

A run that takes place in a modelled world is a function of that world. It is opened at its steps:
a sequence goes on where its first step has left the world, unless that step fails (`run_bind`).

Most steps leave the files of the world as they are, and then so do sequences of them
(`LeavesFiles`). Preparing modules is one of these, whatever comes of it (`leavesFiles_prepare`): it
reads files, asks nodes and tells notices.
-/

namespace ContractBindings

variable {ε ε' α β : Type} {world after : World}

/-! ### Opening steps -/

section Open

variable {x : ExceptT ε (StateM World) α} {f : α → ExceptT ε (StateM World) β}

theorem run_bind (x : ExceptT ε (StateM World) α) (f : α → ExceptT ε (StateM World) β)
    (world : World) :
    (x >>= f).run world =
      match x.run world with
      | (.ok a, middle) => (f a).run middle
      | (.error e, middle) => (.error e, middle) := by
  show ExceptT.bindCont f (x.run world).1 (x.run world).2 = _
  rcases x.run world with ⟨e | a, middle⟩ <;> rfl

/-- A sequence whose first step succeeds goes on where that has left the world. -/
theorem run_bind_of_ok {a : α} (h : x.run world = (.ok a, after)) :
    (x >>= f).run world = (f a).run after := by
  rw [run_bind, h]

theorem run_bind_of_error {e : ε} (h : x.run world = (.error e, after)) :
    (x >>= f).run world = (.error e, after) := by
  rw [run_bind, h]

theorem exists_of_run_bind_eq_ok {b : β} (h : (x >>= f).run world = (.ok b, after)) :
    ∃ a middle, x.run world = (.ok a, middle) ∧ (f a).run middle = (.ok b, after) := by
  rw [run_bind] at h
  split at h
  case h_1 a middle hx => exact ⟨a, middle, hx, h⟩
  case h_2 => cases h

/-- A sequence that fails does so at its first step, or where that has left the world. -/
theorem error_or_exists_of_run_bind_eq_error {e : ε}
    (h : (x >>= f).run world = (.error e, after)) :
    x.run world = (.error e, after) ∨
      ∃ a middle, x.run world = (.ok a, middle) ∧ (f a).run middle = (.error e, after) := by
  rw [run_bind] at h
  split at h
  case h_1 a middle hx => exact .inr ⟨a, middle, hx, h⟩
  case h_2 e middle hx =>
    cases h
    exact .inl hx

/-- Going through a list fails at one of its elements, behind others that it has gone through. -/
theorem exists_of_run_mapM_eq_error {l : List α} {e : ε}
    (h : (l.mapM f).run world = (.error e, after)) :
    ∃ before a behind bs middle, l = before ++ a :: behind ∧
      (before.mapM f).run world = (.ok bs, middle) ∧ (f a).run middle = (.error e, after) := by
  induction l generalizing world with
  | nil => cases h
  | cons a l ih =>
    rw [List.mapM_cons] at h
    rcases error_or_exists_of_run_bind_eq_error h with hfails | ⟨b, middle, hb, h⟩
    · exact ⟨[], a, l, [], world, rfl, rfl, hfails⟩
    · rcases error_or_exists_of_run_bind_eq_error h with hrest | ⟨bs, last, -, h⟩
      · obtain ⟨before, failed, behind, bs, last, rfl, hbefore, hfails⟩ := ih hrest
        refine ⟨a :: before, failed, behind, b :: bs, last, rfl, ?_, hfails⟩
        rw [List.mapM_cons, run_bind_of_ok hb, run_bind_of_ok hbefore]
        rfl
      · cases h

theorem run_result_bind {result : Except ε α} {a : α} (h : result = .ok a) :
    (ExceptT.mk (pure result) >>= f).run world = (f a).run world := by
  rw [h]
  rfl

/-- A result that a sequence begins with does nothing to the world. -/
theorem exists_of_run_result_bind_eq_ok {result : Except ε α} {b : β}
    (h : (ExceptT.mk (pure result) >>= f).run world = (.ok b, after)) :
    ∃ a, result = .ok a ∧ (f a).run world = (.ok b, after) := by
  rcases result with e | a
  · cases h
  · exact ⟨a, rfl, h⟩

theorem run_lift_bind (y : StateM World α) (world : World) :
    (liftM y >>= f).run world = (f (y world).1).run (y world).2 :=
  rfl

/-- The result of a sequence is that of its steps if these do not look at the world. -/
theorem fst_run_bind {result : Except ε α} {g : α → Except ε β} (hx : (x.run world).1 = result)
    (hf : ∀ a middle, ((f a).run middle).1 = g a) :
    ((x >>= f).run world).1 = result >>= g := by
  rw [run_bind, ← hx]
  rcases x.run world with ⟨e | a, middle⟩
  · rfl
  · exact hf a middle

theorem run_eq_of_fst {result : Except ε α} (h : (x.run world).1 = result) :
    x.run world = (result, (x.run world).2) :=
  Prod.ext h rfl

theorem run_adapt (x : ExceptT ε (StateM World) α) (g : ε → ε') (world : World) :
    (x.adapt g).run world = ((x.run world).1.mapError g, (x.run world).2) :=
  rfl

theorem run_eq_of_run_adapt_eq_ok {g : ε → ε'} {a : α}
    (h : (x.adapt g).run world = (.ok a, after)) : x.run world = (.ok a, after) := by
  rw [run_adapt] at h
  rcases hx : x.run world with ⟨e | b, middle⟩ <;> rw [hx] at h <;> cases h
  rfl

theorem exists_of_run_adapt_eq_error {g : ε → ε'} {e' : ε'}
    (h : (x.adapt g).run world = (.error e', after)) :
    ∃ e, e' = g e ∧ x.run world = (.error e, after) := by
  rw [run_adapt] at h
  rcases hx : x.run world with ⟨e | a, middle⟩ <;> rw [hx] at h <;> cases h
  exact ⟨e, rfl, rfl⟩

theorem eq_of_run_result_eq_ok {result : Except ε α} {a : α}
    (h : (ExceptT.mk (pure result) : ExceptT ε (StateM World) α).run world = (.ok a, after)) :
    result = .ok a :=
  (Prod.mk.inj h).1

end Open

/-! ### Steps that leave the files as they are -/

/-- Two worlds have the same files on the same disk. -/
structure SameFiles (world other : World) : Prop where
  files : world.files = other.files
  disk : world.disk = other.disk

namespace SameFiles

variable {other third : World}

theorem symm (h : SameFiles world other) : SameFiles other world :=
  ⟨h.files.symm, h.disk.symm⟩

theorem trans (h : SameFiles world other) (h' : SameFiles other third) : SameFiles world third :=
  ⟨h.files.trans h'.files, h.disk.trans h'.disk⟩

end SameFiles

/-- Whatever comes of a computation, the files and their disk are those of before. -/
def LeavesFiles (x : StateM World α) : Prop :=
  ∀ world, SameFiles (x world).2 world

section LeavesFiles

variable {x : ExceptT ε (StateM World) α} {f : α → ExceptT ε (StateM World) β}

theorem leavesFiles_result (result : Except ε α) :
    LeavesFiles (ExceptT.mk (pure result) : ExceptT ε (StateM World) α).run :=
  fun _ ↦ ⟨rfl, rfl⟩

theorem LeavesFiles.bind (hx : LeavesFiles x.run) (hf : ∀ a, LeavesFiles (f a).run) :
    LeavesFiles (x >>= f).run := by
  intro world
  have hfirst := hx world
  show SameFiles ((x >>= f).run world).2 world
  rw [run_bind]
  rcases hrun : x.run world with ⟨e | a, middle⟩ <;> rw [hrun] at hfirst
  · exact hfirst
  · exact (hf a middle).trans hfirst

theorem LeavesFiles.adapt (hx : LeavesFiles x.run) (g : ε → ε') :
    LeavesFiles (x.adapt g).run :=
  hx

theorem LeavesFiles.lift {y : StateM World α} (hy : LeavesFiles y) :
    LeavesFiles (liftM y : ExceptT ε (StateM World) α).run :=
  hy

/-- A loop leaves the files as they are if its body does. -/
theorem LeavesFiles.forIn {γ : Type} {body : γ → α → ExceptT ε (StateM World) (ForInStep α)}
    (hbody : ∀ c a, LeavesFiles (body c a).run) (l : List γ) (a : α) :
    LeavesFiles (forIn l a body).run := by
  induction l generalizing a with
  | nil => exact leavesFiles_result (.ok a)
  | cons c l ih =>
    rw [List.forIn_cons]
    refine (hbody c a).bind fun next ↦ ?_
    cases next with
    | done b => exact leavesFiles_result (.ok b)
    | yield b => exact ih b

end LeavesFiles

/-! ### Preparing modules -/

section Prepare

variable (current : Files.Location)

theorem leavesFiles_readFile (path : String) :
    LeavesFiles ((World.host current).readFile path).run :=
  fun _ ↦ ⟨rfl, rfl⟩

theorem leavesFiles_canonicalPath (path : String) :
    LeavesFiles ((World.host current).canonicalPath path).run :=
  fun _ ↦ ⟨rfl, rfl⟩

theorem leavesFiles_tell (notice : Notice) : LeavesFiles ((World.host current).tell notice) :=
  fun _ ↦ ⟨rfl, rfl⟩

theorem leavesFiles_ask (request : NodeRequest) : LeavesFiles ((World.host current).ask request) :=
  fun _ ↦ ⟨rfl, rfl⟩

theorem leavesFiles_readText (path : String) :
    LeavesFiles ((World.host current).readText path).run := by
  refine (leavesFiles_readFile current path).bind fun content ↦ ?_
  cases String.fromUTF8? content with
  | none => exact leavesFiles_result (.error Files.Fault.notUtf8)
  | some text => exact leavesFiles_result (.ok text)

theorem leavesFiles_configOf (flags : Flags) :
    LeavesFiles (configOf (World.host current) flags).run := by
  rw [configOf]
  split
  case h_1 path _ =>
    exact ((leavesFiles_readText current path).adapt _).bind fun text ↦ leavesFiles_result _
  case h_2 => exact leavesFiles_result (.ok Config.default)

theorem leavesFiles_fetchFile (path : String) :
    LeavesFiles (fetchFile (World.host current) path).run := by
  refine ((leavesFiles_readText current path).adapt _).bind fun content ↦ ?_
  refine (leavesFiles_canonicalPath current path).lift.bind fun location ↦ ?_
  exact leavesFiles_result (.ok _)

theorem leavesFiles_fetchFromNode (settings : NodeSettings) (name : String) (hash : ScriptHash) :
    LeavesFiles (fetchFromNode (World.host current) settings name hash).run := by
  refine (leavesFiles_result _).bind fun endpoint ↦ ?_
  refine (leavesFiles_tell current _).lift.bind fun _ ↦ ?_
  refine (leavesFiles_result _).bind fun url ↦ ?_
  refine (leavesFiles_ask current _).lift.bind fun reply ↦ ?_
  refine (leavesFiles_result _).bind fun body ↦ ?_
  refine (leavesFiles_tell current _).lift.bind fun _ ↦ ?_
  refine (leavesFiles_result _).bind fun content ↦ ?_
  exact leavesFiles_result (.ok _)

theorem leavesFiles_fetch (settings : NodeSettings) (source : ManifestSource) :
    LeavesFiles (fetch (World.host current) settings source).run := by
  refine (leavesFiles_tell current _).lift.bind fun _ ↦ ?_
  cases source with
  | file path => exact leavesFiles_fetchFile current path
  | node name hash => exact leavesFiles_fetchFromNode current settings name hash

theorem leavesFiles_loadTelling (options : Options) (document : Manifest.Document) :
    LeavesFiles (loadTelling (World.host current) options document).run := by
  refine (LeavesFiles.forIn (fun _ _ ↦ ?_) _ _).bind fun _ ↦ ?_
  · exact (leavesFiles_tell current _).lift.bind fun _ ↦ leavesFiles_result (.ok _)
  refine (leavesFiles_result _).bind fun contract ↦ ?_
  exact (leavesFiles_tell current _).lift.bind fun _ ↦ leavesFiles_result (.ok contract)

theorem leavesFiles_modulesOf (options : Options) (fetched : FetchedManifest) :
    LeavesFiles (modulesOf (World.host current) options fetched).run := by
  refine (leavesFiles_result _).bind fun document ↦ ?_
  refine (leavesFiles_loadTelling current options document).bind fun contract ↦ ?_
  refine (leavesFiles_result _).bind fun plan ↦ ?_
  exact (leavesFiles_tell current _).lift.bind fun _ ↦ leavesFiles_result (.ok _)

/-- **Preparing modules leaves the files as they are**, whatever comes of it. -/
theorem leavesFiles_prepare (flags : Flags) :
    LeavesFiles (prepare (World.host current) flags).run := by
  refine ((leavesFiles_configOf current flags).adapt _).bind fun config ↦ ?_
  refine (leavesFiles_result _).bind fun options ↦ ?_
  refine (leavesFiles_result _).bind fun source ↦ ?_
  refine ((leavesFiles_fetch current _ source).adapt _).bind fun fetched ↦ ?_
  refine (leavesFiles_tell current _).lift.bind fun _ ↦ ?_
  refine ((leavesFiles_modulesOf current options fetched).adapt _).bind fun modules ↦ ?_
  exact leavesFiles_result (.ok _)

end Prepare

end ContractBindings
