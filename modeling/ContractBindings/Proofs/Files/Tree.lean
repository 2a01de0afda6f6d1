import ContractBindings.Files.Tree
import ContractBindings.Proofs.Files.Path
import ContractBindings.Proofs.Results

/-!
# File trees that change

What a walk finds it still finds when the tree grows, that is, when directories stay directories and
nothing is removed (`walk_of_grows`). Both operations that change a tree make it grow, so what a
path names is settled by the first operation that gets through to it.

For each of them there is one statement of all that it does, on any disk. A file that is written
stands where its path leads and nowhere else, with all of its content or, where the disk stops, with
a proper beginning of it (`writes_write`). Directories that are made stand where nothing was, and
their paths are those that were asked for (`addsDirectories_createDirectories`).
-/

namespace ContractBindings.Files.Tree

variable {tree before after : Tree} {location : Location}

/-! ### What locations hold -/

theorem get?_set (h : location ≠ []) (tree : Tree) (entry : Entry) (other : Location) :
    (tree.set location entry).get? other =
      if other = location then some entry else tree.get? other := by
  by_cases hother : other = []
  · subst hother
    rw [if_neg (Ne.symm h)]
    rfl
  rw [get?, get?, if_neg hother, if_neg hother, set, List.lookup_cons]
  split
  case h_1 heq => rw [if_pos (eq_of_beq heq)]
  case h_2 heq =>
    have hne : other ≠ location := by simpa using heq
    rw [if_neg hne]
    induction tree.entries with
    | nil => rfl
    | cons e entries ih =>
      rw [List.filter_cons]
      split
      case isTrue => rw [List.lookup_cons, List.lookup_cons, ih]
      case isFalse he =>
        have hfirst : e.1 = location := by simpa using he
        rw [ih, List.lookup_cons, hfirst, beq_false_of_ne hne]

/-- Of two entries that are put at one location the second one counts. -/
@[simp] theorem set_set (tree : Tree) (location : Location) (entry other : Entry) :
    (tree.set location entry).set location other = tree.set location other := by
  simp [set, List.filter_filter]

theorem isDirectory_iff :
    tree.isDirectory location = true ↔ tree.get? location = some .directory := by
  rw [isDirectory]
  split
  case h_1 h => simp [h]
  case h_2 h => simpa using h

/-! ### Trees that grow -/

/-- Directories stay directories, and nothing is removed. -/
structure Grows (before after : Tree) : Prop where
  directory : ∀ location, before.isDirectory location = true → after.isDirectory location = true
  present : ∀ location, (before.get? location).isSome → (after.get? location).isSome

theorem Grows.trans {middle : Tree} (h : Grows before middle) (h' : Grows middle after) :
    Grows before after where
  directory location hl := h'.directory location (h.directory location hl)
  present location hl := h'.present location (h.present location hl)

/-- A tree grows by an entry that does not take the place of a directory. -/
theorem grows_set (hne : location ≠ []) (h : tree.isDirectory location = false) (entry : Entry) :
    Grows tree (tree.set location entry) where
  directory other hother := by
    rw [isDirectory_iff] at hother ⊢
    rw [get?_set hne, if_neg, hother]
    rintro rfl
    rw [isDirectory_iff.2 hother] at h
    exact absurd h (by decide)
  present other hother := by
    rw [get?_set hne]
    split
    case isTrue => rfl
    case isFalse => exact hother

/-! ### Walks -/

variable {at_ middle : Location} {part : String} {above rest : List String}

/-- A part of a path that names an entry of the directory it is read in. -/
structure Names (tree : Tree) (at_ : Location) (part : String) : Prop where
  ne_empty : part ≠ ""
  ne_dot : part ≠ "."
  ne_dots : part ≠ ".."
  size_le : size part ≤ longestName
  present : (tree.get? (at_ ++ [part])).isSome

/-- Where a part of a path leads. -/
inductive Leads (tree : Tree) (at_ : Location) (part : String) : Location → Prop where
  | stays (h : part = "" ∨ part = ".") : Leads tree at_ part at_
  | up (h : part = "..") : Leads tree at_ part at_.dropLast
  | down (h : tree.Names at_ part) : Leads tree at_ part (at_ ++ [part])

theorem Leads.of_grows (h : Grows before after) (hleads : before.Leads at_ part middle) :
    after.Leads at_ part middle := by
  cases hleads with
  | stays hpart => exact .stays hpart
  | up hpart => exact .up hpart
  | down hnames => exact .down { hnames with present := h.present _ hnames.present }

/-- **A walk goes part by part**, through directories. -/
theorem walk_cons_eq_ok_iff :
    tree.walk at_ (part :: rest) = .ok location ↔
      tree.isDirectory at_ = true ∧
        ∃ middle, tree.Leads at_ part middle ∧ tree.walk middle rest = .ok location := by
  rw [walk]
  constructor
  · intro h
    split_ifs at h with hdir hstays hup hsize hpresent
    · refine ⟨by simpa using hdir, _, .stays ?_, h⟩
      simpa using hstays
    · exact ⟨by simpa using hdir, _, .up hup, h⟩
    · rw [Bool.not_eq_true, Bool.or_eq_false_iff] at hstays
      refine ⟨by simpa using hdir, _, .down ⟨?_, ?_, hup, by omega, ?_⟩, h⟩
      · simpa using hstays.1
      · simpa using hstays.2
      · simpa [Option.isSome_iff_ne_none] using hpresent
  · rintro ⟨hdir, middle, hleads, h⟩
    rw [hdir, Bool.not_true, if_neg Bool.false_ne_true]
    cases hleads with
    | stays hpart => rw [if_pos (by simpa using hpart), h]
    | up hpart =>
      subst hpart
      rw [if_neg (by decide), if_pos rfl, h]
    | down hnames =>
      have hstays : ¬ (part.isEmpty || decide (part = ".")) = true := by
        simp [hnames.ne_empty, hnames.ne_dot]
      have hsize : ¬ longestName < size part := by
        have := hnames.size_le
        omega
      have hpresent : ¬ (tree.get? (at_ ++ [part])).isNone = true := by
        simpa [Option.isSome_iff_ne_none] using hnames.present
      rw [if_neg hstays, if_neg hnames.ne_dots, if_neg hsize, if_neg hpresent, h]

/-- **What a walk finds it still finds when the tree has grown.** -/
theorem walk_of_grows (h : Grows before after) (hwalk : before.walk at_ above = .ok location) :
    after.walk at_ above = .ok location := by
  induction above generalizing at_ with
  | nil => exact hwalk
  | cons part rest ih =>
    rw [walk_cons_eq_ok_iff] at hwalk ⊢
    obtain ⟨hdir, middle, hleads, hrest⟩ := hwalk
    exact ⟨h.directory _ hdir, middle, hleads.of_grows h, ih hrest⟩

/-- A walk can be stopped on the way. -/
theorem walk_append_eq_ok_iff :
    tree.walk at_ (above ++ rest) = .ok location ↔
      ∃ middle, tree.walk at_ above = .ok middle ∧ tree.walk middle rest = .ok location := by
  induction above generalizing at_ with
  | nil =>
    rw [List.nil_append]
    constructor
    · exact fun h ↦ ⟨at_, rfl, h⟩
    · rintro ⟨middle, hmiddle, h⟩
      cases hmiddle
      exact h
  | cons part above ih =>
    rw [List.cons_append, walk_cons_eq_ok_iff]
    constructor
    · rintro ⟨hdir, next, hleads, h⟩
      obtain ⟨middle, hmiddle, h⟩ := ih.1 h
      exact ⟨middle, walk_cons_eq_ok_iff.2 ⟨hdir, next, hleads, hmiddle⟩, h⟩
    · rintro ⟨middle, hmiddle, h⟩
      obtain ⟨hdir, next, hleads, hmiddle⟩ := walk_cons_eq_ok_iff.1 hmiddle
      exact ⟨hdir, next, hleads, ih.2 ⟨middle, hmiddle, h⟩⟩

/-- Empty parts lead nowhere. -/
theorem walk_empties (hdir : tree.isDirectory at_ = true) (h : ∀ part ∈ rest, part = "") :
    tree.walk at_ rest = .ok at_ := by
  induction rest with
  | nil => rfl
  | cons part rest ih =>
    obtain ⟨hpart, hrest⟩ := List.forall_mem_cons.1 h
    exact walk_cons_eq_ok_iff.2 ⟨hdir, at_, .stays (.inl hpart), ih hrest⟩

theorem locate_of_grows {current : Location} {path : String} (h : Grows before after)
    (hlocate : before.locate current path = .ok location) :
    after.locate current path = .ok location := by
  obtain ⟨⟨⟩, hcheck, hwalk⟩ := exists_of_bind_eq_ok hlocate
  rw [locate, hcheck]
  exact walk_of_grows h hwalk

/-- **The path of a file with a plain name leads into its directory.** -/
theorem exists_walk_of_locate_join {current : Location} {directory file : String}
    (hfile : IsPlain file) (h : tree.locate current (join directory file) = .ok location) :
    ∃ parent, tree.walk (origin current directory) (Files.parts directory) = .ok parent ∧
      location = parent ++ [file] := by
  obtain ⟨⟨⟩, -, hwalk⟩ := exists_of_bind_eq_ok h
  obtain ⟨front, behind, hdirectory, hbehind, hjoin, habsolute⟩ :=
    exists_parts_join directory hfile
  have horigin : origin current (join directory file) = origin current directory := by
    rw [origin, origin, habsolute]
  rw [hjoin, horigin] at hwalk
  obtain ⟨parent, hparent, hlast⟩ := walk_append_eq_ok_iff.1 hwalk
  obtain ⟨hdir, found, hleads, hend⟩ := walk_cons_eq_ok_iff.1 hlast
  cases hend
  cases hleads with
  | stays hstays => exact absurd hstays (not_or.2 ⟨hfile.ne_empty, hfile.ne_dot⟩)
  | up hup => exact absurd hup hfile.ne_dots
  | down hnames =>
    refine ⟨parent, ?_, rfl⟩
    rw [hdirectory]
    exact walk_append_eq_ok_iff.2 ⟨parent, hparent, walk_empties hdir hbehind⟩

/-! ### Targets -/

variable {current : Location} {path name : String} {parent : Location} {slash : Bool}

/-- What makes a path name a possible entry of a directory: it leads to the directory in front of
the name, and behind the name it has nothing but slashes. -/
structure Targets (tree : Tree) (current : Location) (path : String) (parent : Location)
    (name : String) (empties : List String) : Prop where
  check : checkPath path = .ok ()
  walk : ∃ above, tree.walk (origin current path) above = .ok parent ∧
    Files.parts path = above ++ name :: empties
  empty : ∀ part ∈ empties, part = ""
  isDirectory : tree.isDirectory parent = true
  ne_empty : name ≠ ""
  ne_dot : name ≠ "."
  ne_dots : name ≠ ".."
  size_le : size name ≤ longestName

/-- The last part of a path that is not empty, with what stands in front of it and behind it. -/
theorem exists_empties_of_dropWhile {parts backwards : List String} {last : String}
    (h : parts.reverse.dropWhile String.isEmpty = last :: backwards) :
    last ≠ "" ∧ ∃ empties, parts = backwards.reverse ++ last :: empties ∧
      ∀ part ∈ empties, part = "" := by
  have hlast := List.head?_dropWhile_not String.isEmpty parts.reverse
  have hsplit := List.takeWhile_append_dropWhile (p := String.isEmpty) (l := parts.reverse)
  rw [h] at hlast hsplit
  refine ⟨by simpa using hlast, (parts.reverse.takeWhile String.isEmpty).reverse, ?_, ?_⟩
  · have hreverse := congrArg List.reverse hsplit
    rw [List.reverse_append, List.reverse_reverse, List.reverse_cons, List.append_assoc] at hreverse
    exact hreverse.symm
  · intro part hpart
    simpa using List.all_eq_true.1 List.all_takeWhile part (List.mem_reverse.1 hpart)

theorem exists_targets_of_target (h : tree.target current path = .ok (.entry parent name slash)) :
    ∃ empties, tree.Targets current path parent name empties ∧ (slash = false → empties = []) := by
  obtain ⟨⟨⟩, hcheck, h⟩ := exists_of_bind_eq_ok h
  dsimp only at h
  split at h
  case h_1 => cases h
  case h_2 last backwards hdrop =>
    obtain ⟨hlast, empties, hparts, hempty⟩ := exists_empties_of_dropWhile hdrop
    obtain ⟨found, hwalk, h⟩ := exists_of_bind_eq_ok h
    split at h
    case isTrue => cases h
    case isFalse hdir =>
      split at h
      case isTrue => cases h
      case isFalse hdots =>
        split at h
        case isTrue => cases h
        case isFalse hsize =>
          cases h
          rw [Bool.or_eq_true, decide_eq_true_eq, decide_eq_true_eq, not_or] at hdots
          refine ⟨empties, ⟨hcheck, ⟨_, hwalk, hparts⟩, hempty, by simpa using hdir, hlast,
            hdots.1, hdots.2, by omega⟩, fun hslash ↦ ?_⟩
          -- The last of the empty parts would be a slash at the end of the path.
          obtain hnil | ⟨init, part, rfl⟩ := List.eq_nil_or_concat empties
          · exact hnil
          obtain rfl : part = "" := hempty part (by simp)
          simp [hparts] at hslash

/-- The path of a possible entry names it once it is there, if it is a directory or no slash follows
its name. -/
theorem Targets.locate_eq (h : before.Targets current path parent name empties)
    (hgrows : Grows before after) (hpresent : (after.get? (parent ++ [name])).isSome)
    (hslash : empties = [] ∨ after.isDirectory (parent ++ [name]) = true) :
    after.locate current path = .ok (parent ++ [name]) := by
  obtain ⟨above, hwalk, hparts⟩ := h.walk
  have hnames : after.Names parent name :=
    ⟨h.ne_empty, h.ne_dot, h.ne_dots, h.size_le, hpresent⟩
  have hrest : after.walk (parent ++ [name]) empties = .ok (parent ++ [name]) := by
    obtain rfl | hdir := hslash
    · rfl
    · exact walk_empties hdir h.empty
  rw [locate, h.check, hparts]
  refine walk_append_eq_ok_iff.2 ⟨parent, walk_of_grows hgrows hwalk, ?_⟩
  exact walk_cons_eq_ok_iff.2 ⟨hgrows.directory _ h.isDirectory, _, .down hnames, hrest⟩

/-! ### Files that are written -/

variable {disk : Disk} {content : ByteArray} {fault : Fault}

/-- A file stands where a path leads, and nothing else is changed. -/
structure PutsFile (current : Location) (path : String) (content : ByteArray)
    (before after : Tree) (location : Location) : Prop where
  grows : Grows before after
  locate_eq : after.locate current path = .ok location
  get?_eq : ∀ other, after.get? other =
    if other = location then some (.file content) else before.get? other

/-- The file that a path leads to has been opened, which leaves it empty, and the disk has taken a
proper beginning of its content, possibly nothing. Nothing else is changed. -/
def BreaksOff (disk : Disk) (current : Location) (path : String) (content : ByteArray)
    (fault : Fault) (before after : Tree) : Prop :=
  ∃ location opened taken, PutsFile current path ByteArray.empty before opened location ∧
    disk.limit? opened location = some ⟨taken, fault⟩ ∧ taken < content.size ∧
    PutsFile current path (content.extract 0 taken) before after location

/-- What comes of writing a file. -/
inductive Writes (disk : Disk) (current : Location) (path : String) (content : ByteArray)
    (before : Tree) : Except Fault Unit × Tree → Prop where
  | refused (fault : Fault) : Writes disk current path content before (.error fault, before)
  | complete {after : Tree} {location : Location}
    (h : PutsFile current path content before after location) :
    Writes disk current path content before (.ok (), after)
  | brokenOff {fault : Fault} {after : Tree}
    (h : BreaksOff disk current path content fault before after) :
    Writes disk current path content before (.error fault, after)

theorem Targets.putsFile_set (h : tree.Targets current path parent name [])
    (hdir : tree.isDirectory (parent ++ [name]) = false) (content : ByteArray) :
    PutsFile current path content tree (tree.set (parent ++ [name]) (.file content))
      (parent ++ [name]) := by
  have hne : parent ++ [name] ≠ [] := by simp
  have hgrows := grows_set hne hdir (.file content)
  have hget := get?_set hne tree (.file content)
  refine ⟨hgrows, h.locate_eq hgrows ?_ (.inl rfl), hget⟩
  rw [hget, if_pos rfl]
  rfl

/-- A file that has been opened is filled as far as the disk allows. -/
theorem Targets.writes_fill (h : tree.Targets current path parent name [])
    (hdir : tree.isDirectory (parent ++ [name]) = false) (disk : Disk) (content : ByteArray) :
    Writes disk current path content tree
      ((tree.set (parent ++ [name]) (.file ByteArray.empty)).fill disk (parent ++ [name])
        content) := by
  have hputs := h.putsFile_set hdir
  simp only [fill, set_set]
  rcases hlimit : disk.limit? _ (parent ++ [name]) with _ | limit
  · exact .complete (hputs content)
  dsimp only
  split_ifs with hsize
  · exact .complete (hputs content)
  · exact .brokenOff ⟨_, _, limit.size, hputs _, hlimit, by omega, hputs _⟩

/-- **Writing a file is refused and changes nothing, or puts a file where its path leads**, which
holds the whole content if the writing succeeds and a proper beginning of it otherwise. -/
theorem writes_write (tree : Tree) (disk : Disk) (current : Location) (path : String)
    (content : ByteArray) :
    Writes disk current path content tree (tree.write disk current path content) := by
  rw [write]
  rcases htarget : tree.target current path with fault | _ | ⟨parent, name, slash⟩
  · exact .refused fault
  · exact .refused .isDirectory
  obtain ⟨empties, htargets, hempties⟩ := exists_targets_of_target htarget
  dsimp only
  split_ifs with hblocked
  · exact .refused .isDirectory
  rw [Bool.or_eq_true, not_or, Bool.not_eq_true, Bool.not_eq_true] at hblocked
  obtain ⟨hslash, hdir⟩ := hblocked
  obtain rfl := hempties hslash
  rcases disk.refusal? tree (parent ++ [name]) with _ | fault
  · exact htargets.writes_fill hdir disk content
  · exact .refused fault

theorem exists_of_write_eq_ok (h : tree.write disk current path content = (.ok (), after)) :
    ∃ location, PutsFile current path content tree after location := by
  have hwrites := writes_write tree disk current path content
  rw [h] at hwrites
  cases hwrites with
  | complete hputs => exact ⟨_, hputs⟩

/-- A file that cannot be written changes nothing, unless it has been opened. -/
theorem eq_or_breaksOff_of_write_eq_error
    (h : tree.write disk current path content = (.error fault, after)) :
    after = tree ∨ BreaksOff disk current path content fault tree after := by
  have hwrites := writes_write tree disk current path content
  rw [h] at hwrites
  cases hwrites with
  | refused => exact .inl rfl
  | brokenOff hbreaks => exact .inr hbreaks

/-! ### Directories that are made -/

/-- Nothing is changed but that some of the directories that paths name are new. -/
structure AddsDirectories (current : Location) (paths : List String) (before after : Tree) :
    Prop where
  kept : ∀ location, (before.get? location).isSome → after.get? location = before.get? location
  added : ∀ location, before.get? location = none → (after.get? location).isSome →
    after.get? location = some .directory ∧
      ∃ path ∈ paths, after.locate current path = .ok location

variable {paths more : List String}

theorem addsDirectories_refl (current : Location) (paths : List String) (tree : Tree) :
    AddsDirectories current paths tree tree where
  kept _ _ := rfl
  added location hnone hsome := by
    rw [hnone] at hsome
    cases hsome

theorem AddsDirectories.grows (h : AddsDirectories current paths before after) :
    Grows before after where
  directory location hdir := by
    rw [isDirectory_iff] at hdir ⊢
    rw [h.kept location (by rw [hdir]; rfl), hdir]
  present location hsome := by rwa [h.kept location hsome]

theorem AddsDirectories.mono (h : AddsDirectories current paths before after)
    (hsub : ∀ path ∈ paths, path ∈ more) : AddsDirectories current more before after where
  kept := h.kept
  added location hnone hsome := by
    obtain ⟨hdir, path, hpath, hlocate⟩ := h.added location hnone hsome
    exact ⟨hdir, path, hsub path hpath, hlocate⟩

theorem AddsDirectories.trans {middle : Tree} (h : AddsDirectories current paths before middle)
    (h' : AddsDirectories current paths middle after) :
    AddsDirectories current paths before after where
  kept location hsome := by
    have hmiddle := h.kept location hsome
    rw [h'.kept location (by rwa [hmiddle]), hmiddle]
  added location hnone hsome := by
    by_cases hmiddle : (middle.get? location).isSome
    · obtain ⟨hdir, path, hpath, hlocate⟩ := h.added location hnone hmiddle
      rw [h'.kept location hmiddle]
      exact ⟨hdir, path, hpath, locate_of_grows h'.grows hlocate⟩
    · exact h'.added location (by simpa using hmiddle) hsome

theorem Targets.addsDirectories_set {empties : List String}
    (h : tree.Targets current path parent name empties)
    (hnone : tree.get? (parent ++ [name]) = none) :
    AddsDirectories current [path] tree (tree.set (parent ++ [name]) .directory) := by
  have hne : parent ++ [name] ≠ [] := by simp
  have hget := get?_set hne tree .directory
  have hself : (tree.set (parent ++ [name]) .directory).get? (parent ++ [name]) =
      some .directory := by
    rw [hget, if_pos rfl]
  have hgrows : Grows tree (tree.set (parent ++ [name]) .directory) := by
    refine grows_set hne ?_ .directory
    rw [← Bool.not_eq_true, isDirectory_iff, hnone]
    exact nofun
  refine ⟨fun location hsome ↦ ?_, fun location hlocation hsome ↦ ?_⟩
  · rw [hget, if_neg]
    rintro rfl
    rw [hnone] at hsome
    cases hsome
  · obtain rfl : location = parent ++ [name] := by
      by_contra hother
      rw [hget, if_neg hother, hlocation] at hsome
      cases hsome
    refine ⟨hself, path, List.mem_singleton_self path, ?_⟩
    exact h.locate_eq hgrows (by rw [hself]; rfl) (.inr (isDirectory_iff.2 hself))

theorem addsDirectories_makeDirectory (tree : Tree) (disk : Disk) (current : Location)
    (path : String) :
    AddsDirectories current [path] tree (tree.makeDirectory disk current path).2 := by
  rw [makeDirectory]
  rcases htarget : tree.target current path with fault | _ | ⟨parent, name, slash⟩
  · exact addsDirectories_refl ..
  · exact addsDirectories_refl ..
  obtain ⟨empties, htargets, -⟩ := exists_targets_of_target htarget
  dsimp only
  split_ifs with hsome
  · exact addsDirectories_refl ..
  rcases disk.refusal? tree (parent ++ [name]) with _ | fault
  · exact htargets.addsDirectories_set (Option.not_isSome_iff_eq_none.1 hsome)
  · exact addsDirectories_refl ..

theorem addsDirectories_ensureDirectory (tree : Tree) (disk : Disk) (current : Location)
    (path : String) :
    AddsDirectories current [path] tree (tree.ensureDirectory disk current path).2 := by
  rw [ensureDirectory]
  split
  case h_1 => exact addsDirectories_refl ..
  case h_2 => exact addsDirectories_makeDirectory ..

theorem addsDirectories_ensureDirectories (tree : Tree) (disk : Disk) (current : Location)
    (path : String) (above : List String) :
    AddsDirectories current (path :: above) tree
      (tree.ensureDirectories disk current path above).2 := by
  induction above generalizing tree path with
  | nil => exact addsDirectories_ensureDirectory tree disk current path
  | cons parent above ih =>
    have hensure : ∀ tree : Tree, AddsDirectories current (path :: parent :: above) tree
        (tree.ensureDirectory disk current path).2 :=
      fun tree ↦ (addsDirectories_ensureDirectory tree disk current path).mono (by simp)
    -- What is made for the parents stays, whether or not the directory itself can be made then.
    have habove : AddsDirectories current (path :: parent :: above) tree
        (tree.ensureDirectories disk current parent above).2 :=
      (ih tree parent).mono fun _ ↦ List.mem_cons_of_mem _
    rw [ensureDirectories]
    split
    case h_1 =>
      split
      case h_1 middle hmiddle =>
        rw [hmiddle] at habove
        exact habove.trans (hensure middle)
      case h_2 => exact habove
    case h_2 => exact hensure tree

/-- **Making a directory and all that it lies in adds directories of its path**, and does nothing
else, also where it fails. -/
theorem addsDirectories_createDirectories (tree : Tree) (disk : Disk) (current : Location)
    (path : String) :
    AddsDirectories current (path :: ancestors path) tree
      (tree.createDirectories disk current path).2 := by
  rw [createDirectories]
  split
  case isTrue => exact addsDirectories_refl ..
  case isFalse => exact addsDirectories_ensureDirectories ..

end ContractBindings.Files.Tree
