import ContractBindings.Proofs.Identifier.Counted
import ContractBindings.Proofs.Identifier.Marks

/-!
# Names of members by counting

What the stages that name the members of a class come to. The first gives each method its `stem`;
the two behind it only count what stands in front of a method (`getElem?_methodNames`). Methods with
the same stem and the same types are numbered, the first of them apart; and a stem that is met again
with other types gets one underscore.

Numbers and underscores can be read off, so names are given twice behind the second stage only where
a stem and the number of repeats occur twice (`clash_of_numbered_eq`). Of two methods for which they
do, one has the stem for its identifier and the other has it with a suffix (`Clash.shared_iff`), and
each is the first with its types (`Clash.repeats_eq_zero`). So no name is given three times behind
the second stage, and one underscore tells the two methods apart.
-/

namespace ContractBindings.Identifier

variable {methods : List Method} {i j : Nat} {m e : Method}

/-! ### Stems -/

/-- A method whose identifier another method has as well. -/
def Shared (methods : List Method) (m : Method) : Prop :=
  1 < (methodBases methods).count (derive .method m.name)

instance (methods : List Method) (m : Method) : Decidable (Shared methods m) :=
  inferInstanceAs (Decidable (1 < (methodBases methods).count (derive .method m.name)))

/-- The name of a method in front of what tells it from others: its identifier, with the overload
suffix where the identifier is shared. -/
def stem (methods : List Method) (m : Method) : String :=
  if Shared methods m then derive .method m.name ++ overloadSuffix m.parameterTypes
  else derive .method m.name

/-- What methods are counted by. -/
def key (methods : List Method) (m : Method) : String × List AbiType :=
  (stem methods m, m.parameterTypes)

theorem suffixed_eq (methods : List Method) :
    suffixed (methodBases methods) methods = methods.map (stem methods) :=
  rfl

theorem stem_of_shared (h : Shared methods m) :
    stem methods m = derive .method m.name ++ overloadSuffix m.parameterTypes :=
  if_pos h

theorem stem_of_not_shared (h : ¬ Shared methods m) : stem methods m = derive .method m.name :=
  if_neg h

theorem shared_of_ne (hij : i ≠ j) (hm : methods[i]? = some m) (he : methods[j]? = some e)
    (hbase : derive .method m.name = derive .method e.name) : Shared methods m :=
  one_lt_count_methodBases hij hm he hbase

/-- The identifier of a method occurs once where it is not shared. -/
theorem count_methodBases_eq_one_iff (hm : m ∈ methods) :
    (methodBases methods).count (derive .method m.name) = 1 ↔ ¬ Shared methods m := by
  have hpos : 0 < (methodBases methods).count (derive .method m.name) :=
    List.count_pos_iff.2 (List.mem_map.2 ⟨m, hm, rfl⟩)
  rw [Shared]
  omega

/-- A suffix tells the types. -/
theorem key_eq_of_shared (he : Shared methods e) (hm : Shared methods m)
    (h : stem methods e = stem methods m) : key methods e = key methods m := by
  have hparts := h
  rw [stem_of_shared he, stem_of_shared hm, append_overloadSuffix_inj] at hparts
  rw [key, key, h, hparts.2]

/-- Of two methods with the same stem one at least has a suffix. -/
theorem shared_or_shared (hij : i ≠ j) (hm : methods[i]? = some m) (he : methods[j]? = some e)
    (h : stem methods e = stem methods m) : Shared methods e ∨ Shared methods m := by
  by_contra hneither
  obtain ⟨he', hm'⟩ := not_or.1 hneither
  rw [stem_of_not_shared he', stem_of_not_shared hm'] at h
  exact hm' (shared_of_ne hij hm he h.symm)

theorem unnumbered_stem (methods : List Method) (m : Method) : Unnumbered (stem methods m) := by
  by_cases h : Shared methods m
  · rw [stem_of_shared h]
    exact unnumbered_append_overloadSuffix _ _
  · rw [stem_of_not_shared h]
    exact unnumbered_derive .method m.name

theorem unmarked_stem (methods : List Method) (m : Method) :
    Unmarked .method (stem methods m) := by
  by_cases h : Shared methods m
  · rw [stem_of_shared h]
    exact unmarked_append (List.ne_nil_of_mem (mem_overloadSuffix _))
      (underscore_not_mem_overloadSuffix _)
  · rw [stem_of_not_shared h]
    exact unmarked_derive .method m.name

/-! ### Repeats -/

/-- How many of the methods in front of a method are counted with it. -/
def repeats (methods earlier : List Method) (m : Method) : Nat :=
  (earlier.map (key methods)).count (key methods m)

/-- The names behind the second stage. -/
def numberedStems (methods : List Method) : List String :=
  numberRepeats [] (methods.map (key methods))

theorem methodNames_eq (methods : List Method) :
    methodNames methods = distinct underscored [] (numberedStems methods) := by
  rw [methodNames, suffixed_eq, List.zip_map']
  rfl

theorem getElem?_numberedStems (hm : methods[i]? = some m) :
    (numberedStems methods)[i]? =
      some (numbered (stem methods m) (repeats methods (methods.take i) m)) := by
  rw [numberedStems, getElem?_numberRepeats, List.getElem?_map, hm, ← List.map_take]
  rfl

theorem exists_of_getElem?_numberedStems {name : String}
    (h : (numberedStems methods)[i]? = some name) :
    ∃ m, methods[i]? = some m ∧
      name = numbered (stem methods m) (repeats methods (methods.take i) m) := by
  rw [numberedStems, getElem?_numberRepeats, List.getElem?_map, Option.map_map,
    Option.map_eq_some_iff, ← List.map_take] at h
  obtain ⟨m, hm, rfl⟩ := h
  exact ⟨m, hm, rfl⟩

theorem usable_numberedStems (methods : List Method) :
    ∀ name ∈ numberedStems methods, Usable .method name := by
  refine usable_numberRepeats [] _ fun k hk ↦ ?_
  obtain ⟨m, hm, rfl⟩ := List.mem_map.1 hk
  exact usable_suffixed (methodBases methods) methods _ (List.mem_map.2 ⟨m, hm, rfl⟩)

theorem separate_numberedStems (methods : List Method) :
    Separate underscored (numberedStems methods) := by
  have hunmarked : ∀ name ∈ numberedStems methods, Unmarked .method name := by
    intro name hname
    obtain ⟨i, hi⟩ := List.mem_iff_getElem?.1 hname
    obtain ⟨m, -, rfl⟩ := exists_of_getElem?_numberedStems hi
    exact unmarked_numbered (unmarked_stem methods m) _
  exact fun a ha b hb _ _ heq ↦ underscored_inj (usable_numberedStems methods a ha)
    (usable_numberedStems methods b hb) (hunmarked a ha) (hunmarked b hb) heq

/-- In front of a later index there is one more of what stands at an earlier one. -/
theorem count_take_lt {α : Type} [BEq α] [LawfulBEq α] {l : List α} {x : α} (hji : j < i)
    (hj : l[j]? = some x) : (l.take j).count x < (l.take i).count x := by
  have hnext : (l.take (j + 1)).count x = (l.take j).count x + 1 := by
    rw [List.take_add_one, hj, Option.toList_some, List.count_append, List.count_singleton_self]
  have hle : (l.take (j + 1)).count x ≤ (l.take i).count x :=
    (List.take_sublist_take_left hji).count_le x
  omega

/-- Of two methods that are counted together the later has more repeats. -/
theorem repeats_lt (hji : j < i) (he : methods[j]? = some e)
    (hkey : key methods e = key methods m) :
    repeats methods (methods.take j) e < repeats methods (methods.take i) m := by
  rw [repeats, repeats, hkey, List.map_take, List.map_take]
  refine count_take_lt hji ?_
  rw [List.getElem?_map, he, Option.map_some, hkey]

theorem getElem?_take_eq_some_iff {α : Type} {l : List α} {x : α} :
    (l.take i)[j]? = some x ↔ j < i ∧ l[j]? = some x := by
  rw [List.getElem?_take, ite_eq_iff]
  simp

theorem mem_take_iff {α : Type} {l : List α} {x : α} : x ∈ l.take i ↔ ∃ j < i, l[j]? = some x := by
  simp only [List.mem_iff_getElem?, getElem?_take_eq_some_iff]

/-- What a list without repeats has at an index it does not have in front of it. -/
theorem not_mem_take_of_nodup {α : Type} {l : List α} {x : α} (h : l.Nodup)
    (hi : l[i]? = some x) : x ∉ l.take i := by
  rw [mem_take_iff]
  rintro ⟨j, hji, hj⟩
  have hindex : j < l.length := (List.getElem?_eq_some_iff.1 hj).1
  exact hji.ne ((List.getElem?_inj hindex h).1 (hj.trans hi.symm))

/-- A method that repeats another has a method in front of it that it is counted with. -/
theorem exists_of_repeats_pos (h : 0 < repeats methods (methods.take i) m) :
    ∃ j < i, ∃ e, methods[j]? = some e ∧ key methods e = key methods m := by
  obtain ⟨e, he, hkey⟩ := List.mem_map.1 (List.count_pos_iff.1 h)
  obtain ⟨j, hj, he⟩ := mem_take_iff.1 he
  exact ⟨j, hj, e, he, hkey⟩

/-! ### Clashes -/

/-- Two methods that have the same name behind the second stage. -/
structure Clash (methods : List Method) (j i : Nat) (e m : Method) : Prop where
  lt : j < i
  earlier : methods[j]? = some e
  later : methods[i]? = some m
  stem_eq : stem methods e = stem methods m
  repeats_eq : repeats methods (methods.take j) e = repeats methods (methods.take i) m

/-- Numbers are read off, so what is met again are stems and repeats. -/
theorem clash_of_numbered_eq (hji : j < i) (he : methods[j]? = some e) (hm : methods[i]? = some m)
    (h : numbered (stem methods e) (repeats methods (methods.take j) e) =
      numbered (stem methods m) (repeats methods (methods.take i) m)) : Clash methods j i e m := by
  obtain ⟨hstem, hrepeats⟩ := numbered_inj (unnumbered_stem methods e) (unnumbered_stem methods m) h
  exact ⟨hji, he, hm, hstem, hrepeats⟩

/-- A method that has methods in front of it which it is counted with has the types of every method
that has the same stem with a suffix. -/
theorem key_eq_of_repeats_pos (hm : methods[i]? = some m)
    (hpos : 0 < repeats methods (methods.take i) m) (he : Shared methods e)
    (h : stem methods e = stem methods m) : key methods e = key methods m := by
  by_cases hshared : Shared methods m
  · exact key_eq_of_shared he hshared h
  · obtain ⟨j, hji, f, hf, hkey⟩ := exists_of_repeats_pos hpos
    have hstem : stem methods f = stem methods m := congrArg Prod.fst hkey
    have hf' := (shared_or_shared hji.ne' hm hf hstem).resolve_right hshared
    rw [key_eq_of_shared he hf' (h.trans hstem.symm), hkey]

namespace Clash

theorem key_ne (h : Clash methods j i e m) : key methods e ≠ key methods m := fun hkey ↦ by
  have hlt := repeats_lt h.lt h.earlier hkey
  rw [h.repeats_eq] at hlt
  exact Nat.lt_irrefl _ hlt

/-- **One of two methods that clash has a suffix, and the other has none.** -/
theorem shared_iff (h : Clash methods j i e m) : Shared methods e ↔ ¬ Shared methods m :=
  ⟨fun he hm ↦ h.key_ne (key_eq_of_shared he hm h.stem_eq), fun hm ↦
    (shared_or_shared h.lt.ne' h.later h.earlier h.stem_eq).resolve_right hm⟩

/-- Methods that clash are the first with their types. -/
theorem repeats_eq_zero (h : Clash methods j i e m) :
    repeats methods (methods.take i) m = 0 := by
  by_contra hne
  have hpos := Nat.pos_of_ne_zero hne
  by_cases he : Shared methods e
  · exact h.key_ne (key_eq_of_repeats_pos h.later hpos he h.stem_eq)
  · have hm : Shared methods m := by
      by_contra hm
      exact he (h.shared_iff.2 hm)
    rw [← h.repeats_eq] at hpos
    exact h.key_ne (key_eq_of_repeats_pos h.earlier hpos hm h.stem_eq.symm).symm

end Clash

/-- What has the name of a method in front of it clashes with the method. -/
theorem exists_clash_of_getElem? (hm : methods[i]? = some m)
    (h : ((numberedStems methods).take i)[j]? =
      some (numbered (stem methods m) (repeats methods (methods.take i) m))) :
    ∃ e, Clash methods j i e m := by
  obtain ⟨hji, hj⟩ := getElem?_take_eq_some_iff.1 h
  obtain ⟨e, he, heq⟩ := exists_of_getElem?_numberedStems hj
  exact ⟨e, clash_of_numbered_eq hji he hm heq.symm⟩

theorem exists_clash_of_mem (hm : methods[i]? = some m)
    (h : numbered (stem methods m) (repeats methods (methods.take i) m) ∈
      (numberedStems methods).take i) : ∃ j e, Clash methods j i e m := by
  obtain ⟨j, hj⟩ := List.mem_iff_getElem?.1 h
  exact ⟨j, exists_clash_of_getElem? hm hj⟩

/-- No three methods clash: of each two of them one would have a suffix and the other none. -/
theorem count_numberedStems_le_one {name : String} (h : (numberedStems methods)[i]? = some name) :
    ((numberedStems methods).take i).count name ≤ 1 := by
  obtain ⟨m, hm, rfl⟩ := exists_of_getElem?_numberedStems h
  by_contra hlt
  obtain ⟨j, k, hjk, hj, hk⟩ := exists_lt_of_one_lt_count (Nat.not_le.1 hlt)
  obtain ⟨e, he⟩ := exists_clash_of_getElem? hm hj
  obtain ⟨f, hf⟩ := exists_clash_of_getElem? hm hk
  have hef : Clash methods j k e f := ⟨hjk, he.earlier, hf.earlier,
    he.stem_eq.trans hf.stem_eq.symm, he.repeats_eq.trans hf.repeats_eq.symm⟩
  have hiff := hef.shared_iff
  rw [he.shared_iff, hf.shared_iff] at hiff
  exact iff_not_self hiff

/-- A stem is given as it is to the first method that has it. -/
theorem stem_mem_take (he : methods[j]? = some e) :
    stem methods e ∈ (numberedStems methods).take (j + 1) := by
  induction j using Nat.strong_induction_on generalizing e with
  | _ j ih =>
    rcases Nat.eq_zero_or_pos (repeats methods (methods.take j) e) with hzero | hpos
    · have hj := getElem?_numberedStems he
      rw [hzero, numbered_zero] at hj
      exact mem_take_iff.2 ⟨j, Nat.lt_succ_self j, hj⟩
    · obtain ⟨k, hkj, f, hf, hkey⟩ := exists_of_repeats_pos hpos
      have hstem : stem methods f = stem methods e := congrArg Prod.fst hkey
      rw [← hstem]
      exact (List.take_sublist_take_left (by omega)).subset (ih k hkj hf)

/-! ### Members -/

section LastStage

variable {name : String}

/-- A name gets as many underscores as it has occurred before. -/
theorem getElem?_methodNames_of_numberedStems (h : (numberedStems methods)[i]? = some name) :
    (methodNames methods)[i]? =
      some (underscored name (((numberedStems methods).take i).count name)) := by
  rw [methodNames_eq, getElem?_distinct (separate_numberedStems methods), h, Option.map_some]

/-- A name that is new stays as it is. -/
theorem getElem?_methodNames_of_not_mem (h : (numberedStems methods)[i]? = some name)
    (hnew : name ∉ (numberedStems methods).take i) : (methodNames methods)[i]? = some name := by
  rw [getElem?_methodNames_of_numberedStems h, List.count_eq_zero.2 hnew, underscored_zero]

/-- A name that occurred before gets one underscore. -/
theorem getElem?_methodNames_of_mem (h : (numberedStems methods)[i]? = some name)
    (hmem : name ∈ (numberedStems methods).take i) :
    (methodNames methods)[i]? = some (name ++ "_") := by
  have hcount := Nat.le_antisymm (count_numberedStems_le_one h) (List.count_pos_iff.2 hmem)
  rw [getElem?_methodNames_of_numberedStems h, hcount]
  rfl

end LastStage

/-- **Names of members come of counting.** A method that is counted with methods in front of it gets
its stem with a number. Any other gets its stem, with an underscore if a method in front of it has
the same stem. -/
theorem getElem?_methodNames (hm : methods[i]? = some m) :
    (methodNames methods)[i]? = some
      (if repeats methods (methods.take i) m = 0 then
        if ∃ e ∈ methods.take i, stem methods e = stem methods m then stem methods m ++ "_"
        else stem methods m
      else numbered (stem methods m) (repeats methods (methods.take i) m)) := by
  have hname := getElem?_numberedStems hm
  split_ifs with hzero hstem
  · rw [hzero, numbered_zero] at hname
    obtain ⟨e, he, heq⟩ := hstem
    obtain ⟨j, hji, he⟩ := mem_take_iff.1 he
    refine getElem?_methodNames_of_mem hname ?_
    exact heq ▸ (List.take_sublist_take_left hji).subset (stem_mem_take he)
  · rw [hzero, numbered_zero] at hname
    refine getElem?_methodNames_of_not_mem hname fun hmem ↦ hstem ?_
    obtain ⟨j, e, h⟩ := exists_clash_of_mem hm (by rwa [hzero, numbered_zero])
    exact ⟨e, mem_take_iff.2 ⟨j, h.lt, h.earlier⟩, h.stem_eq⟩
  · refine getElem?_methodNames_of_not_mem hname fun hmem ↦ hzero ?_
    obtain ⟨j, e, h⟩ := exists_clash_of_mem hm hmem
    exact h.repeats_eq_zero

/-- A stem is given as it is to the first method that has it, and to no other. -/
theorem getElem?_methodNames_eq_stem_iff (hm : methods[i]? = some m) :
    (methodNames methods)[i]? = some (stem methods m) ↔
      ∀ e ∈ methods.take i, stem methods e ≠ stem methods m := by
  rw [getElem?_methodNames hm, Option.some.injEq]
  split_ifs with hzero hstem
  · obtain ⟨e, he, heq⟩ := hstem
    exact iff_of_false (append_underscore_ne _) fun hnew ↦ hnew e he heq
  · exact iff_of_true rfl fun e he heq ↦ hstem ⟨e, he, heq⟩
  · obtain ⟨k, hk⟩ := Nat.exists_eq_succ_of_ne_zero hzero
    obtain ⟨j, hji, e, he, hkey⟩ := exists_of_repeats_pos (Nat.pos_of_ne_zero hzero)
    rw [hk]
    exact iff_of_false (numbered_succ_ne _ k) fun hnew ↦
      hnew e (mem_take_iff.2 ⟨j, hji, he⟩) (congrArg Prod.fst hkey)

end ContractBindings.Identifier
