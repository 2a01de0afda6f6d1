import ContractBindings.Proofs.AbiType.Style
import ContractBindings.Proofs.Identifier.MethodNames
import Mathlib.Data.List.NodupEquivFin

/-!
# Overloads told apart

An overload suffix is put together without separators: a type's tag is the name of its outermost
level followed by the tags of its contents, and the suffix is `With` followed by the tags of all
parameters. It can still be read back, for two reasons.

The names of levels are prefix-free, `NoArgs` among them (`prefixFree_marks`), so a text begins with
the tag of at most one type (`typeTag_append_inj`) and what is left can be read in the same way. And
no tag holds a capital `W`, so the last one of an identifier with a suffix is where the suffix
begins, whatever the identifier in front of it looks like (`append_overloadSuffix_inj`).
-/

namespace ContractBindings.Identifier

open Text (Over)

variable {a b : AbiType} {s t : List Char}

/-! ### Tags -/

/-- The names of outermost levels. -/
def tags : List String :=
  "Array" :: "Map" :: Scalar.all.map Scalar.name

theorem tag_mem_tags (type : AbiType) : type.tag ∈ tags := by
  cases type with
  | scalar s => exact .tail _ (.tail _ (List.mem_map.2 ⟨s, s.mem_all, rfl⟩))
  | array element => exact .head _
  | map key value => exact .tail _ (.head _)

/-- The words that suffixes are put together from. -/
def marks : List String :=
  "NoArgs" :: tags

theorem tag_mem_marks (type : AbiType) : type.tag ∈ marks :=
  List.mem_cons_of_mem _ (tag_mem_tags type)

theorem prefixFree_marks : Text.PrefixFree marks := by
  decide +kernel

/-- The style in which tags write types. -/
def tagStyle : AbiType.Style where
  scalar := Scalar.name
  array := "Array"
  arrayEnd := ""
  map := "Map"
  mapMiddle := ""
  mapEnd := ""

theorem readable_tagStyle : tagStyle.Readable where
  nodup := by decide
  prefixFree := fun tag htag other hother ↦
    prefixFree_marks tag (.tail _ htag) other (.tail _ hother)

theorem toList_typeTag_append (type : AbiType) (s : List Char) :
    (typeTag type).toList ++ s = tagStyle.write s type := by
  induction type generalizing s with
  | scalar x => rfl
  | array element ih =>
    rw [typeTag, String.toList_append, List.append_assoc, ih]
    rfl
  | map key value ihk ihv =>
    rw [typeTag, String.toList_append, String.toList_append, List.append_assoc, List.append_assoc,
      ihv, ihk]
    rfl

/-- **A text begins with the tag of at most one type.** -/
theorem typeTag_append_inj (h : (typeTag a).toList ++ s = (typeTag b).toList ++ t) :
    a = b ∧ s = t := by
  rw [toList_typeTag_append, toList_typeTag_append] at h
  exact readable_tagStyle.write_inj h

/-- A type's tag begins with the name of its outermost level. -/
theorem exists_toList_typeTag_append (type : AbiType) (s : List Char) :
    ∃ rest, (typeTag type).toList ++ s = type.tag.toList ++ rest := by
  rw [toList_typeTag_append]
  cases type with
  | scalar x => exact ⟨_, rfl⟩
  | array element => exact ⟨_, rfl⟩
  | map key value => exact ⟨_, rfl⟩

/-! ### Suffixes -/

/-- What an overload suffix says of the types, behind `With`. -/
def suffixMarks : List AbiType → List Char
  | [] => "NoArgs".toList
  | types => types.flatMap fun type ↦ (typeTag type).toList

theorem toList_overloadSuffix (types : List AbiType) :
    (overloadSuffix types).toList = 'W' :: ("ith".toList ++ suffixMarks types) := by
  cases types with
  | nil => rfl
  | cons type types =>
    show ("With" ++ String.join _).toList = _
    rw [String.toList_append, String.toList_join, List.flatMap_map]
    rfl

theorem not_mem_suffixMarks (types : List AbiType) : 'W' ∉ suffixMarks types := by
  cases types with
  | nil => decide
  | cons type types =>
    intro hmem
    obtain ⟨u, -, hu⟩ := List.mem_flatMap.1
      (show 'W' ∈ (type :: types).flatMap fun u ↦ (typeTag u).toList from hmem)
    exact (over_typeTag u).not_mem (by decide) hu

/-- A tag is not empty, and is not what stands for no parameters. -/
theorem typeTag_append_ne (type : AbiType) (s : List Char) :
    (typeTag type).toList ++ s ≠ [] ∧ (typeTag type).toList ++ s ≠ "NoArgs".toList := by
  have hall : ∀ tag ∈ tags, tag ≠ "" ∧ tag ≠ "NoArgs" := by decide
  have hmark := hall type.tag (tag_mem_tags type)
  obtain ⟨rest, hrest⟩ := exists_toList_typeTag_append type s
  rw [hrest]
  constructor
  · intro h
    exact hmark.1 (String.toList_injective (List.append_eq_nil_iff.1 h).1)
  · intro h
    rw [← List.append_nil "NoArgs".toList] at h
    exact hmark.2 (prefixFree_marks.append_inj (tag_mem_marks type) List.mem_cons_self h).1

/-- The tags of types one after the other tell the types. -/
theorem typeTags_injective :
    Function.Injective fun types : List AbiType ↦
      types.flatMap fun type ↦ (typeTag type).toList := by
  intro types others h
  induction types generalizing others with
  | nil =>
    cases others with
    | nil => rfl
    | cons other others => exact absurd h.symm (typeTag_append_ne other _).1
  | cons type types ih =>
    cases others with
    | nil => exact absurd h (typeTag_append_ne type _).1
    | cons other others =>
      obtain ⟨rfl, hrest⟩ := typeTag_append_inj h
      rw [ih hrest]

theorem suffixMarks_injective : Function.Injective suffixMarks := by
  intro types others h
  cases types with
  | nil =>
    cases others with
    | nil => rfl
    | cons other others => exact absurd h.symm (typeTag_append_ne other _).2
  | cons type types =>
    cases others with
    | nil => exact absurd h (typeTag_append_ne type _).2
    | cons other others => exact typeTags_injective h

/-- A character stands last in one place only. -/
theorem append_cons_inj_of_not_mem {c : Char} {before before' after after' : List Char}
    (hafter : c ∉ after) (hafter' : c ∉ after')
    (h : before ++ c :: after = before' ++ c :: after') : before = before' ∧ after = after' := by
  rcases List.append_eq_append_iff.1 h with ⟨middle, rfl, hmiddle⟩ | ⟨middle, rfl, hmiddle⟩
  · cases middle with
    | nil => simpa using hmiddle
    | cons d middle =>
      obtain ⟨-, rfl⟩ := List.cons.inj hmiddle
      exact absurd (List.mem_append_right middle List.mem_cons_self) hafter
  · cases middle with
    | nil => simpa using hmiddle.symm
    | cons d middle =>
      obtain ⟨-, rfl⟩ := List.cons.inj hmiddle
      exact absurd (List.mem_append_right middle List.mem_cons_self) hafter'

/-- **An identifier with a suffix tells both of its parts.** -/
theorem append_overloadSuffix_inj {base base' : String} {types others : List AbiType} :
    base ++ overloadSuffix types = base' ++ overloadSuffix others ↔
      base = base' ∧ types = others := by
  constructor
  · intro h
    have hlist := congrArg String.toList h
    rw [String.toList_append, String.toList_append, toList_overloadSuffix,
      toList_overloadSuffix] at hlist
    have hlast (types : List AbiType) : 'W' ∉ "ith".toList ++ suffixMarks types := by
      rw [List.mem_append, not_or]
      exact ⟨by decide, not_mem_suffixMarks types⟩
    obtain ⟨hbase, hmarks⟩ := append_cons_inj_of_not_mem (hlast types) (hlast others) hlist
    exact ⟨String.toList_injective hbase,
      suffixMarks_injective (List.append_cancel_left hmarks)⟩
  · rintro ⟨rfl, rfl⟩
    rfl

/-! ### Overloads of a contract -/

/-- What stands at two indices of a list occurs more than once in it. -/
theorem one_lt_count {names : List String} {name : String} {i j : Nat} (hij : i ≠ j)
    (hi : names[i]? = some name) (hj : names[j]? = some name) : 1 < names.count name := by
  wlog hlt : i < j generalizing i j
  · exact this hij.symm hj hi (by omega)
  obtain ⟨hi', hi⟩ := List.getElem?_eq_some_iff.1 hi
  obtain ⟨hj', hj⟩ := List.getElem?_eq_some_iff.1 hj
  exact List.duplicate_iff_two_le_count.1
    (List.duplicate_iff_exists_distinct_get.2 ⟨⟨i, hi'⟩, ⟨j, hj'⟩, hlt, hi.symm, hj.symm⟩)

/-- What occurs more than once in a list stands at two indices of it. -/
theorem exists_lt_of_one_lt_count {names : List String} {name : String}
    (h : 1 < names.count name) :
    ∃ i j : Nat, i < j ∧ names[i]? = some name ∧ names[j]? = some name := by
  obtain ⟨i, j, hij, hi, hj⟩ := List.duplicate_iff_exists_distinct_get.1
    (List.duplicate_iff_two_le_count.2 h)
  exact ⟨i, j, hij, hi ▸ List.getElem?_eq_getElem i.isLt, hj ▸ List.getElem?_eq_getElem j.isLt⟩

/-- An identifier that two methods have occurs more than once. -/
theorem one_lt_count_methodBases {methods : List Method} {i j : Nat} {m other : Method}
    (hij : i ≠ j) (hm : methods[i]? = some m) (hother : methods[j]? = some other)
    (hbase : derive .method m.name = derive .method other.name) :
    1 < (methodBases methods).count (derive .method m.name) := by
  refine one_lt_count hij ?_ ?_
  · rw [methodBases, List.getElem?_map, hm, Option.map_some]
  · rw [methodBases, List.getElem?_map, hother, Option.map_some, hbase]

/-- Of two methods with the same identifier both get a suffix. -/
theorem getElem?_suffixed {methods : List Method} {i j : Nat} {m other : Method} (hij : i ≠ j)
    (hm : methods[i]? = some m) (hother : methods[j]? = some other)
    (hbase : derive .method m.name = derive .method other.name) :
    (suffixed (methodBases methods) methods)[i]? =
      some (derive .method m.name ++ overloadSuffix m.parameterTypes) := by
  rw [suffixed, List.getElem?_map, hm, Option.map_some]
  dsimp only
  rw [if_pos (one_lt_count_methodBases hij hm hother hbase)]

/-- **Overloads are told apart by their suffixes alone.** -/
theorem overloads_told_apart :
    (∀ types others : List AbiType,
      overloadSuffix types = overloadSuffix others ↔ types = others) ∧
    (∀ m other : Method, derive .method m.name ≠ derive .method other.name →
      derive .method m.name ++ overloadSuffix m.parameterTypes ≠
        derive .method other.name ++ overloadSuffix other.parameterTypes) ∧
    ∀ (methods : List Method) (i j : Nat) (m other : Method),
      methods[i]? = some m → methods[j]? = some other →
      derive .method m.name = derive .method other.name →
      ((suffixed (methodBases methods) methods)[i]? =
          (suffixed (methodBases methods) methods)[j]? ↔
        m.parameterTypes = other.parameterTypes) := by
  refine ⟨fun types others ↦ ?_, fun m other hbase h ↦ ?_,
    fun methods i j m other hm hother hbase ↦ ?_⟩
  · rw [← String.append_right_inj "", append_overloadSuffix_inj]
    exact and_iff_right rfl
  · exact hbase (append_overloadSuffix_inj.1 h).1
  · by_cases hij : i = j
    · subst hij
      obtain rfl : m = other := Option.some.inj (hm.symm.trans hother)
      simp
    · rw [getElem?_suffixed hij hm hother hbase,
        getElem?_suffixed (Ne.symm hij) hother hm hbase.symm, Option.some.injEq,
        append_overloadSuffix_inj]
      exact and_iff_right hbase

/-- Types whose tags differ in the order of two words, and a method that is named like the beginning
of an identifier with a suffix. -/
theorem overloads_told_apart_nested :
    let lists : Method :=
      ⟨"put", [⟨"index", .map (.scalar .string) (.array (.scalar .any)), 0⟩,
        ⟨"limit", .scalar .integer, 1⟩], .scalar .void, false, none⟩
    let numbers : Method :=
      ⟨"Put", [⟨"index", .map (.scalar .string) (.array (.scalar .integer)), 0⟩,
        ⟨"limit", .scalar .any, 1⟩], .scalar .void, false, none⟩
    let other : Method := ⟨"putWithMap", [], .scalar .void, false, none⟩
    derive .method lists.name = derive .method numbers.name ∧
    derive .method lists.name ≠ derive .method other.name ∧
    derive .method lists.name ++ overloadSuffix lists.parameterTypes ≠
      derive .method other.name ++ overloadSuffix other.parameterTypes ∧
    (suffixed (methodBases [lists, numbers]) [lists, numbers])[0]? ≠
      (suffixed (methodBases [lists, numbers]) [lists, numbers])[1]? := by
  intro lists numbers other
  have hsame : derive .method lists.name = derive .method numbers.name := by decide +kernel
  have hbase : derive .method lists.name ≠ derive .method other.name := by decide +kernel
  have htypes : lists.parameterTypes ≠ numbers.parameterTypes := by decide
  obtain ⟨-, hbases, hnames⟩ := overloads_told_apart
  exact ⟨hsame, hbase, hbases lists other hbase,
    fun h ↦ htypes ((hnames [lists, numbers] 0 1 lists numbers rfl rfl hsame).1 h)⟩

end ContractBindings.Identifier
