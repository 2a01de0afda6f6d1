import ContractBindings.Binding.TypeMap
import ContractBindings.Proofs.AbiType.Grammar

/-!
# How deep types are

The reader bounds the levels of names in a descriptor, `depth` counts the levels of the type that is
read, and a container without brackets has one level more than its name. So a type that is read may
be one level deeper than `maxDepth`, and only by what such a name adds: whatever stands `maxDepth`
brackets deep in it is the type of anything (`Derives.eq_any_of_mem_inside`).

A canonical text has brackets at all its containers, so there the two counts agree, and the bound of
the reader is that on types (`parse_text`, `exists_parse_text_of_lt`). A type within the bound is
therefore read back from its text and has a counterpart as far as its depth goes; a type beyond it
is neither. What is read back cannot be the text of two types (`parse_text_by_depth`).
-/

namespace ContractBindings.AbiType

open Binding

variable {s : List Char} {type element key value u : AbiType} {level levels n : Nat}

/-! ### Depth of derived types -/

/-- The types that stand `n` brackets deep in the canonical text of a type. -/
def inside : (n : Nat) → AbiType → List AbiType
  | 0, type => [type]
  | _ + 1, scalar _ => []
  | n + 1, array element => inside n element
  | n + 1, map key value => inside n key ++ inside n value

/-- A known name stands for a type of one level, or of two of which the inner one holds anything. -/
theorem Names.depth_le {word : List Char} (h : Names word type) :
    type.depth ≤ 2 ∧ ∀ u ∈ inside 1 type, u = scalar .any := by
  obtain ⟨known, hknown, -, rfl⟩ := h
  revert known
  decide

theorem inside_eq_nil (h : type.depth ≤ n) : inside n type = [] := by
  induction type generalizing n with
  | scalar s =>
    obtain ⟨n, rfl⟩ := Nat.exists_eq_add_of_le' (show 1 ≤ n from h)
    rfl
  | array element ih =>
    rw [depth] at h
    obtain ⟨n, rfl⟩ := Nat.exists_eq_add_of_le' (show 1 ≤ n by omega)
    exact ih (by omega)
  | map key value ihk ihv =>
    rw [depth] at h
    obtain ⟨n, rfl⟩ := Nat.exists_eq_add_of_le' (show 1 ≤ n by omega)
    rw [inside, ihk (by omega), ihv (by omega), List.append_nil]

/-- A derived type has at most one level more than its names may have. -/
theorem Derives.depth_le (h : Derives level s type) : level + type.depth ≤ maxDepth + 2 := by
  induction h with
  | name hlevel _ hword _ =>
    have hdepth := hword.depth_le.1
    omega
  | array _ _ _ _ _ _ ih =>
    rw [depth]
    omega
  | map _ _ _ _ _ _ _ ihk ihv =>
    rw [depth]
    omega

/-- **Below the deepest names stands only what a container without brackets adds.** -/
theorem Derives.eq_any_of_mem_inside (h : Derives level s type) (hn : level + n = maxDepth + 1)
    (hu : u ∈ inside n type) : u = scalar .any := by
  induction h generalizing n with
  | @name level _ _ _ type hlevel _ hword _ =>
    obtain ⟨n, rfl⟩ := Nat.exists_eq_add_of_le' (show 1 ≤ n by omega)
    obtain ⟨hdepth, hany⟩ := hword.depth_le
    cases n with
    | zero => exact hany u hu
    | succ n =>
      rw [inside_eq_nil (by omega)] at hu
      exact absurd hu List.not_mem_nil
  | array _ _ _ _ _ _ ih =>
    obtain ⟨n, rfl⟩ := Nat.exists_eq_add_of_le' (show 1 ≤ n by omega)
    exact ih (by omega) hu
  | map _ _ _ _ _ _ _ ihk ihv =>
    obtain ⟨n, rfl⟩ := Nat.exists_eq_add_of_le' (show 1 ≤ n by omega)
    rcases List.mem_append.1 hu with hu | hu
    · exact ihk (by omega) hu
    · exact ihv (by omega) hu

/-! ### Canonical texts -/

theorem names_scalar (s : Scalar) : Names s.name.toList (scalar s) :=
  ⟨(s.name, scalar s), List.mem_append_left _ (List.mem_map_of_mem s.mem_all), rfl, rfl⟩

theorem toList_text_array_append (rest : List Char) :
    (array element).text.toList ++ rest =
      [] ++ ("Array".toList ++ ([] ++ '<' :: (element.text.toList ++ '>' :: rest))) := by
  simp [text]

theorem toList_text_map_append (rest : List Char) :
    (map key value).text.toList ++ rest =
      [] ++ ("Map".toList ++
        ([] ++ '<' :: (key.text.toList ++ ',' :: (value.text.toList ++ '>' :: rest)))) := by
  simp [text]

/-- The canonical text of a type writes it, if none of its levels is too deep. -/
theorem derives_text (h : level + type.depth ≤ maxDepth + 1) :
    Derives level type.text.toList type := by
  induction type generalizing level with
  | scalar s =>
    rw [depth] at h
    rw [← List.append_nil (scalar s).text.toList]
    exact .name (by omega) blank_nil (names_scalar s) blank_nil
  | array element ih =>
    rw [depth] at h
    rw [← List.append_nil (array element).text.toList, toList_text_array_append]
    exact .array (by omega) blank_nil rfl blank_nil (ih (by omega)) blank_nil
  | map key value ihk ihv =>
    rw [depth] at h
    rw [← List.append_nil (map key value).text.toList, toList_text_map_append]
    exact .map (by omega) blank_nil rfl blank_nil (ihk (by omega)) (ihv (by omega)) blank_nil

/-- The canonical text of a type with too many levels is refused for that, whatever follows it. -/
theorem readType_text_of_lt (hlevel : level + levels = maxDepth + 1) (h : levels < type.depth)
    (rest : List Char) :
    ∃ left, readType levels (type.text.toList ++ rest) = .error (.tooDeep, left) := by
  induction type generalizing level levels rest with
  | scalar s =>
    rw [depth] at h
    obtain rfl : levels = 0 := by omega
    exact ⟨_, rfl⟩
  | array element ih =>
    cases levels with
    | zero => exact ⟨_, rfl⟩
    | succ levels =>
      rw [depth] at h
      have hdeeper : level + 1 + levels = maxDepth + 1 := by omega
      obtain ⟨left, hread⟩ := ih hdeeper (by omega) ('>' :: rest)
      refine ⟨left, ?_⟩
      rw [toList_text_array_append, readType_array levels blank_nil rfl blank_nil, hread]
      rfl
  | map key value ihk ihv =>
    cases levels with
    | zero => exact ⟨_, rfl⟩
    | succ levels =>
      rw [depth] at h
      have hdeeper : level + 1 + levels = maxDepth + 1 := by omega
      rw [toList_text_map_append]
      -- The key is met first; a key within the bound is read, and then the value is refused.
      by_cases hkey : levels < key.depth
      · obtain ⟨left, hread⟩ := ihk hdeeper hkey (',' :: (value.text.toList ++ '>' :: rest))
        refine ⟨left, ?_⟩
        rw [readType_map levels blank_nil rfl blank_nil, hread]
        rfl
      · have hderives : Derives (level + 1) key.text.toList key := derives_text (by omega)
        obtain ⟨left, hread, hleft⟩ := exists_readType_of_derives hderives hdeeper
          (stops_cons (.inl rfl) (value.text.toList ++ '>' :: rest))
        obtain ⟨left', hread'⟩ := ihv hdeeper (by omega) ('>' :: rest)
        refine ⟨left', ?_⟩
        rw [readType_map_of_key blank_nil rfl blank_nil hread hleft, hread']
        rfl

/-- A type within the bound is read back from its canonical text. -/
theorem parse_text (h : type.depth ≤ maxDepth) : parse type.text = .ok type :=
  ofChars_of_derives (derives_text (by omega))

/-- A type beyond the bound is not. -/
theorem exists_parse_text_of_lt (h : maxDepth < type.depth) :
    ∃ offset, parse type.text = .error ⟨.tooDeep, offset⟩ := by
  obtain ⟨left, hread⟩ := readType_text_of_lt (Nat.add_comm 1 maxDepth) h []
  rw [List.append_nil] at hread
  rw [parse, ofChars, hread]
  exact ⟨_, rfl⟩

/-- **The canonical text of a type is read back, or refused for its depth alone.** So types within
the bound are told apart by their canonical texts. -/
theorem parse_text_by_depth :
    (∀ type : AbiType,
      if type.depth ≤ maxDepth then parse type.text = .ok type
      else ∃ e, parse type.text = .error e ∧ e.fault = .tooDeep ∧
        e.message = "type nesting exceeds 32 levels") ∧
    Function.Injective fun type : {type : AbiType // type.depth ≤ maxDepth} ↦ type.1.text := by
  constructor
  · intro type
    split
    case isTrue hle => exact parse_text hle
    case isFalse hlt =>
      obtain ⟨offset, h⟩ := exists_parse_text_of_lt (Nat.lt_of_not_le hlt)
      exact ⟨⟨.tooDeep, offset⟩, h, rfl, rfl⟩
  · rintro ⟨type, htype⟩ ⟨other, hother⟩ htext
    have hread : Except.ok type = (.ok other : Except DescriptorError AbiType) := by
      rw [← parse_text htype, ← parse_text hother]
      exact congrArg parse htext
    cases hread
    rfl

/-! ### Names under arrays -/

/-- A descriptor with a name under `n` arrays. -/
def underArrays (n : Nat) (name : String) : String :=
  String.join (List.replicate n "Array<") ++ name ++ String.join (List.replicate n ">")

theorem derives_underArrays {name : String} (hname : Names name.toList type)
    (hlevel : level + n ≤ maxDepth) :
    Derives level (underArrays n name).toList (Nat.repeat array n type) := by
  induction n generalizing level with
  | zero =>
    have htext : (underArrays 0 name).toList = [] ++ (name.toList ++ []) := by
      simp [underArrays]
    rw [htext]
    exact .name hlevel blank_nil hname blank_nil
  | succ n ih =>
    have htext : (underArrays (n + 1) name).toList =
        [] ++ ("Array".toList ++ ([] ++ '<' :: ((underArrays n name).toList ++ ['>']))) := by
      rw [underArrays, List.replicate_succ, List.replicate_succ']
      simp [underArrays, String.toList_join]
    rw [htext]
    exact .array (by omega) blank_nil rfl blank_nil (ih (by omega)) blank_nil

/-- A name on the deepest level is read as it is elsewhere. -/
theorem parse_underArrays {name : String} (hname : Names name.toList type) :
    parse (underArrays 31 name) = .ok (Nat.repeat array 31 type) :=
  ofChars_of_derives (derives_underArrays hname (Nat.le_refl _))

/-! ### Depth of read types -/

/-- The only types that are refused for their depth are those beyond the bound. -/
theorem mapType_eq_tooDeep_iff :
    mapType type = .error (.tooDeep u) ↔ maxDepth < type.depth ∧ u = type := by
  rw [mapType]
  split
  case isTrue hlt =>
    rw [Except.error.injEq, TypeMapError.tooDeep.injEq, and_iff_right hlt, eq_comm]
  case isFalse hle =>
    rw [iff_false_right fun h ↦ hle h.1]
    split <;> rintro ⟨⟩

/-- **A type that is read has at most one level too many**, which is what containers without
brackets hold. It is read back from its canonical text and has a counterpart as far as its depth
goes, unless it has that level; with it, both refuse it as too deep. -/
theorem depth_of_parse {text : String} (h : parse text = .ok type) :
    type.depth ≤ maxDepth + 1 ∧ (∀ u ∈ inside maxDepth type, u = scalar .any) ∧
      (type.depth ≤ maxDepth →
        parse type.text = .ok type ∧ ∀ u, mapType type ≠ .error (.tooDeep u)) ∧
      (maxDepth < type.depth →
        (∃ offset, parse type.text = .error ⟨.tooDeep, offset⟩) ∧
          mapType type = .error (.tooDeep type)) := by
  have hderives := derives_of_ofChars h
  refine ⟨?_, fun u hu ↦ hderives.eq_any_of_mem_inside (Nat.add_comm 1 maxDepth) hu,
    fun hle ↦ ⟨parse_text hle, fun u htoo ↦ ?_⟩,
    fun hlt ↦ ⟨exists_parse_text_of_lt hlt, mapType_eq_tooDeep_iff.2 ⟨hlt, rfl⟩⟩⟩
  · have hdepth := hderives.depth_le
    omega
  · have hlt := (mapType_eq_tooDeep_iff.1 htoo).1
    omega

/-- A container without brackets on the deepest level is read as a type that is too deep. -/
theorem parse_bareArray :
    parse (underArrays 31 "Array") = .ok (Nat.repeat array 32 (scalar .any)) ∧
      maxDepth < (Nat.repeat array 32 (scalar .any)).depth :=
  ⟨parse_underArrays (names_array rfl), by decide⟩

theorem depth_of_parse_bareArray :
    parse (underArrays 31 "Array") = .ok (Nat.repeat array 32 (scalar .any)) ∧
      (∃ offset, parse (Nat.repeat array 32 (scalar .any)).text = .error ⟨.tooDeep, offset⟩) ∧
      mapType (Nat.repeat array 32 (scalar .any)) =
        .error (.tooDeep (Nat.repeat array 32 (scalar .any))) := by
  have h : parse (underArrays 31 "Array") = .ok (Nat.repeat array 32 (scalar .any)) :=
    parse_underArrays (names_array rfl)
  obtain ⟨-, -, -, hdeep⟩ := depth_of_parse h
  exact ⟨h, hdeep (by decide)⟩

end ContractBindings.AbiType
