import ContractBindings.Proofs.AbiType.Completion

/-!
# Unknown names in descriptors

The reader of descriptors stops at the first name that is no type's. What stands before the name
then is the beginning of a descriptor (`Opens`): it leads to a place where a name has to stand, and
goes on to a whole descriptor if a known name is put there (`Opens.goesOn`). Of what stands
behind the name nothing is said but that the name ends, for the reader never looks at it
(`exists_ofChars_eq_unknownName_iff`).

So an unknown name hides whatever else is wrong behind it. With known names in place of the unknown
ones the rest is looked at, and brackets that do not match are found: putting other names into a
text leaves its brackets as they are (`Renamed.not_derives`).
-/

namespace ContractBindings.AbiType

variable {s t before between after rest word : List Char} {c : Char} {name : String}
  {type element key value : AbiType} {level levels : Nat}

/-- A word that may be a name and is none of a type. -/
structure Unknown (word : List Char) : Prop where
  ne_nil : word ≠ []
  isNameChar : ∀ c ∈ word, isNameChar c = true
  not_names : ∀ type, ¬ Names word type

/-- The beginnings of texts that write a type, if their outermost name stands `level` names deep, up
to a place where a name has to stand. -/
inductive Opens : (level : Nat) → List Char → Prop where
  /-- Nothing but spaces. -/
  | name {level : Nat} {before : List Char} (hlevel : level ≤ maxDepth) (hbefore : Blank before) :
      Opens level before
  /-- `Array` and the beginning of the type of the elements. -/
  | array {level : Nat} {before word between inner : List Char}
      (hlevel : level ≤ maxDepth) (hbefore : Blank before)
      (hword : SameLetters word "Array".toList) (hbetween : Blank between)
      (hinner : Opens (level + 1) inner) :
      Opens level (before ++ (word ++ (between ++ '<' :: inner)))
  /-- `Map` and the beginning of the type of the keys. -/
  | key {level : Nat} {before word between first : List Char}
      (hlevel : level ≤ maxDepth) (hbefore : Blank before)
      (hword : SameLetters word "Map".toList) (hbetween : Blank between)
      (hfirst : Opens (level + 1) first) :
      Opens level (before ++ (word ++ (between ++ '<' :: first)))
  /-- `Map`, the type of the keys and the beginning of that of the values. -/
  | value {level : Nat} {before word between first second : List Char} {key : AbiType}
      (hlevel : level ≤ maxDepth) (hbefore : Blank before)
      (hword : SameLetters word "Map".toList) (hbetween : Blank between)
      (hfirst : Derives (level + 1) first key) (hsecond : Opens (level + 1) second) :
      Opens level (before ++ (word ++ (between ++ '<' :: (first ++ ',' :: second))))

/-- An unknown name where a name has to stand, behind `before` and in front of `after`. -/
structure MeetsUnknown (level : Nat) (before : List Char) (name : String) (after : List Char) :
    Prop where
  opens : Opens level before
  unknown : Unknown name.toList
  stopsRun : Text.StopsRun isNameChar after

/-! ### Beginnings can be completed -/

/-- **The beginning of a descriptor goes on to a whole one**, with a known name in the next place.
-/
theorem Opens.goesOn (h : Opens level before) : GoesOn level before "Any".toList := by
  induction h with
  | name hlevel hbefore => exact .blank hlevel hbefore
  | array hlevel hbefore hword hbetween _ ih => exact .array hlevel hbefore hword hbetween ih
  | key hlevel hbefore hword hbetween _ ih => exact .key hlevel hbefore hword hbetween ih
  | value hlevel hbefore hword hbetween hfirst _ ih =>
    exact .value hlevel hbefore hword hbetween hfirst ih

/-! ### The reader stops at unknown names -/

theorem readName_unknown (hbefore : Blank before) (hword : Unknown word)
    (hrest : Text.StopsRun isNameChar rest) :
    readName (before ++ (word ++ rest)) = .error (.unknownName (String.ofList word), rest) := by
  have hstart : Text.skipSpaces (before ++ (word ++ rest)) = word ++ rest := by
    rw [skipSpaces_append hbefore]
    obtain ⟨c, tail, rfl⟩ := List.exists_cons_of_ne_nil hword.ne_nil
    exact skipSpaces_cons
      (isSpace_eq_false_of_isNameChar (hword.isNameChar c List.mem_cons_self)) _
  have hnone : ofName? word = none :=
    Option.eq_none_iff_forall_ne_some.2 fun type h ↦ hword.not_names type (ofName?_eq_some_iff.1 h)
  simp [readName, hstart, Text.takeWhile_append hword.isNameChar hrest,
    Text.dropWhile_append hword.isNameChar hrest, hword.ne_nil, hnone]

/-- What the reader of names stops at. -/
theorem exists_unknown_of_readName (h : readName s = .error (.unknownName name, rest)) :
    ∃ before, s = before ++ (name.toList ++ rest) ∧ Blank before ∧ Unknown name.toList ∧
      Text.StopsRun isNameChar rest := by
  obtain ⟨before, hbefore, hs⟩ := exists_blank_append s
  simp only [readName] at h
  split at h
  case isTrue => cases h
  case isFalse hne =>
    split at h
    case h_1 => cases h
    case h_2 hnone =>
      cases h
      rw [String.toList_ofList]
      refine ⟨before, ?_, hbefore, ⟨?_, ?_, ?_⟩, ?_⟩
      · rw [List.takeWhile_append_dropWhile]
        exact hs
      · rwa [List.isEmpty_iff] at hne
      · exact fun c hc ↦ List.mem_takeWhile_imp hc
      · intro type hnames
        rw [ofName?_eq_some_iff.2 hnames] at hnone
        cases hnone
      · exact Text.stopsRun_dropWhile isNameChar _

theorem readDelimiter_ne_unknownName (wanted : Char) :
    readDelimiter wanted s ≠ .error (.unknownName name, rest) := by
  rw [readDelimiter]
  intro h
  split at h
  · cases h
  · split at h <;> cases h

/-- Behind the contents of a container no name is met. -/
theorem close_ne_unknownName (type : AbiType) :
    (readDelimiter '>' s >>= fun rest ↦ .ok (type, rest)) ≠ .error (.unknownName name, rest) := by
  intro h
  rcases error_or_exists_of_bind_eq_error h with hclose | ⟨_, -, hdone⟩
  · exact readDelimiter_ne_unknownName '>' hclose
  · cases hdone

/-- What the reader has passed when it stops at an unknown name. -/
theorem exists_meetsUnknown_of_readType (hlevel : level + levels = maxDepth + 1)
    (h : readType levels s = .error (.unknownName name, rest)) :
    ∃ before, s = before ++ (name.toList ++ rest) ∧ MeetsUnknown level before name rest := by
  induction levels generalizing level s with
  | zero => cases h
  | succ levels ih =>
    have hle : level ≤ maxDepth := by omega
    have hdeeper : level + 1 + levels = maxDepth + 1 := by omega
    have hread := readsOn levels s
    rw [h] at hread
    cases hread with
    | noName hname =>
      obtain ⟨before, hs, hbefore, hunknown, hstops⟩ := exists_unknown_of_readName hname
      exact ⟨before, hs, .name hle hbefore, hunknown, hstops⟩
    | @bracket _ _ _ _ base _ hbefore hword hbetween hresult =>
      cases base with
      | scalar => cases hresult
      | array =>
        rcases error_or_exists_of_bind_eq_error hresult with hread | ⟨_, -, hbody⟩
        · obtain ⟨used, rfl, hmeets⟩ := ih hdeeper hread
          refine ⟨_, ?_, .array hle hbefore (sameLetters_of_names_array hword) hbetween
            hmeets.opens, hmeets.unknown, hmeets.stopsRun⟩
          simp only [List.append_assoc, List.cons_append]
        · exact absurd hbody (close_ne_unknownName _)
      | map =>
        have hmap := sameLetters_of_names_map hword
        rcases error_or_exists_of_bind_eq_error hresult with hread | ⟨⟨key, left⟩, hkey, hbody⟩
        · obtain ⟨used, rfl, hmeets⟩ := ih hdeeper hread
          refine ⟨_, ?_, .key hle hbefore hmap hbetween hmeets.opens, hmeets.unknown,
            hmeets.stopsRun⟩
          simp only [List.append_assoc, List.cons_append]
        rcases error_or_exists_of_bind_eq_error hbody with hcomma | ⟨afterComma, hcomma, hbody⟩
        · exact absurd hcomma (readDelimiter_ne_unknownName ',')
        rcases error_or_exists_of_bind_eq_error hbody with hread | ⟨_, -, hbody⟩
        · obtain ⟨first, rfl, hfirst⟩ := exists_derives_of_readType hdeeper hkey
          obtain ⟨blank, hblank, rfl⟩ := exists_blank_of_readDelimiter hcomma
          obtain ⟨used, rfl, hmeets⟩ := ih hdeeper hread
          refine ⟨_, ?_, .value hle hbefore hmap hbetween (hfirst.append_blank hblank)
            hmeets.opens, hmeets.unknown, hmeets.stopsRun⟩
          simp only [List.append_assoc, List.cons_append]
        · exact absurd hbody (close_ne_unknownName _)

/-- **The reader stops at an unknown name** behind the beginning of a descriptor, whatever follows.
-/
theorem readType_of_opens (h : Opens level before) (hlevel : level + levels = maxDepth + 1)
    (hword : Unknown word) (hrest : Text.StopsRun isNameChar rest) :
    readType levels (before ++ (word ++ rest)) =
      .error (.unknownName (String.ofList word), rest) := by
  induction h generalizing levels with
  | @name level before hle hbefore =>
    obtain ⟨levels, rfl⟩ : ∃ n, levels = n + 1 := ⟨levels - 1, by omega⟩
    rw [readType, readName_unknown hbefore hword hrest]
    rfl
  | @array level before _ between inner hle hbefore harray hbetween _ ih =>
    obtain ⟨levels, rfl⟩ : ∃ n, levels = n + 1 := ⟨levels - 1, by omega⟩
    simp only [List.append_assoc, List.cons_append]
    rw [readType_array levels hbefore harray hbetween, ih (by omega)]
    rfl
  | @key level before _ between first hle hbefore hmap hbetween _ ih =>
    obtain ⟨levels, rfl⟩ : ∃ n, levels = n + 1 := ⟨levels - 1, by omega⟩
    simp only [List.append_assoc, List.cons_append]
    rw [readType_map levels hbefore hmap hbetween, ih (by omega)]
    rfl
  | @value level before _ between first second key hle hbefore hmap hbetween hfirst _ ih =>
    obtain ⟨levels, rfl⟩ : ∃ n, levels = n + 1 := ⟨levels - 1, by omega⟩
    have hdeeper : level + 1 + levels = maxDepth + 1 := by omega
    obtain ⟨left, hread, hleft⟩ := exists_readType_of_derives hfirst hdeeper
      (stops_cons (.inl rfl) (second ++ (word ++ rest)))
    simp only [List.append_assoc, List.cons_append]
    rw [readType_map_of_key hbefore hmap hbetween hread hleft, ih hdeeper]
    rfl

/-- **A text is refused for an unknown name** if and only if the name stands behind the beginning of
a descriptor, where a name has to stand. -/
theorem exists_ofChars_eq_unknownName_iff :
    (∃ offset, ofChars s = .error ⟨.unknownName name, offset⟩) ↔
      ∃ before after, s = before ++ (name.toList ++ after) ∧
        MeetsUnknown 1 before name after := by
  have hlevel : 1 + maxDepth = maxDepth + 1 := Nat.add_comm 1 maxDepth
  rw [ofChars]
  constructor
  · rintro ⟨offset, h⟩
    split at h
    case h_1 fault rest hread =>
      cases h
      obtain ⟨before, hs, hmeets⟩ := exists_meetsUnknown_of_readType hlevel hread
      exact ⟨before, rest, hs, hmeets⟩
    case h_2 =>
      split at h <;> cases h
  · rintro ⟨before, after, hs, hmeets⟩
    rw [hs, readType_of_opens hmeets.opens hlevel hmeets.unknown hmeets.stopsRun,
      String.ofList_toList]
    exact ⟨_, rfl⟩

/-! ### Other names in place of names -/

/-- A text, and one that has known names in place of some of its names. -/
inductive Renamed : List Char → List Char → Prop where
  | nil : Renamed [] []
  /-- What does not belong to a name stays. -/
  | other {c : Char} {s t : List Char} (hc : isNameChar c = false) (h : Renamed s t) :
      Renamed (c :: s) (c :: t)
  /-- A name stays or becomes a known one. -/
  | name {word word' s t : List Char} (hne : word ≠ [])
      (hword : ∀ c ∈ word, isNameChar c = true) (hstops : Text.StopsRun isNameChar s)
      (hword' : word' = word ∨ ∃ type, Names word' type) (h : Renamed s t) :
      Renamed (word ++ s) (word' ++ t)

theorem count_eq_zero_of_blank (h : Blank s) (hc : Text.isSpace c = false) : s.count c = 0 :=
  List.count_eq_zero.2 fun hmem ↦ Bool.false_ne_true (hc.symm.trans (h c hmem))

theorem count_eq_zero_of_isNameChar (h : ∀ c ∈ s, isNameChar c = true)
    (hc : isNameChar c = false) : s.count c = 0 :=
  List.count_eq_zero.2 fun hmem ↦ Bool.false_ne_true (hc.symm.trans (h c hmem))

/-- Other names leave all other characters as they are. -/
theorem Renamed.count_eq (h : Renamed s t) (hc : isNameChar c = false) : s.count c = t.count c := by
  induction h with
  | nil => rfl
  | other _ _ ih => rw [List.count_cons, List.count_cons, ih]
  | @name word word' _ _ _ hword _ hword' _ ih =>
    have hchars : ∀ d ∈ word', isNameChar d = true := by
      rcases hword' with rfl | ⟨type, hnames⟩
      · exact hword
      · exact hnames.isNameChar
    rw [List.count_append, List.count_append, ih, count_eq_zero_of_isNameChar hword hc,
      count_eq_zero_of_isNameChar hchars hc]

/-- In a text that writes a type, there are as many brackets that open as that close. -/
theorem Derives.count_brackets (h : Derives level s type) : s.count '<' = s.count '>' := by
  have hblank {s : List Char} (h : Blank s) : s.count '<' = 0 ∧ s.count '>' = 0 :=
    ⟨count_eq_zero_of_blank h (by decide), count_eq_zero_of_blank h (by decide)⟩
  have hnames {word : List Char} {type : AbiType} (h : Names word type) :
      word.count '<' = 0 ∧ word.count '>' = 0 :=
    ⟨count_eq_zero_of_isNameChar h.isNameChar (by decide),
      count_eq_zero_of_isNameChar h.isNameChar (by decide)⟩
  induction h with
  | name _ hbefore hword hafter =>
    simp [hblank hbefore, hnames hword, hblank hafter]
  | array _ hbefore hword hbetween _ hafter ih =>
    simp [hblank hbefore, hnames (names_array hword), hblank hbetween, hblank hafter, ih]
  | map _ hbefore hword hbetween _ _ hafter ihfirst ihsecond =>
    simp [hblank hbefore, hnames (names_map hword), hblank hbetween, hblank hafter, ihfirst,
      ihsecond]
    omega

/-- **Other names do not help where brackets do not match.** -/
theorem Renamed.not_derives (h : Renamed s t) (hs : s.count '<' ≠ s.count '>') :
    ¬ Derives level t type := by
  rw [h.count_eq (by decide), h.count_eq (by decide)] at hs
  exact fun ht ↦ hs ht.count_brackets

end ContractBindings.AbiType
