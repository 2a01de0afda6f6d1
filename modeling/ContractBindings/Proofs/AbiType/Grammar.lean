import ContractBindings.AbiType.Descriptor
import ContractBindings.Proofs.Results
import ContractBindings.Proofs.Text.Letters
import ContractBindings.Proofs.Text.Runs

/-!
# The grammar of descriptors

What a descriptor may look like, said without a reader: `Derives level s type` holds when `s` writes
`type` and the outermost name of `s` stands `level` names deep. The three rules are a bare name, an
array and a map; spaces may stand on both sides of every token. A name is followed by a space, a
bracket, a comma or nothing, so it is always a maximal run of name characters.

The reader accepts what the grammar derives and nothing else (`parse_eq_ok_iff_derives`). It counts
the levels that are left, the grammar those that are used up, and the two add up to one more than
`maxDepth` all the way down. Either direction is an induction that says what is left of a text when
a type has been taken from its front; going from the grammar to the reader, what is left may have
spaces in front that only the next reader passes. What the reader can do next is said once, for
those inductions and for all others along it (`readsOn`).
-/

namespace ContractBindings.AbiType

/-! ### Spaces -/

/-- A text of spaces, or none. -/
def Blank (s : List Char) : Prop :=
  ∀ c ∈ s, Text.isSpace c = true

variable {s before between after rest word : List Char} {c : Char}

theorem blank_nil : Blank [] :=
  fun _ h ↦ absurd h List.not_mem_nil

theorem Blank.append (hs : Blank s) (h : Blank after) : Blank (s ++ after) :=
  fun c hc ↦ (List.mem_append.1 hc).elim (hs c) (h c)

theorem skipSpaces_append (h : Blank before) (s : List Char) :
    Text.skipSpaces (before ++ s) = Text.skipSpaces s :=
  List.dropWhile_append_of_pos h

theorem skipSpaces_cons (h : Text.isSpace c = false) (s : List Char) :
    Text.skipSpaces (c :: s) = c :: s :=
  List.dropWhile_cons_of_neg (by simp [h])

/-- A text begins with the spaces that skipping leaves out. -/
theorem exists_blank_append (s : List Char) :
    ∃ before, Blank before ∧ s = before ++ Text.skipSpaces s :=
  ⟨s.takeWhile Text.isSpace, fun _ hc ↦ List.mem_takeWhile_imp hc,
    (List.takeWhile_append_dropWhile).symm⟩

/-- No space may stand in a name. -/
theorem isSpace_eq_false_of_isNameChar (h : isNameChar c = true) : Text.isSpace c = false := by
  rw [isNameChar, Bool.or_eq_true, Text.isAlphanum_iff, Text.isUpper_iff, Text.isLower_iff,
    Text.isDigit_iff] at h
  rcases h with h | h
  · simp [Text.isSpace]
    omega
  · rw [eq_of_beq h]
    decide

/-! ### Names -/

/-- Texts that differ at most in the case of their letters. -/
def SameLetters (s t : List Char) : Prop :=
  s.map Char.toLower = t.map Char.toLower

/-- The names that stand for a type on their own, in one of their spellings. -/
def knownNames : List (String × AbiType) :=
  Scalar.all.map (fun s ↦ (s.name, scalar s)) ++
    [("Bool", scalar .boolean), ("Array", array (scalar .any)),
      ("Map", map (scalar .any) (scalar .any))]

/-- A word that is a known name of a type, in any case. -/
def Names (word : List Char) (type : AbiType) : Prop :=
  ∃ known ∈ knownNames, SameLetters word known.1.toList ∧ known.2 = type

variable {type element key value : AbiType}

/-- The table of the reader holds the known names in lower case. -/
theorem named?_eq_some_iff {name : String} :
    named? name = some type ↔
      ∃ known ∈ knownNames,
        name = String.ofList (known.1.toList.map Char.toLower) ∧ known.2 = type := by
  constructor
  · intro h
    unfold named? at h
    split at h <;> cases h <;> decide
  · rintro ⟨known, hknown, rfl, rfl⟩
    revert known
    decide

theorem ofName?_eq_some_iff : ofName? word = some type ↔ Names word type := by
  simp only [ofName?, named?_eq_some_iff, Names, SameLetters, String.ofList_inj]

/-- What is a letter or a digit in lower case is one as it stands. -/
theorem isAlphanum_of_isAlphanum_toLower (h : c.toLower.isAlphanum = true) :
    c.isAlphanum = true := by
  by_cases hu : c.isUpper = true
  · exact Text.isAlphanum_iff.2 (.inl hu)
  · rwa [Text.toLower_of_not_isUpper hu] at h

theorem Names.isNameChar (h : Names word type) : ∀ c ∈ word, isNameChar c = true := by
  obtain ⟨known, hknown, hletters, -⟩ := h
  have hall : ∀ known ∈ knownNames, known.1.toList.all Char.isAlphanum = true := by decide
  intro c hc
  have hlower : c.toLower ∈ known.1.toList.map Char.toLower :=
    hletters ▸ List.mem_map_of_mem hc
  obtain ⟨d, hd, heq⟩ := List.mem_map.1 hlower
  have halphanum : c.toLower.isAlphanum = true := by
    rw [← heq]
    exact Text.isAlphanum_toLower (List.all_eq_true.1 (hall known hknown) d hd)
  rw [AbiType.isNameChar, isAlphanum_of_isAlphanum_toLower halphanum, Bool.true_or]

theorem Names.ne_nil (h : Names word type) : word ≠ [] := by
  obtain ⟨known, hknown, hletters, -⟩ := h
  have hall : ∀ known ∈ knownNames, known.1.toList.map Char.toLower ≠ [] := by decide
  rintro rfl
  exact hall known hknown hletters.symm

theorem names_array (h : SameLetters word "Array".toList) : Names word (array (scalar .any)) :=
  ⟨("Array", array (scalar .any)), by decide, h, rfl⟩

theorem names_map (h : SameLetters word "Map".toList) :
    Names word (map (scalar .any) (scalar .any)) :=
  ⟨("Map", map (scalar .any) (scalar .any)), by decide, h, rfl⟩

/-- A name that stands for no scalar is `Array` or `Map`. -/
theorem Names.eq_container (h : Names word type) (hscalar : ∀ s, type ≠ scalar s) :
    (SameLetters word "Array".toList ∧ type = array (scalar .any)) ∨
      (SameLetters word "Map".toList ∧ type = map (scalar .any) (scalar .any)) := by
  obtain ⟨known, hknown, hletters, rfl⟩ := h
  have hcontainers : ∀ known ∈ knownNames, (∃ s, known.2 = scalar s) ∨
      known = ("Array", array (scalar .any)) ∨
      known = ("Map", map (scalar .any) (scalar .any)) := by
    simp [knownNames, Scalar.all]
  rcases hcontainers known hknown with ⟨s, hs⟩ | rfl | rfl
  · exact absurd hs (hscalar s)
  · exact .inl ⟨hletters, rfl⟩
  · exact .inr ⟨hletters, rfl⟩

theorem sameLetters_of_names_array (h : Names word (array element)) :
    SameLetters word "Array".toList := by
  rcases h.eq_container nofun with ⟨hletters, -⟩ | ⟨-, htype⟩
  · exact hletters
  · cases htype

theorem sameLetters_of_names_map (h : Names word (map key value)) :
    SameLetters word "Map".toList := by
  rcases h.eq_container nofun with ⟨-, htype⟩ | ⟨hletters, -⟩
  · cases htype
  · exact hletters

/-! ### The grammar -/

/-- The texts that write a type, if their outermost name stands `level` names deep. No name may
stand deeper than `maxDepth`. -/
inductive Derives : (level : Nat) → List Char → AbiType → Prop where
  /-- A name on its own. -/
  | name {level : Nat} {before word after : List Char} {type : AbiType}
      (hlevel : level ≤ maxDepth) (hbefore : Blank before) (hword : Names word type)
      (hafter : Blank after) :
      Derives level (before ++ (word ++ after)) type
  /-- `Array` with the type of the elements in brackets. -/
  | array {level : Nat} {before word between inner after : List Char} {element : AbiType}
      (hlevel : level ≤ maxDepth) (hbefore : Blank before)
      (hword : SameLetters word "Array".toList) (hbetween : Blank between)
      (hinner : Derives (level + 1) inner element) (hafter : Blank after) :
      Derives level (before ++ (word ++ (between ++ '<' :: (inner ++ '>' :: after))))
        (array element)
  /-- `Map` with the types of the keys and of the values in brackets. -/
  | map {level : Nat} {before word between first second after : List Char} {key value : AbiType}
      (hlevel : level ≤ maxDepth) (hbefore : Blank before)
      (hword : SameLetters word "Map".toList) (hbetween : Blank between)
      (hfirst : Derives (level + 1) first key) (hsecond : Derives (level + 1) second value)
      (hafter : Blank after) :
      Derives level
        (before ++ (word ++ (between ++ '<' :: (first ++ ',' :: (second ++ '>' :: after)))))
        (map key value)

variable {level levels : Nat}

/-- Spaces may be added at the end. -/
theorem Derives.append_blank (h : Derives level s type) (hblank : Blank after) :
    Derives level (s ++ after) type := by
  cases h with
  | name hlevel hbefore hword hafter =>
    simp only [List.append_assoc]
    exact .name hlevel hbefore hword (hafter.append hblank)
  | array hlevel hbefore hword hbetween hinner hafter =>
    simp only [List.append_assoc, List.cons_append]
    exact .array hlevel hbefore hword hbetween hinner (hafter.append hblank)
  | map hlevel hbefore hword hbetween hfirst hsecond hafter =>
    simp only [List.append_assoc, List.cons_append]
    exact .map hlevel hbefore hword hbetween hfirst hsecond (hafter.append hblank)

/-! ### Reading tokens -/

/-- Spaces keep a name from going on. -/
theorem stopsRun_append (hblank : Blank before) (h : Text.StopsRun isNameChar rest) :
    Text.StopsRun isNameChar (before ++ rest) := by
  cases before with
  | nil => exact h
  | cons c before =>
    refine Text.stopsRun_cons ?_
    rw [← Bool.not_eq_true]
    intro hname
    have hspace := hblank c List.mem_cons_self
    rw [isSpace_eq_false_of_isNameChar hname] at hspace
    cases hspace

/-- The reader of names passes a name that ends where it stops. -/
theorem readName_append (hbefore : Blank before) (hword : Names word type)
    (hrest : Text.StopsRun isNameChar rest) :
    readName (before ++ (word ++ rest)) = .ok (type, rest) := by
  have hchars := hword.isNameChar
  have hstart : Text.skipSpaces (before ++ (word ++ rest)) = word ++ rest := by
    rw [skipSpaces_append hbefore]
    obtain ⟨c, tail, rfl⟩ := List.exists_cons_of_ne_nil hword.ne_nil
    exact skipSpaces_cons (isSpace_eq_false_of_isNameChar (hchars c List.mem_cons_self)) _
  simp [readName, hstart, Text.takeWhile_append hchars hrest,
    Text.dropWhile_append hchars hrest, hword.ne_nil, ofName?_eq_some_iff.2 hword]

/-- What the reader of names takes from the front of a text. -/
theorem exists_names_of_readName (h : readName s = .ok (type, rest)) :
    ∃ before word, s = before ++ (word ++ rest) ∧ Blank before ∧ Names word type := by
  obtain ⟨before, hbefore, hs⟩ := exists_blank_append s
  simp only [readName] at h
  split at h
  case isTrue => cases h
  case isFalse =>
    split at h
    case h_2 => cases h
    case h_1 named hnamed =>
      cases h
      refine ⟨before, (Text.skipSpaces s).takeWhile isNameChar, ?_, hbefore,
        ofName?_eq_some_iff.1 hnamed⟩
      rw [List.takeWhile_append_dropWhile]
      exact hs

theorem readDelimiter_of_skipSpaces (h : Text.skipSpaces s = c :: rest) :
    readDelimiter c s = .ok rest := by
  simp [readDelimiter, h]

theorem exists_blank_of_readDelimiter (h : readDelimiter c s = .ok rest) :
    ∃ before, Blank before ∧ s = before ++ c :: rest := by
  obtain ⟨before, hbefore, hs⟩ := exists_blank_append s
  simp only [readDelimiter] at h
  split at h
  case h_1 => cases h
  case h_2 d tail hskip =>
    split at h
    case isFalse => cases h
    case isTrue heq =>
      cases h
      exact ⟨before, hbefore, by rw [← heq, ← hskip]; exact hs⟩

/-! ### The ways of the reader -/

/-- What the reader does behind the bracket that follows the name of a type. -/
def readArguments (levels : Nat) : AbiType → List Char → Except ReadFault (AbiType × List Char)
  | scalar s, inner => .error (.noArguments s.name, inner)
  | array _, inner => do
    let (element, rest) ← readType levels inner
    return (array element, ← readDelimiter '>' rest)
  | map _ _, inner => do
    let (key, rest) ← readType levels inner
    let rest ← readDelimiter ',' rest
    let (value, rest) ← readType levels rest
    return (map key value, ← readDelimiter '>' rest)

theorem readType_succ (levels : Nat) (s : List Char) :
    readType (levels + 1) s = readName s >>= fun p ↦
      match Text.skipSpaces p.2 with
      | '<' :: inner => readArguments levels p.1 inner
      | rest => .ok (p.1, rest) := by
  rw [readType]
  congr 1
  funext p
  obtain ⟨base, afterName⟩ := p
  cases base <;> rfl

/-- The ways in which the reader goes on from a text, with `levels` levels left below it. -/
inductive ReadsOn (levels : Nat) : List Char → Except ReadFault (AbiType × List Char) → Prop where
  /-- No name of a type comes first. -/
  | noName {s : List Char} {e : ReadFault} (h : readName s = .error e) : ReadsOn levels s (.error e)
  /-- A name, and no bracket behind it. -/
  | name {before word after rest : List Char} {type : AbiType}
      (hbefore : Blank before) (hword : Names word type) (hafter : Blank after) :
      ReadsOn levels (before ++ (word ++ (after ++ rest))) (.ok (type, rest))
  /-- A name and a bracket behind it. -/
  | bracket {before word between inner : List Char} {base : AbiType}
      {result : Except ReadFault (AbiType × List Char)}
      (hbefore : Blank before) (hword : Names word base) (hbetween : Blank between)
      (hresult : readArguments levels base inner = result) :
      ReadsOn levels (before ++ (word ++ (between ++ '<' :: inner))) result

/-- The reader goes on in one of its ways. -/
theorem readsOn (levels : Nat) (s : List Char) : ReadsOn levels s (readType (levels + 1) s) := by
  rw [readType_succ]
  cases hname : readName s with
  | error e => exact .noName hname
  | ok found =>
    obtain ⟨base, afterName⟩ := found
    obtain ⟨before, word, rfl, hbefore, hword⟩ := exists_names_of_readName hname
    obtain ⟨between, hbetween, hskip⟩ := exists_blank_append afterName
    show ReadsOn levels _ (match Text.skipSpaces afterName with | '<' :: inner => _ | rest => _)
    split
    case h_1 inner hopen =>
      rw [hopen] at hskip
      subst hskip
      exact .bracket hbefore hword hbetween rfl
    case h_2 =>
      have hread : ReadsOn levels (before ++ (word ++ (between ++ Text.skipSpaces afterName)))
          (.ok (base, Text.skipSpaces afterName)) := .name hbefore hword hbetween
      rwa [← hskip] at hread

/-! ### The reader keeps to the grammar -/

/-- What the reader takes from the front of a text is derived. -/
theorem exists_derives_of_readType (hlevel : level + levels = maxDepth + 1)
    (h : readType levels s = .ok (type, rest)) :
    ∃ used, s = used ++ rest ∧ Derives level used type := by
  induction levels generalizing level s type rest with
  | zero => cases h
  | succ levels ih =>
    have hle : level ≤ maxDepth := by omega
    have hdeeper : level + 1 + levels = maxDepth + 1 := by omega
    have hread := readsOn levels s
    rw [h] at hread
    cases hread with
    -- Without a bracket the spaces behind the name are taken with it.
    | @name before word after _ _ hbefore hword hafter =>
      refine ⟨before ++ (word ++ after), ?_, .name hle hbefore hword hafter⟩
      rw [List.append_assoc, List.append_assoc]
    | @bracket _ _ _ _ base _ hbefore hword hbetween hresult =>
      cases base with
      | scalar => cases hresult
      | array =>
        obtain ⟨⟨element, left⟩, hread, hbody⟩ := exists_of_bind_eq_ok hresult
        obtain ⟨end_, hclose, hbody⟩ := exists_of_bind_eq_ok hbody
        cases hbody
        obtain ⟨used, rfl, hused⟩ := ih hdeeper hread
        obtain ⟨blank, hblank, rfl⟩ := exists_blank_of_readDelimiter hclose
        refine ⟨_, ?_, .array hle hbefore (sameLetters_of_names_array hword) hbetween
          (hused.append_blank hblank) blank_nil⟩
        simp only [List.append_assoc, List.cons_append, List.nil_append]
      | map =>
        obtain ⟨⟨key, left⟩, hkey, hbody⟩ := exists_of_bind_eq_ok hresult
        obtain ⟨afterComma, hcomma, hbody⟩ := exists_of_bind_eq_ok hbody
        obtain ⟨⟨value, left'⟩, hvalue, hbody⟩ := exists_of_bind_eq_ok hbody
        obtain ⟨end_, hclose, hbody⟩ := exists_of_bind_eq_ok hbody
        cases hbody
        obtain ⟨first, rfl, hfirst⟩ := ih hdeeper hkey
        obtain ⟨blank, hblank, rfl⟩ := exists_blank_of_readDelimiter hcomma
        obtain ⟨second, rfl, hsecond⟩ := ih hdeeper hvalue
        obtain ⟨blank', hblank', rfl⟩ := exists_blank_of_readDelimiter hclose
        refine ⟨_, ?_, .map hle hbefore (sameLetters_of_names_map hword) hbetween
          (hfirst.append_blank hblank) (hsecond.append_blank hblank') blank_nil⟩
        simp only [List.append_assoc, List.cons_append, List.nil_append]

/-! ### The grammar is accepted -/

/-- A text that may follow a type: nothing, or something behind a comma or a closing bracket. -/
def Stops (rest : List Char) : Prop :=
  ∀ c ∈ rest.head?, c = ',' ∨ c = '>'

theorem stops_nil : Stops [] :=
  fun _ h ↦ absurd h (by simp)

theorem stops_cons (h : c = ',' ∨ c = '>') (s : List Char) : Stops (c :: s) := by
  intro d hd
  rw [List.head?_cons, Option.mem_some] at hd
  exact hd ▸ h

namespace Stops

theorem stopsRun (h : Stops rest) : Text.StopsRun isNameChar rest := by
  intro c hc
  rcases h c hc with rfl | rfl <;> decide

theorem skipSpaces (h : Stops rest) : Text.skipSpaces rest = rest := by
  cases rest with
  | nil => rfl
  | cons c rest =>
    refine skipSpaces_cons ?_ rest
    rcases h c rfl with rfl | rfl <;> decide

end Stops

/-- Behind a name and a bracket, the reader goes on with what is in the brackets. -/
theorem readType_bracket (levels : Nat) (hbefore : Blank before) (hword : Names word type)
    (hbetween : Blank between) (inner : List Char) :
    readType (levels + 1) (before ++ (word ++ (between ++ '<' :: inner))) =
      readArguments levels type inner := by
  have hopen : Text.StopsRun isNameChar ('<' :: inner) := Text.stopsRun_cons (by decide)
  rw [readType_succ, readName_append hbefore hword (stopsRun_append hbetween hopen)]
  show (match Text.skipSpaces (between ++ _) with | '<' :: inner => _ | rest => _) = _
  rw [skipSpaces_append hbetween, skipSpaces_cons (by decide)]
  rfl

/-- Behind the name `Array` and a bracket, the reader goes on with the elements. -/
theorem readType_array (levels : Nat) (hbefore : Blank before)
    (hword : SameLetters word "Array".toList) (hbetween : Blank between) (inner : List Char) :
    readType (levels + 1) (before ++ (word ++ (between ++ '<' :: inner))) = (do
      let (element, rest) ← readType levels inner
      return (array element, ← readDelimiter '>' rest)) :=
  readType_bracket levels hbefore (names_array hword) hbetween inner

/-- Behind the name `Map` and a bracket, the reader goes on with the keys and then the values. -/
theorem readType_map (levels : Nat) (hbefore : Blank before)
    (hword : SameLetters word "Map".toList) (hbetween : Blank between) (inner : List Char) :
    readType (levels + 1) (before ++ (word ++ (between ++ '<' :: inner))) = (do
      let (key, rest) ← readType levels inner
      let rest ← readDelimiter ',' rest
      let (value, rest) ← readType levels rest
      return (map key value, ← readDelimiter '>' rest)) :=
  readType_bracket levels hbefore (names_map hword) hbetween inner

/-- Behind keys that are read up to the comma, the reader goes on with the values. -/
theorem readType_map_of_key {inner left second : List Char} (hbefore : Blank before)
    (hword : SameLetters word "Map".toList) (hbetween : Blank between)
    (hread : readType levels inner = .ok (key, left))
    (hleft : Text.skipSpaces left = ',' :: second) :
    readType (levels + 1) (before ++ (word ++ (between ++ '<' :: inner))) = (do
      let (value, rest) ← readType levels second
      return (map key value, ← readDelimiter '>' rest)) := by
  rw [readType_map levels hbefore hword hbetween, hread]
  show (readDelimiter ',' left >>= _) = _
  rw [readDelimiter_of_skipSpaces hleft]
  rfl

/-- **A derived text is read**, up to spaces, in front of anything that may follow it. -/
theorem exists_readType_of_derives (h : Derives level s type)
    (hlevel : level + levels = maxDepth + 1) (hrest : Stops rest) :
    ∃ left, readType levels (s ++ rest) = .ok (type, left) ∧ Text.skipSpaces left = rest := by
  induction h generalizing levels rest with
  | @name level before word after type hle hbefore hword hafter =>
    obtain ⟨levels, rfl⟩ : ∃ n, levels = n + 1 := ⟨levels - 1, by omega⟩
    have hskip : Text.skipSpaces (after ++ rest) = rest := by
      rw [skipSpaces_append hafter, hrest.skipSpaces]
    have hname := readName_append hbefore hword (stopsRun_append hafter hrest.stopsRun)
    refine ⟨rest, ?_, hrest.skipSpaces⟩
    rw [List.append_assoc, List.append_assoc, readType, hname]
    show (match Text.skipSpaces (after ++ rest) with | '<' :: inner => _ | rest => _) = _
    rw [hskip]
    split
    case h_1 => exact absurd (hrest '<' rfl) (by decide)
    case h_2 => rfl
  | @array level before word between inner after element hle hbefore hword hbetween hinner hafter
      ih =>
    obtain ⟨levels, rfl⟩ : ∃ n, levels = n + 1 := ⟨levels - 1, by omega⟩
    have hdeeper : level + 1 + levels = maxDepth + 1 := by omega
    obtain ⟨left, hread, hleft⟩ := ih hdeeper (stops_cons (.inr rfl) (after ++ rest))
    refine ⟨after ++ rest, ?_, by rw [skipSpaces_append hafter, hrest.skipSpaces]⟩
    simp only [List.append_assoc, List.cons_append]
    rw [readType_array levels hbefore hword hbetween, hread]
    show (readDelimiter '>' left >>= _) = _
    rw [readDelimiter_of_skipSpaces hleft]
    rfl
  | @map level before word between first second after key value hle hbefore hword hbetween hfirst
      hsecond hafter ihfirst ihsecond =>
    obtain ⟨levels, rfl⟩ : ∃ n, levels = n + 1 := ⟨levels - 1, by omega⟩
    have hdeeper : level + 1 + levels = maxDepth + 1 := by omega
    obtain ⟨left, hread, hleft⟩ :=
      ihfirst hdeeper (stops_cons (.inl rfl) (second ++ '>' :: (after ++ rest)))
    obtain ⟨left', hread', hleft'⟩ := ihsecond hdeeper (stops_cons (.inr rfl) (after ++ rest))
    refine ⟨after ++ rest, ?_, by rw [skipSpaces_append hafter, hrest.skipSpaces]⟩
    simp only [List.append_assoc, List.cons_append]
    rw [readType_map_of_key hbefore hword hbetween hread hleft, hread']
    show (readDelimiter '>' left' >>= _) = _
    rw [readDelimiter_of_skipSpaces hleft']
    rfl

/-! ### Whole descriptors -/

theorem derives_of_ofChars (h : ofChars s = .ok type) : Derives 1 s type := by
  rw [ofChars] at h
  split at h
  case h_1 => cases h
  case h_2 read rest hread =>
    split at h
    case h_2 => cases h
    case h_1 hskip =>
      cases h
      obtain ⟨used, hused, hderives⟩ := exists_derives_of_readType (Nat.add_comm 1 maxDepth) hread
      obtain ⟨blank, hblank, hrest⟩ := exists_blank_append rest
      rw [hskip, List.append_nil] at hrest
      rw [hused, hrest]
      exact hderives.append_blank hblank

theorem ofChars_of_derives (h : Derives 1 s type) : ofChars s = .ok type := by
  obtain ⟨left, hread, hleft⟩ := exists_readType_of_derives h (Nat.add_comm 1 maxDepth) stops_nil
  rw [List.append_nil] at hread
  rw [ofChars, hread]
  dsimp only
  rw [hleft]

/-- **The reader accepts exactly the grammar**: a text is read as a type if and only if it writes
the type and its outermost name stands one name deep. -/
theorem parse_eq_ok_iff_derives (text : String) (type : AbiType) :
    parse text = .ok type ↔ Derives 1 text.toList type :=
  ⟨derives_of_ofChars, ofChars_of_derives⟩

end ContractBindings.AbiType
