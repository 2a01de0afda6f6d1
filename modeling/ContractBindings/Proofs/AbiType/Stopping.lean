import ContractBindings.Proofs.AbiType.Completion

/-!
# Where the reader of descriptors stops

Most faults of a descriptor are reported with a place. The place is the first at which the text
cannot go on: what stands before it is the beginning of a descriptor that is accepted, and with the
character that stands there it is the beginning of none (`parse_stops_at_first_impossible`).

The two halves rest on different facts. That the text before the place can be completed is an
induction along the reader, whose every step leaves a beginning of what the grammar derives
(`exists_goesOn_of_readType`). That the next character rules out all completions needs no
grammar: a reader never looks further than one character behind what it takes (`LooksAhead`), so it
stops there with the same fault whatever follows.

Faults that carry no place have no such law. An unknown name is reported once it has been read to
its end, and a type that is too deep where its first name would begin.
-/

namespace ContractBindings

/-- The faults that are reported with the place where they are met. -/
def DescriptorFault.Placed : DescriptorFault → Prop
  | nameExpected | delimiterExpected _ _ | trailingText => True
  | unknownName _ | tooDeep | noArguments _ => False

/-- The message of a fault that is met at a place names the place. -/
theorem DescriptorError.exists_message_eq {e : DescriptorError} (h : e.fault.Placed) :
    ∃ what found, e.message = what ++ " at offset " ++ toString e.offset ++ found := by
  have hid (s : String) : toString s = s := rfl
  obtain ⟨fault, offset⟩ := e
  cases fault with
  | nameExpected =>
    exact ⟨"expected a type name", "", String.toList_injective (by simp [message, hid])⟩
  | delimiterExpected wanted found =>
    refine ⟨"expected '" ++ wanted.toString ++ "'", ?_⟩
    cases found with
    | none => exact ⟨", found end of input", String.toList_injective (by simp [message, hid])⟩
    | some c =>
      exact ⟨", found '" ++ c.toString ++ "'", String.toList_injective (by simp [message, hid])⟩
  | trailingText =>
    exact ⟨"unexpected trailing input", "", String.toList_injective (by simp [message, hid])⟩
  | unknownName name => exact h.elim
  | tooDeep => exact h.elim
  | noArguments name => exact h.elim

/-- The bytes of a text that is put together. -/
theorem Text.byteLength_append (s t : List Char) :
    Text.byteLength (s ++ t) = Text.byteLength s + Text.byteLength t := by
  induction s with
  | nil => rw [List.nil_append, show Text.byteLength [] = 0 from rfl, Nat.zero_add]
  | cons c s ih =>
    show c.utf8Size + Text.byteLength (s ++ t) = c.utf8Size + Text.byteLength s + Text.byteLength t
    rw [ih, Nat.add_assoc]

theorem Text.utf8ByteSize_ofList (s : List Char) :
    (String.ofList s).utf8ByteSize = Text.byteLength s := by
  induction s with
  | nil => rfl
  | cons c s ih =>
    show (String.ofList ([c] ++ s)).utf8ByteSize = c.utf8Size + Text.byteLength s
    rw [String.ofList_append, String.utf8ByteSize_append, ih]
    congr 1
    exact String.utf8ByteSize_singleton

namespace AbiType

variable {α β : Type} {s rest : List Char} {fault : DescriptorFault} {level levels : Nat}

/-! ### Readers that look one character ahead -/

/-- A value or a fault, in front of the text that is left. -/
def give : Except DescriptorFault α → List Char → Except ReadFault (α × List Char)
  | .ok a, rest => .ok (a, rest)
  | .error fault, rest => .error (fault, rest)

/-- A reader takes some text from the front, and gives the same for all texts that go on behind it
with the same character or end there as well. -/
def LooksAhead (read : List Char → Except ReadFault (α × List Char)) : Prop :=
  ∀ s, ∃ used rest result, s = used ++ rest ∧
    ∀ other : List Char, other.head? = rest.head? → read (used ++ other) = give result other

/-- Skipping spaces looks one character ahead. -/
theorem exists_skipSpaces (s : List Char) :
    ∃ before start, s = before ++ start ∧ Blank before ∧
      ∀ other : List Char, other.head? = start.head? → Text.skipSpaces (before ++ other) = other := by
  obtain ⟨before, hbefore, hs⟩ := exists_blank_append s
  have hstops : Text.StopsRun Text.isSpace (Text.skipSpaces s) := Text.stopsRun_dropWhile _ s
  exact ⟨before, Text.skipSpaces s, hs, hbefore,
    fun other h ↦ Text.dropWhile_append hbefore (hstops.of_head?_eq h)⟩

theorem looksAhead_ok (a : α) : LooksAhead fun s ↦ .ok (a, s) :=
  fun s ↦ ⟨[], s, .ok a, rfl, fun _ _ ↦ rfl⟩

/-- **Readers one after the other look ahead as each of them does**: the second takes the character
that the first has seen, or leaves it as the one to be seen. -/
theorem LooksAhead.bind {read : List Char → Except ReadFault (α × List Char)}
    {next : α → List Char → Except ReadFault (β × List Char)} (hread : LooksAhead read)
    (hnext : ∀ a, LooksAhead (next a)) : LooksAhead fun s ↦ read s >>= fun p ↦ next p.1 p.2 := by
  intro s
  obtain ⟨used, rest, result, rfl, hsame⟩ := hread s
  cases result with
  | error fault =>
    refine ⟨used, rest, .error fault, rfl, fun other hother ↦ ?_⟩
    dsimp only
    rw [hsame other hother]
    rfl
  | ok a =>
    obtain ⟨used', rest', result', rfl, hsame'⟩ := hnext a rest
    refine ⟨used ++ used', rest', result', (List.append_assoc ..).symm, fun other hother ↦ ?_⟩
    have hhead : (used' ++ other).head? = (used' ++ rest').head? := by
      rw [List.head?_append, List.head?_append, hother]
    dsimp only
    rw [List.append_assoc, hsame _ hhead]
    exact hsame' other hother

theorem LooksAhead.afterDelimiter {next : List Char → Except ReadFault (α × List Char)}
    (hnext : LooksAhead next) (wanted : Char) :
    LooksAhead fun s ↦ readDelimiter wanted s >>= next := by
  intro s
  obtain ⟨before, start, rfl, -, hskip⟩ := exists_skipSpaces s
  cases start with
  | nil =>
    refine ⟨before, [], .error (.delimiterExpected wanted none), rfl, fun other hother ↦ ?_⟩
    dsimp only
    rw [readDelimiter, hskip other hother, List.head?_eq_none_iff.1 hother]
    rfl
  | cons c start =>
    by_cases hc : c = wanted
    · subst hc
      obtain ⟨used, rest, result, rfl, hsame⟩ := hnext start
      refine ⟨before ++ c :: used, rest, result, by simp, fun other hother ↦ ?_⟩
      dsimp only
      rw [List.append_assoc, List.cons_append,
        readDelimiter_of_skipSpaces (hskip (c :: (used ++ other)) rfl)]
      exact hsame other hother
    · refine ⟨before, c :: start, .error (.delimiterExpected wanted (some c)), rfl,
        fun other hother ↦ ?_⟩
      obtain ⟨start', rfl⟩ := List.head?_eq_some_iff.1 hother
      dsimp only
      rw [readDelimiter, hskip (c :: start') rfl]
      dsimp only
      rw [if_neg hc]
      rfl

theorem looksAhead_readName : LooksAhead readName := by
  intro s
  obtain ⟨before, start, rfl, -, hskip⟩ := exists_skipSpaces s
  obtain ⟨word, rest, rfl, hword, hstops⟩ : ∃ word rest, start = word ++ rest ∧
      (∀ c ∈ word, isNameChar c = true) ∧ Text.StopsRun isNameChar rest :=
    ⟨_, _, List.takeWhile_append_dropWhile.symm, fun _ hc ↦ List.mem_takeWhile_imp hc,
      Text.stopsRun_dropWhile isNameChar start⟩
  have hstart (other : List Char) (hother : other.head? = rest.head?) :
      Text.skipSpaces (before ++ (word ++ other)) = word ++ other :=
    hskip _ (by rw [List.head?_append, List.head?_append, hother])
  have htake (other : List Char) (hother : other.head? = rest.head?) :
      (word ++ other).takeWhile isNameChar = word :=
    Text.takeWhile_append hword (hstops.of_head?_eq hother)
  have hdrop (other : List Char) (hother : other.head? = rest.head?) :
      (word ++ other).dropWhile isNameChar = other :=
    Text.dropWhile_append hword (hstops.of_head?_eq hother)
  by_cases hempty : word = []
  · subst hempty
    refine ⟨before, rest, .error .nameExpected, rfl, fun other hother ↦ ?_⟩
    have hblank : Text.skipSpaces (before ++ other) = other := hstart other hother
    have hnone : other.takeWhile isNameChar = [] := htake other hother
    simp [readName, hblank, hnone, give]
  cases hname : ofName? word with
  | some type =>
    refine ⟨before ++ word, rest, .ok type, by simp, fun other hother ↦ ?_⟩
    simp [readName, hstart other hother, htake other hother, hdrop other hother, hempty, hname,
      give]
  | none =>
    refine ⟨before ++ word, rest, .error (.unknownName (String.ofList word)), by simp,
      fun other hother ↦ ?_⟩
    simp [readName, hstart other hother, htake other hother, hdrop other hother, hempty, hname,
      give]

/-- Whether a bracket follows is seen in the next character behind the spaces. -/
theorem LooksAhead.afterBracket {next : List Char → Except ReadFault (α × List Char)}
    (hnext : LooksAhead next) (a : α) :
    LooksAhead fun s ↦ match Text.skipSpaces s with
      | '<' :: inner => next inner
      | rest => .ok (a, rest) := by
  intro s
  obtain ⟨before, start, rfl, -, hskip⟩ := exists_skipSpaces s
  by_cases hopen : start.head? = some '<'
  · obtain ⟨inner, rfl⟩ := List.head?_eq_some_iff.1 hopen
    obtain ⟨used, rest, result, rfl, hsame⟩ := hnext inner
    refine ⟨before ++ '<' :: used, rest, result, by simp, fun other hother ↦ ?_⟩
    dsimp only
    rw [List.append_assoc, List.cons_append, hskip ('<' :: (used ++ other)) rfl]
    exact hsame other hother
  · refine ⟨before, start, .ok a, rfl, fun other hother ↦ ?_⟩
    dsimp only
    rw [hskip other hother]
    split
    case h_1 inner => exact absurd hother.symm hopen
    case h_2 => rfl

theorem LooksAhead.readArguments (h : LooksAhead (readType levels)) (base : AbiType) :
    LooksAhead (readArguments levels base) := by
  cases base with
  | scalar s => exact fun inner ↦ ⟨[], inner, .error (.noArguments s.name), rfl, fun _ _ ↦ rfl⟩
  | array element => exact h.bind fun element ↦ (looksAhead_ok (array element)).afterDelimiter '>'
  | map key value =>
    exact h.bind fun key ↦ (h.bind fun value ↦
      (looksAhead_ok (map key value)).afterDelimiter '>').afterDelimiter ','

/-- **The reader of types looks one character ahead.** -/
theorem looksAhead_readType (levels : Nat) : LooksAhead (readType levels) := by
  induction levels with
  | zero => exact fun s ↦ ⟨[], s, .error .tooDeep, rfl, fun _ _ ↦ rfl⟩
  | succ levels ih =>
    rw [funext (readType_succ levels)]
    exact looksAhead_readName.bind fun base ↦ (ih.readArguments base).afterBracket base

/-! ### What has been passed can be completed -/

/-- A name is missed behind spaces. -/
theorem exists_blank_of_readName_placed (h : readName s = .error (fault, rest))
    (hplaced : fault.Placed) : ∃ before, Blank before ∧ s = before ++ rest := by
  obtain ⟨before, hbefore, hs⟩ := exists_blank_append s
  simp only [readName] at h
  split at h
  case isTrue =>
    cases h
    exact ⟨before, hbefore, hs⟩
  case isFalse =>
    split at h
    case h_1 => cases h
    case h_2 =>
      cases h
      exact hplaced.elim

/-- A delimiter is missed behind spaces. -/
theorem exists_blank_of_readDelimiter_error {wanted : Char}
    (h : readDelimiter wanted s = .error (fault, rest)) :
    ∃ before, Blank before ∧ s = before ++ rest := by
  obtain ⟨before, hbefore, hs⟩ := exists_blank_append s
  rw [readDelimiter] at h
  refine ⟨before, hbefore, ?_⟩
  split at h
  case h_1 hskip =>
    cases h
    rwa [hskip] at hs
  case h_2 hskip =>
    split at h
    case isTrue => cases h
    case isFalse =>
      cases h
      rwa [hskip] at hs

/-- A type and the delimiter behind it stop within the type or at the delimiter, if they stop. In
either case what they have passed can be completed. -/
theorem goesOn_or_exists_of_readType {wanted : Char}
    (next : AbiType → List Char → Except ReadFault β) (hlevel : level + levels = maxDepth + 1)
    (hwithin : readType levels s = .error (fault, rest) →
      ∃ used, s = used ++ rest ∧ GoesOn level used [])
    (h : (readType levels s >>= fun p ↦ readDelimiter wanted p.2 >>= next p.1) =
      .error (fault, rest)) :
    (∃ used, s = used ++ rest ∧ GoesOn level used []) ∨
      ∃ type used after, s = used ++ wanted :: after ∧ Derives level used type ∧
        next type after = .error (fault, rest) := by
  rcases error_or_exists_of_bind_eq_error h with hread | ⟨⟨type, left⟩, hread, hbody⟩
  · exact .inl (hwithin hread)
  obtain ⟨used, rfl, hused⟩ := exists_derives_of_readType hlevel hread
  rcases error_or_exists_of_bind_eq_error hbody with hmissed | ⟨after, hfound, hnext⟩
  · obtain ⟨blank, hblank, rfl⟩ := exists_blank_of_readDelimiter_error hmissed
    exact .inl ⟨used ++ blank, (List.append_assoc ..).symm,
      (hused.append_blank hblank).goesOn⟩
  · obtain ⟨blank, hblank, rfl⟩ := exists_blank_of_readDelimiter hfound
    exact .inr ⟨type, used ++ blank, after, (List.append_assoc ..).symm,
      hused.append_blank hblank, hnext⟩

/-- **What the reader has passed when it stops at a place can be completed.** -/
theorem exists_goesOn_of_readType (hlevel : level + levels = maxDepth + 1)
    (h : readType levels s = .error (fault, rest)) (hplaced : fault.Placed) :
    ∃ used, s = used ++ rest ∧ GoesOn level used [] := by
  induction levels generalizing level s with
  | zero =>
    cases h
    exact hplaced.elim
  | succ levels ih =>
    have hle : level ≤ maxDepth := by omega
    have hdeeper : level + 1 + levels = maxDepth + 1 := by omega
    have hread := readsOn levels s
    rw [h] at hread
    cases hread with
    | noName hname =>
      obtain ⟨before, hbefore, hs⟩ := exists_blank_of_readName_placed hname hplaced
      exact ⟨before, hs, (GoesOn.blank hle hbefore).nil⟩
    | @bracket _ _ _ _ base _ hbefore hword hbetween hresult =>
      cases base with
      | scalar =>
        cases hresult
        exact hplaced.elim
      | array =>
        rcases goesOn_or_exists_of_readType (fun element rest ↦ .ok (array element, rest))
          hdeeper (ih hdeeper) hresult with ⟨used, rfl, hused⟩ | ⟨_, _, _, -, -, hdone⟩
        · refine ⟨_, ?_, .array hle hbefore (sameLetters_of_names_array hword) hbetween hused⟩
          simp only [List.append_assoc, List.cons_append]
        · cases hdone
      | map =>
        have hmap := sameLetters_of_names_map hword
        rcases goesOn_or_exists_of_readType
          (fun key rest ↦ readType levels rest >>= fun p ↦ readDelimiter '>' p.2 >>= fun rest ↦
            .ok (map key p.1, rest))
          hdeeper (ih hdeeper) hresult with
          ⟨used, rfl, hused⟩ | ⟨key, first, second, rfl, hfirst, hresult⟩
        · refine ⟨_, ?_, .key hle hbefore hmap hbetween hused⟩
          simp only [List.append_assoc, List.cons_append]
        rcases goesOn_or_exists_of_readType (fun value rest ↦ .ok (map key value, rest))
          hdeeper (ih hdeeper) hresult with ⟨used, rfl, hused⟩ | ⟨_, _, _, -, -, hdone⟩
        · refine ⟨_, ?_, .value hle hbefore hmap hbetween hfirst hused⟩
          simp only [List.append_assoc, List.cons_append]
        · cases hdone

/-! ### Whole descriptors -/

/-- The end of the text behind a type. -/
def readEnd (type : AbiType) (s : List Char) : Except ReadFault (AbiType × List Char) :=
  match Text.skipSpaces s with
  | [] => .ok (type, [])
  | extra => .error (.trailingText, extra)

/-- A type and the end of the text. -/
def readWhole (s : List Char) : Except ReadFault (AbiType × List Char) :=
  readType maxDepth s >>= fun p ↦ readEnd p.1 p.2

/-- The outermost reader turns the text that is left into an offset. -/
theorem ofChars_eq (s : List Char) :
    ofChars s = match readWhole s with
      | .ok (type, _) => .ok type
      | .error (fault, rest) => .error ⟨fault, Text.byteLength s - Text.byteLength rest⟩ := by
  rw [ofChars, readWhole]
  cases readType maxDepth s with
  | error e => rfl
  | ok p =>
    obtain ⟨type, rest⟩ := p
    dsimp only [bind, Except.bind]
    rw [readEnd]
    cases Text.skipSpaces rest <;> rfl

theorem looksAhead_readEnd (type : AbiType) : LooksAhead (readEnd type) := by
  intro s
  obtain ⟨before, start, rfl, -, hskip⟩ := exists_skipSpaces s
  cases start with
  | nil =>
    refine ⟨before, [], .ok type, rfl, fun other hother ↦ ?_⟩
    rw [readEnd, hskip other hother, List.head?_eq_none_iff.1 hother]
    rfl
  | cons c start =>
    refine ⟨before, c :: start, .error .trailingText, rfl, fun other hother ↦ ?_⟩
    obtain ⟨start', rfl⟩ := List.head?_eq_some_iff.1 hother
    rw [readEnd, hskip (c :: start') rfl]
    rfl

theorem looksAhead_readWhole : LooksAhead readWhole :=
  (looksAhead_readType maxDepth).bind looksAhead_readEnd

theorem exists_goesOn_of_readWhole (h : readWhole s = .error (fault, rest))
    (hplaced : fault.Placed) : ∃ used, s = used ++ rest ∧ GoesOn 1 used [] := by
  have hlevel : 1 + maxDepth = maxDepth + 1 := Nat.add_comm 1 maxDepth
  rcases error_or_exists_of_bind_eq_error h with hread | ⟨⟨type, left⟩, hread, hend⟩
  · exact exists_goesOn_of_readType hlevel hread hplaced
  · obtain ⟨used, rfl, hused⟩ := exists_derives_of_readType hlevel hread
    obtain ⟨blank, hblank, hleft⟩ := exists_blank_append left
    rw [readEnd] at hend
    split at hend
    case h_1 => cases hend
    case h_2 =>
      cases hend
      refine ⟨used ++ blank, ?_, (hused.append_blank hblank).goesOn⟩
      rw [List.append_assoc, ← hleft]

/-- **A fault is reported at the first place where the text cannot go on.** The place is one between
characters of the text or its end. The text before it is the beginning of an accepted descriptor;
followed by the character that stands there, it is the beginning of none. -/
theorem parse_stops_at_first_impossible {text : String} {e : DescriptorError}
    (h : parse text = .error e) (hplaced : e.fault.Placed) :
    (∃ what found, e.message = what ++ " at offset " ++ toString e.offset ++ found) ∧
    ∃ before after : String, text = before ++ after ∧ before.utf8ByteSize = e.offset ∧
      (∃ rest type, parse (before ++ rest) = .ok type) ∧
      ∀ c tail, after.toList = c :: tail →
        ∀ rest type, parse (before ++ String.ofList (c :: rest)) ≠ .ok type := by
  refine ⟨DescriptorError.exists_message_eq hplaced, ?_⟩
  obtain ⟨used, rest, result, hs, hsame⟩ := looksAhead_readWhole text.toList
  have hread : readWhole text.toList = give result rest := by rw [hs, hsame rest rfl]
  rw [parse, ofChars_eq, hread] at h
  cases result with
  | ok type => cases h
  | error fault =>
    cases h
    obtain ⟨used', hs', hgoesOn⟩ := exists_goesOn_of_readWhole hread hplaced
    obtain rfl : used' = used := List.append_cancel_right (hs'.symm.trans hs)
    refine ⟨String.ofList used', String.ofList rest, ?_, ?_, ?_, fun c tail hafter more type ↦ ?_⟩
    · rw [← String.ofList_append, ← hs, String.ofList_toList]
    · rw [Text.utf8ByteSize_ofList, hs, Text.byteLength_append]
      exact (Nat.add_sub_cancel ..).symm
    · obtain ⟨more, type, hderives⟩ := hgoesOn
      refine ⟨String.ofList more, type, ?_⟩
      rw [parse, ← String.ofList_append, String.toList_ofList]
      exact ofChars_of_derives hderives
    · obtain rfl : rest = c :: tail := by rwa [String.toList_ofList] at hafter
      rw [parse, ← String.ofList_append, String.toList_ofList, ofChars_eq,
        hsame (c :: more) rfl]
      nofun

/-- A character of two bytes behind a space of three, where the type of the values has to begin. -/
theorem parse_stops_behind_wideSpace :
    parse "Map<String,\u3000é>" = .error ⟨.nameExpected, 14⟩ ∧
    DescriptorFault.nameExpected.Placed ∧
    ∃ before after : String, "Map<String,\u3000é>" = before ++ after ∧ before.utf8ByteSize = 14 ∧
      (∃ rest type, parse (before ++ rest) = .ok type) ∧
      ∀ c tail, after.toList = c :: tail →
        ∀ rest type, parse (before ++ String.ofList (c :: rest)) ≠ .ok type := by
  have h : parse "Map<String,\u3000é>" = .error ⟨.nameExpected, 14⟩ := by decide +kernel
  exact ⟨h, trivial, (parse_stops_at_first_impossible h trivial).2⟩

end AbiType

end ContractBindings
