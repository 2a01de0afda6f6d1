import ContractBindings.Proofs.Json.Integers
import ContractBindings.Proofs.Json.Tree
import ContractBindings.Proofs.Members

/-!
# Values and their texts

What is written for a value that was read is read as that value again, if its numbers are integers
(`parse_text`), the zero with a minus among them (`parse_text_of_formed`). A value that was read is
*formed*: it has no more levels than the reader opens, and its members are in order
(`formed_of_readValue`). Both directions go by induction on the levels, and inside of it the readers
of containers are taken as they are for any reader of contents.

Writing does not ask for members in order; of those that are not, the reader gives the ordered form
(`readsTo_object`).
-/

namespace ContractBindings.Json

/-! ### Values -/

/-- Values all of whose numbers are integers of 64 bits, with or without a sign. -/
inductive Integral : Json → Prop where
  | null : Integral .null
  | bool (b : Bool) : Integral (.bool b)
  | integer {n : Int} (h : InRange n) : Integral (.number (.integer n))
  | string (s : String) : Integral (.string s)
  | array {elements : List Json} (h : ∀ e ∈ elements, Integral e) : Integral (.array elements)
  | object {members : List (String × Json)} (h : ∀ m ∈ members, Integral m.2) :
    Integral (.object members)

/-- The numbers that are read from integers of 64 bits. One of them, zero behind a minus, is not
kept as an integer. -/
inductive Number.Whole : Number → Prop where
  | integer {n : Int} (h : InRange n) : Number.Whole (.integer n)
  | minusZero : Number.Whole .minusZero

/-- Values all of whose numbers are read from integers of 64 bits, with or without a sign. -/
inductive Whole : Json → Prop where
  | null : Whole .null
  | bool (b : Bool) : Whole (.bool b)
  | number {n : Number} (h : n.Whole) : Whole (.number n)
  | string (s : String) : Whole (.string s)
  | array {elements : List Json} (h : ∀ e ∈ elements, Whole e) : Whole (.array elements)
  | object {members : List (String × Json)} (h : ∀ m ∈ members, Whole m.2) :
    Whole (.object members)

theorem Integral.whole {v : Json} (h : Integral v) : Whole v := by
  induction h with
  | null => exact .null
  | bool b => exact .bool b
  | integer h => exact .number (.integer h)
  | string s => exact .string s
  | array _ ih => exact .array ih
  | object _ ih => exact .object ih

/-- Values with members in order and no more than the given number of containers in each other. -/
def Formed : (levels : Nat) → Json → Prop
  | 0, array _ => False
  | 0, object _ => False
  | levels + 1, array elements => ∀ e ∈ elements, Formed levels e
  | levels + 1, object members => Members.Ascending members ∧ ∀ m ∈ members, Formed levels m.2
  | _, _ => True

variable {levels : Nat} {v : Json} {rest : List Char}

theorem Formed.succ (h : Formed levels v) : Formed (levels + 1) v := by
  induction levels generalizing v with
  | zero =>
    cases v with
    | array => exact h.elim
    | object => exact h.elim
    | _ => exact trivial
  | succ levels ih =>
    cases v with
    | array elements => exact fun e he ↦ ih (h e he)
    | object members => exact ⟨h.1, fun m hm ↦ ih (h.2 m hm)⟩
    | _ => exact trivial

theorem Formed.mono {greater : Nat} (h : Formed levels v) (hle : levels ≤ greater) :
    Formed greater v :=
  Nat.le_induction h (fun _ _ ↦ Formed.succ) greater hle

/-! ### What is read is formed -/

theorem formed_of_readScalar {c : Char} {t : List Char} (h : ReadsTo (readScalar c t) v rest) :
    Formed levels v := by
  cases scalar_of_readsTo h with
  | null => cases levels <;> exact trivial
  | true => cases levels <;> exact trivial
  | false => cases levels <;> exact trivial
  | string => cases levels <;> exact trivial
  | number => cases levels <;> exact trivial

/-- **A value that is read is formed.** -/
theorem formed_of_readValue {s : List Char} {r : Read Json s}
    (h : readValue levels s = .ok r) : Formed levels r.value := by
  rw [← readWith_ofMembers] at h
  induction levels generalizing s with
  | zero =>
    generalize hvalue : r.value = v, hrest : r.rest = rest
    cases readsTo_with_iff.1 ⟨r, h, hvalue, hrest⟩ with
    | scalar _ _ _ hscalar => exact formed_of_readScalar hscalar
  | succ levels ih =>
    generalize hvalue : r.value = v, hrest : r.rest = rest
    cases readsTo_with_iff.1 ⟨r, h, hvalue, hrest⟩ with
    | scalar _ _ _ hscalar => exact formed_of_readScalar hscalar
    | array _ helements =>
      obtain ⟨elements, helements, rfl, -⟩ := helements
      exact forall_of_readArray (fun _ _ ↦ ih) helements
    | object _ hmembers =>
      obtain ⟨members, hmembers, rfl, -⟩ := hmembers
      have hall := forall_of_readObject (P := Formed levels) (fun _ _ ↦ ih) hmembers
      exact ⟨Members.ascending_ofList _, fun m hm ↦ hall m (Members.mem_of_mem_ofList hm)⟩

theorem formed_of_parse {text : String} (h : parse text = .ok v) : Formed greatestDepth v := by
  obtain ⟨_, ⟨r, hr, rfl, -⟩, -⟩ := parse_eq_ok_iff.1 h
  exact formed_of_readValue hr

/-! ### What is written is read back -/

/-- A text that begins a value: neither with a blank nor with the end of an array. -/
def Begins (s : List Char) : Prop :=
  ∃ c t, s = c :: t ∧ isBlank c = false ∧ c ≠ ']'

/-- A reader reads a value back from its text, whatever follows that. -/
def ReadsBack (element : ValueReader Json) (v : Json) : Prop :=
  Begins v.text.toList ∧
    ∀ rest, Follows rest → ReadsTo (element (v.text.toList ++ rest)) v rest

section Begins

variable {s : List Char}

theorem Begins.append (h : Begins s) (t : List Char) : Begins (s ++ t) := by
  obtain ⟨c, u, rfl, hc⟩ := h
  exact ⟨c, u ++ t, rfl, hc⟩

theorem Begins.skipBlanks_eq (h : Begins s) : skipBlanks s = s := by
  obtain ⟨c, t, rfl, hblank, -⟩ := h
  exact skipBlanks_cons hblank t

theorem Begins.skipBlanks_ne_nil (h : Begins s) : skipBlanks s ≠ [] := by
  rw [h.skipBlanks_eq]
  obtain ⟨c, t, rfl, -⟩ := h
  exact List.cons_ne_nil c t

theorem Begins.skipBlanks_ne_end (h : Begins s) (t : List Char) : skipBlanks s ≠ ']' :: t := by
  rw [h.skipBlanks_eq]
  obtain ⟨c, u, rfl, -, hne⟩ := h
  exact fun heq ↦ hne (List.cons.inj heq).1

end Begins

variable {element : ValueReader Json}

theorem begins_elementsText {elements : List Json} (hne : elements ≠ [])
    (h : ∀ e ∈ elements, ReadsBack element e) : Begins (elementsText elements).toList := by
  rcases elements with _ | ⟨e, _ | ⟨next, others⟩⟩
  · exact absurd rfl hne
  · exact (h e List.mem_cons_self).1
  · rw [elementsText, String.toList_append, String.toList_append, List.append_assoc]
    · exact (h e List.mem_cons_self).1.append _
    · exact List.cons_ne_nil _ _

theorem elements_elementsText {elements : List Json} (hne : elements ≠ [])
    (h : ∀ e ∈ elements, ReadsBack element e) (rest : List Char) :
    Elements element ((elementsText elements).toList ++ ']' :: rest) elements rest := by
  induction elements with
  | nil => exact absurd rfl hne
  | cons e elements ih =>
    obtain ⟨he, helements⟩ := List.forall_mem_cons.1 h
    rcases elements with _ | ⟨next, others⟩
    · exact .last (he.2 _ (.cons (by decide) rest)) (skipBlanks_cons rfl rest)
    · have htail := ih (List.cons_ne_nil _ _) helements
      have hbegins := (begins_elementsText (List.cons_ne_nil _ _) helements).append (']' :: rest)
      have htext : (elementsText (e :: next :: others)).toList ++ ']' :: rest =
          e.text.toList ++ ',' :: ((elementsText (next :: others)).toList ++ ']' :: rest) := by
        rw [elementsText, String.toList_append, String.toList_append]
        · simp only [List.append_assoc]
          rfl
        · exact List.cons_ne_nil _ _
      rw [← hbegins.skipBlanks_eq] at htail
      rw [htext]
      exact .next (he.2 _ (.cons (by decide) _)) (skipBlanks_cons rfl _)
        hbegins.skipBlanks_ne_nil hbegins.skipBlanks_ne_end htail

theorem readsTo_array {elements : List Json} (h : ∀ e ∈ elements, ReadsBack (readValue levels) e)
    (rest : List Char) :
    ReadsTo (readValue (levels + 1) ((array elements).text.toList ++ rest)) (array elements)
      rest := by
  have htext : (array elements).text.toList ++ rest =
      '[' :: ((elementsText elements).toList ++ ']' :: rest) := by
    rw [text, String.toList_append, String.toList_append, List.append_assoc, List.append_assoc]
    rfl
  rw [htext, ← readWith_ofMembers]
  rw [← readWith_ofMembers] at h
  refine readsTo_with_iff.2 (.array (skipBlanks_cons rfl _) (readsTo_array_iff.2 ?_))
  rcases elements with _ | ⟨e, elements⟩
  · exact .inl ⟨rfl, skipBlanks_cons rfl rest⟩
  · have helements := elements_elementsText (List.cons_ne_nil _ _) h rest
    have hbegins := (begins_elementsText (List.cons_ne_nil _ _) h).append (']' :: rest)
    rw [← hbegins.skipBlanks_eq] at helements
    exact .inr ⟨hbegins.skipBlanks_ne_nil, hbegins.skipBlanks_ne_end, helements⟩

theorem entries_membersText {members : List (String × Json)} (hne : members ≠ [])
    (h : ∀ m ∈ members, ReadsBack element m.2) (rest : List Char) :
    ∃ t, (membersText members).toList ++ '\x7d' :: rest = '"' :: t ∧
      Entries element t members rest := by
  induction members with
  | nil => exact absurd rfl hne
  | cons m members ih =>
    obtain ⟨name, value⟩ := m
    obtain ⟨hm, hmembers⟩ := List.forall_mem_cons.1 h
    rcases members with _ | ⟨next, others⟩
    · obtain ⟨t, heq, hname⟩ :=
        exists_stringLiteral name (':' :: (value.text.toList ++ '\x7d' :: rest))
      refine ⟨t, ?_, ?_⟩
      · rw [← heq, membersText]
        simp only [String.toList_append, List.append_assoc]
        rfl
      · exact .last (readsTo_member_iff.2 ⟨_, _, hname, skipBlanks_cons rfl _,
          hm.2 _ (.cons (by decide) rest)⟩) (skipBlanks_cons rfl rest)
    · obtain ⟨u, hu, htail⟩ := ih (List.cons_ne_nil _ _) hmembers
      obtain ⟨t, heq, hname⟩ :=
        exists_stringLiteral name (':' :: (value.text.toList ++ ',' :: '"' :: u))
      refine ⟨t, ?_, ?_⟩
      · rw [← heq, ← hu, membersText]
        · simp only [String.toList_append, List.append_assoc]
          rfl
        · exact List.cons_ne_nil _ _
      · exact .next (readsTo_member_iff.2 ⟨_, _, hname, skipBlanks_cons rfl _,
          hm.2 _ (.cons (by decide) _)⟩) (skipBlanks_cons rfl _) (skipBlanks_cons rfl u) htail

/-- **Members in any order are read as the object that has them in order.** -/
theorem readsTo_object {members : List (String × Json)}
    (h : ∀ m ∈ members, ReadsBack (readValue levels) m.2) (rest : List Char) :
    ReadsTo (readValue (levels + 1) ((object members).text.toList ++ rest)) (ofMembers members)
      rest := by
  have htext : (object members).text.toList ++ rest =
      '\x7b' :: ((membersText members).toList ++ '\x7d' :: rest) := by
    rw [text, String.toList_append, String.toList_append, List.append_assoc, List.append_assoc]
    rfl
  rw [htext, ← readWith_ofMembers]
  rw [← readWith_ofMembers] at h
  refine readsTo_with_iff.2 (.object (skipBlanks_cons rfl _) (readsTo_object_iff.2 ?_))
  rcases members with _ | ⟨m, members⟩
  · exact .inl ⟨rfl, skipBlanks_cons rfl rest⟩
  · obtain ⟨t, heq, hread⟩ := entries_membersText (List.cons_ne_nil _ _) h rest
    rw [heq]
    exact .inr ⟨t, skipBlanks_cons rfl t, hread⟩

/-! ### Values are read back -/

theorem readsBack_null (levels : Nat) : ReadsBack (readValue levels) null :=
  ⟨⟨'n', ['u', 'l', 'l'], rfl, rfl, by decide⟩, fun _ _ ↦
    readsTo_readValue levels rfl (by decide) (by decide) ⟨_, rfl, rfl, rfl⟩⟩

theorem readsBack_bool (levels : Nat) (b : Bool) : ReadsBack (readValue levels) (bool b) :=
  match b with
  | true => ⟨⟨'t', ['r', 'u', 'e'], rfl, rfl, by decide⟩, fun _ _ ↦
    readsTo_readValue levels rfl (by decide) (by decide) ⟨_, rfl, rfl, rfl⟩⟩
  | false => ⟨⟨'f', ['a', 'l', 's', 'e'], rfl, rfl, by decide⟩, fun _ _ ↦
    readsTo_readValue levels rfl (by decide) (by decide) ⟨_, rfl, rfl, rfl⟩⟩

theorem readsBack_string (levels : Nat) (s : String) : ReadsBack (readValue levels) (string s) := by
  refine ⟨?_, fun rest _ ↦ ?_⟩
  · obtain ⟨t, heq, -⟩ := exists_stringLiteral s []
    exact ⟨'"', t, (List.append_nil _).symm.trans heq, rfl, by decide⟩
  · obtain ⟨t, heq, hread⟩ := exists_stringLiteral s rest
    rw [text, heq]
    exact readsTo_string levels hread

theorem readsBack_integer (levels : Nat) {n : Int} (hn : InRange n) :
    ReadsBack (readValue levels) (number (.integer n)) := by
  obtain ⟨c, t, heq, hc⟩ := exists_integerText n
  refine ⟨⟨c, t, heq, hc.isBlank, hc.ne (by decide) rfl⟩, fun rest hrest ↦ ?_⟩
  exact readsTo_integer levels hn hrest

theorem readsBack_minusZero (levels : Nat) : ReadsBack (readValue levels) (number .minusZero) := by
  have hstart : Number.minusZero.text.toList = '-' :: ['0', '.', '0'] :=
    (List.append_nil _).symm.trans (toList_minusZeroText [])
  exact ⟨⟨'-', _, hstart, rfl, by decide⟩, fun rest ↦ readsTo_minusZero levels⟩

/-- **A formed value is read back from its text**, if its numbers are whole. -/
theorem readsBack_of_whole (hformed : Formed levels v) (hwhole : Whole v) :
    ReadsBack (readValue levels) v := by
  -- On the value, since the levels of its contents are those of its own level but one.
  induction hwhole generalizing levels with
  | null => exact readsBack_null levels
  | bool b => exact readsBack_bool levels b
  | number h =>
    cases h with
    | integer hn => exact readsBack_integer levels hn
    | minusZero => exact readsBack_minusZero levels
  | string s => exact readsBack_string levels s
  | array _ ih =>
    rcases levels with _ | levels
    · exact hformed.elim
    · refine ⟨?_, fun rest _ ↦ readsTo_array (fun e he ↦ ih e he (hformed e he)) rest⟩
      rw [text, String.toList_append, String.toList_append, List.append_assoc]
      exact ⟨'[', _, rfl, rfl, by decide⟩
  | @object members _ ih =>
    rcases levels with _ | levels
    · exact hformed.elim
    · have hread := readsTo_object fun m hm ↦ ih m hm (hformed.2 m hm)
      rw [ofMembers, Members.ofList_of_ascending hformed.1] at hread
      refine ⟨?_, fun rest _ ↦ hread rest⟩
      rw [text, String.toList_append, String.toList_append, List.append_assoc]
      exact ⟨'\x7b', _, rfl, rfl, by decide⟩

theorem readsBack_of_formed (hformed : Formed levels v) (hintegral : Integral v) :
    ReadsBack (readValue levels) v :=
  readsBack_of_whole hformed hintegral.whole

/-- **What is written for a formed value is read as that value**, if its numbers are whole. -/
theorem parse_text_of_formed (hformed : Formed levels v) (hlevels : levels ≤ greatestDepth)
    (hwhole : Whole v) : parse v.text = .ok v := by
  have hread := (readsBack_of_whole (hformed.mono hlevels) hwhole).2 [] .nil
  rw [List.append_nil] at hread
  exact parse_eq_ok hread

/-- **What is written for a value that was read is read as that value again**, if its numbers are
integers. -/
theorem parse_text {source : String} (h : parse source = .ok v) (hintegral : Integral v) :
    parse v.text = .ok v :=
  parse_text_of_formed (formed_of_parse h) (Nat.le_refl _) hintegral.whole

end ContractBindings.Json
