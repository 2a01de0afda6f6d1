import ContractBindings.Identifier.Resolve
import ContractBindings.Proofs.Text.Alphabet
import ContractBindings.Proofs.Text.Letters

/-!
# Usable identifiers

An identifier is usable for a kind when it is spelled like one and is not reserved for the kind.
Every name of a manifest gives a usable one (`usable_derive`), and so does every name that the user
is allowed to choose (`usable_of_resolve`).

What is appended to a usable name leaves it usable under two conditions that are easy to see: its
characters may stand in an identifier, and one of them is an underscore or a capital `W`
(`Usable.append`). No reserved name of any kind holds either, which is decided once
(`isReserved_eq_false_of_mem`); suffixes that are made from type names and numbers all satisfy it.
-/

namespace ContractBindings.Identifier

open Text (Over)

/-! ### Spelling -/

variable {c : Char} {s : List Char} {name tail : String} {kind : Kind}

theorem isPart_of_isAlphanum (h : c.isAlphanum = true) : isPart c = true := by
  simp [isPart, h]

theorem isPart_of_isStart (h : isStart c = true) : isPart c = true := by
  simp only [isStart, isPart, Bool.or_eq_true] at h ⊢
  rcases h with (h | h) | h
  · exact .inl (.inl (by simp [Char.isAlphanum, h]))
  · exact .inl (.inr h)
  · exact .inr h

/-- A letter or digit that is no digit may start an identifier. -/
theorem isStart_of_isAlphanum (h : c.isAlphanum = true) (hd : ¬ c.isDigit = true) :
    isStart c = true := by
  simp only [Char.isAlphanum, Bool.or_eq_true] at h
  rcases h with h | h
  · simp [isStart, h]
  · exact absurd h hd

theorem isLegalChars_cons (hc : isStart c = true) (hs : ∀ d ∈ s, isPart d = true) :
    isLegalChars (c :: s) = true := by
  rw [isLegalChars, hc, Bool.true_and]
  exact List.all_eq_true.2 hs

/-- The shape of a legal name: one character that may start it, and others that may follow. -/
theorem exists_cons_of_isLegalChars (h : isLegalChars s = true) :
    ∃ c rest, s = c :: rest ∧ isStart c = true ∧ ∀ d ∈ rest, isPart d = true := by
  cases s with
  | nil => exact absurd h (by simp [isLegalChars])
  | cons c rest =>
    rw [isLegalChars, Bool.and_eq_true] at h
    exact ⟨c, rest, rfl, h.1, List.all_eq_true.1 h.2⟩

theorem over_of_isLegal (h : isLegal name = true) : Over isPart name := by
  obtain ⟨c, rest, heq, hc, hrest⟩ := exists_cons_of_isLegalChars h
  intro d hd
  rw [heq] at hd
  rcases List.mem_cons.1 hd with rfl | hd
  · exact isPart_of_isStart hc
  · exact hrest d hd

theorem isLegal_append (h : isLegal name = true) (ht : Over isPart tail) :
    isLegal (name ++ tail) = true := by
  obtain ⟨c, rest, heq, hc, hrest⟩ := exists_cons_of_isLegalChars h
  rw [isLegal, String.toList_append, heq, List.cons_append]
  refine isLegalChars_cons hc fun d hd ↦ ?_
  rcases List.mem_append.1 hd with hd | hd
  · exact hrest d hd
  · exact ht d hd

/-! ### Words and their joins -/

theorem isAlphanum_of_mem_flush {word w : List Char} (hword : ∀ c ∈ word, c.isAlphanum = true)
    (hw : w ∈ flush word) : ∀ c ∈ w, c.isAlphanum = true := by
  cases word with
  | nil => exact absurd hw List.not_mem_nil
  | cons d word =>
    obtain rfl : w = (d :: word).reverse := List.mem_singleton.1 hw
    exact fun c hc ↦ hword c (List.mem_reverse.1 hc)

/-- Words hold letters and digits only, if what has been read of the first one does. -/
theorem isAlphanum_of_mem_wordsFrom {word rest w : List Char}
    (hword : ∀ c ∈ word, c.isAlphanum = true) (hw : w ∈ wordsFrom word rest) :
    ∀ c ∈ w, c.isAlphanum = true := by
  -- A word is flushed at the end, at a separator and at a change of case; else it grows.
  fun_induction wordsFrom word rest with
  | case1 word => exact isAlphanum_of_mem_flush hword hw
  | case2 word c rest hc ih =>
    rcases List.mem_append.1 hw with hw | hw
    · exact isAlphanum_of_mem_flush hword hw
    · exact ih (by simp) hw
  | case3 c rest hc previous word hends ih =>
    rcases List.mem_append.1 hw with hw | hw
    · exact isAlphanum_of_mem_flush hword hw
    · exact ih (by simpa using hc) hw
  | case4 c rest hc previous word hends ih =>
    refine ih (fun d hd ↦ ?_) hw
    rcases List.mem_cons.1 hd with rfl | hd
    · simpa using hc
    · exact hword d hd
  | case5 c rest hc ih => exact ih (by simpa using hc) hw

/-- Words have characters. -/
theorem ne_nil_of_mem_wordsFrom {word rest w : List Char} (hw : w ∈ wordsFrom word rest) :
    w ≠ [] := by
  have hflush : ∀ {word : List Char}, w ∈ flush word → w ≠ [] := by
    intro word hw
    cases word with
    | nil => exact absurd hw List.not_mem_nil
    | cons d word =>
      obtain rfl : w = (d :: word).reverse := List.mem_singleton.1 hw
      simp
  fun_induction wordsFrom word rest with
  | case1 word => exact hflush hw
  | case2 word c rest hc ih => exact (List.mem_append.1 hw).elim hflush ih
  | case3 c rest hc previous word hends ih => exact (List.mem_append.1 hw).elim hflush ih
  | case4 c rest hc previous word hends ih => exact ih hw
  | case5 c rest hc ih => exact ih hw

theorem isAlphanum_capitalize (h : ∀ c ∈ s, c.isAlphanum = true) :
    ∀ c ∈ capitalize s, c.isAlphanum = true := by
  cases s with
  | nil => exact h
  | cons d rest =>
    intro c hc
    rcases List.mem_cons.1 hc with rfl | hc
    · exact Text.isAlphanum_toUpper (h d List.mem_cons_self)
    · exact h c (List.mem_cons_of_mem _ hc)

theorem isAlphanum_pascalCase {words : List (List Char)}
    (h : ∀ w ∈ words, ∀ c ∈ w, c.isAlphanum = true) :
    ∀ c ∈ pascalCase words, c.isAlphanum = true := by
  intro c hc
  obtain ⟨w, hw, hcw⟩ := List.mem_flatMap.1 hc
  exact isAlphanum_capitalize (h w hw) c hcw

theorem isAlphanum_camelCase {words : List (List Char)}
    (h : ∀ w ∈ words, ∀ c ∈ w, c.isAlphanum = true) :
    ∀ c ∈ camelCase words, c.isAlphanum = true := by
  cases words with
  | nil => exact fun c hc ↦ absurd hc List.not_mem_nil
  | cons first rest =>
    intro c hc
    rcases List.mem_append.1 hc with hc | hc
    · obtain ⟨d, hd, rfl⟩ := List.mem_map.1 hc
      exact Text.isAlphanum_toLower (h first List.mem_cons_self d hd)
    · exact isAlphanum_pascalCase (fun w hw ↦ h w (List.mem_cons_of_mem _ hw)) c hc

/-- Joined in the case of any kind, the words of a name are letters and digits. -/
theorem isAlphanum_join (kind : Kind) (raw : List Char) :
    ∀ c ∈ kind.join (splitWords raw), c.isAlphanum = true := by
  have hwords : ∀ w ∈ splitWords raw, ∀ c ∈ w, c.isAlphanum = true :=
    fun w hw ↦ isAlphanum_of_mem_wordsFrom (by simp) hw
  cases kind with
  | contract => exact isAlphanum_pascalCase hwords
  | method => exact isAlphanum_camelCase hwords
  | parameter position => exact isAlphanum_camelCase hwords

/-! ### Legal names -/

theorem isLegalChars_guardDigit (hne : s ≠ []) (h : ∀ c ∈ s, c.isAlphanum = true) :
    isLegalChars (guardDigit s) = true := by
  cases s with
  | nil => exact absurd rfl hne
  | cons c rest =>
    have hpart : ∀ d ∈ c :: rest, isPart d = true := fun d hd ↦ isPart_of_isAlphanum (h d hd)
    rw [guardDigit]
    split
    case isTrue hc => exact isLegalChars_cons (by decide) hpart
    case isFalse hc =>
      refine isLegalChars_cons (isStart_of_isAlphanum (h c List.mem_cons_self) hc) ?_
      exact fun d hd ↦ hpart d (List.mem_cons_of_mem _ hd)

/-- Numbers are written in digits. -/
theorem over_isDigit_toString (n : Nat) : Over Char.isDigit (toString n) := by
  intro c hc
  rw [Nat.toString_eq_ofList_toDigits, String.toList_ofList] at hc
  exact Nat.isDigit_of_mem_toDigits (by decide) (by decide) hc

theorem over_toString_nat (n : Nat) : Over isPart (toString n) :=
  (over_isDigit_toString n).mono fun _ hc ↦
    isPart_of_isAlphanum (Text.isAlphanum_iff.2 (.inr (.inr hc)))

theorem isLegal_standIn (kind : Kind) : isLegal kind.standIn = true := by
  cases kind with
  | contract => decide
  | method => decide
  | parameter position => exact isLegal_append (by decide) (over_toString_nat position)

theorem isLegal_spell (kind : Kind) (raw : String) : isLegal (spell kind raw) = true := by
  rw [spell]
  split
  case h_1 => exact isLegal_standIn kind
  case h_2 hjoined =>
    rw [isLegal, String.toList_ofList]
    exact isLegalChars_guardDigit hjoined (isAlphanum_join kind raw.toList)

/-! ### Names that begin with no capital -/

/-- A text whose first character is no capital. -/
def BeginsSmall (s : List Char) : Prop :=
  ∃ c rest, s = c :: rest ∧ c.isUpper = false

theorem BeginsSmall.append (h : BeginsSmall s) (t : List Char) : BeginsSmall (s ++ t) := by
  obtain ⟨c, rest, rfl, hc⟩ := h
  exact ⟨c, rest ++ t, rfl, hc⟩

/-- In camel case the first word has no capitals. -/
theorem beginsSmall_camelCase {words : List (List Char)} (hwords : ∀ w ∈ words, w ≠ [])
    (hne : words ≠ []) : BeginsSmall (camelCase words) := by
  obtain ⟨first, rest, rfl⟩ := List.exists_cons_of_ne_nil hne
  obtain ⟨c, word, rfl⟩ := List.exists_cons_of_ne_nil (hwords first List.mem_cons_self)
  exact ⟨c.toLower, word.map Char.toLower ++ pascalCase rest, rfl,
    Bool.eq_false_iff.2 (Text.not_isUpper_toLower c)⟩

theorem beginsSmall_spell_parameter (position : Nat) (raw : String) :
    BeginsSmall (spell (.parameter position) raw).toList := by
  rw [spell]
  split
  case h_1 =>
    rw [Kind.standIn, String.toList_append]
    exact BeginsSmall.append ⟨'a', ['r', 'g'], rfl, rfl⟩ _
  case h_2 hjoined =>
    have hne : splitWords raw.toList ≠ [] := by
      intro hnil
      rw [Kind.join, hnil] at hjoined
      exact hjoined rfl
    have hwords : ∀ w ∈ splitWords raw.toList, w ≠ [] := fun w hw ↦ ne_nil_of_mem_wordsFrom hw
    obtain ⟨c, rest, heq, hc⟩ := beginsSmall_camelCase hwords hne
    rw [String.toList_ofList, Kind.join, heq, guardDigit]
    split
    case isTrue => exact ⟨'_', c :: rest, rfl, rfl⟩
    case isFalse => exact ⟨c, rest, rfl, hc⟩

/-- Names of parameters begin with no capital. -/
theorem beginsSmall_derive_parameter (position : Nat) (raw : String) :
    BeginsSmall (derive (.parameter position) raw).toList := by
  have hspell := beginsSmall_spell_parameter position raw
  rw [derive]
  split
  case isTrue =>
    rw [String.toList_append]
    exact hspell.append _
  case isFalse => exact hspell

/-! ### Reserved names -/

/-- No reserved name holds an underscore or a capital `W`. -/
theorem isReserved_eq_false_of_mem (h : '_' ∈ name.toList ∨ 'W' ∈ name.toList) :
    isReserved kind name = false := by
  have hclean : ∀ reserved ∈ reservedWords ++ classMembers ++ Module.preludeExports ++ globals,
      '_' ∉ reserved.toList ∧ 'W' ∉ reserved.toList := by decide
  have hall : ∀ reserved ∈ kind.reserved, '_' ∉ reserved.toList ∧ 'W' ∉ reserved.toList := by
    intro reserved hr
    -- Each kind reserves some of the four lists.
    refine hclean reserved ?_
    cases kind <;> grind [Kind.reserved]
  rw [isReserved, List.contains_eq_mem, decide_eq_false_iff_not]
  intro hmem
  rcases h with h | h
  · exact (hall name hmem).1 h
  · exact (hall name hmem).2 h

/-- A name that may stand where identifiers of a kind stand. -/
structure Usable (kind : Kind) (name : String) : Prop where
  legal : isLegal name = true
  free : isReserved kind name = false

theorem Usable.append (h : Usable kind name) (hpart : Over isPart tail)
    (hmark : '_' ∈ tail.toList ∨ 'W' ∈ tail.toList) : Usable kind (name ++ tail) where
  legal := isLegal_append h.legal hpart
  free := isReserved_eq_false_of_mem <| by
    rw [String.toList_append]
    exact hmark.imp (List.mem_append_right _) (List.mem_append_right _)

/-- **Every name gives a usable identifier of every kind.** -/
theorem usable_derive (kind : Kind) (raw : String) : Usable kind (derive kind raw) := by
  have hlegal := isLegal_spell kind raw
  rw [derive]
  split
  case isTrue hres =>
    refine ⟨isLegal_append hlegal (.literal rfl), isReserved_eq_false_of_mem (.inl ?_)⟩
    rw [String.toList_append]
    exact List.mem_append_right _ (by decide)
  case isFalse hres => exact ⟨hlegal, by simpa using hres⟩

/-- An identifier that is resolved at all is usable, also where the user chose it. -/
theorem usable_of_resolve {raw : String} {chosen : Option String}
    (h : resolve kind raw chosen = .ok name) : Usable kind name := by
  cases chosen with
  | none =>
    rw [resolve, Except.ok.injEq] at h
    exact h ▸ usable_derive kind raw
  | some choice =>
    rw [resolve, choose] at h
    split at h
    case isTrue hc =>
      rw [Except.ok.injEq] at h
      simp only [Bool.and_eq_true, Bool.not_eq_true'] at hc
      exact h ▸ ⟨hc.1, hc.2⟩
    case isFalse => exact absurd h (by simp)

end ContractBindings.Identifier
