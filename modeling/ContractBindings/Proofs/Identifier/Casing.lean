import ContractBindings.Proofs.Identifier.Usable

/-!
# Identifiers of identifiers

An identifier is a text like any other name, and it gives itself (`resolve_idempotent`).

Two facts about words carry this. A name is cut at every separator (`splitWords_append_cons`), so
the underscore that is put in front of a digit or behind a reserved name is lost again, and put back
for the same reason as before. And where a name of letters and digits alone is cut, a capital
follows: joining its words changes no letter behind the first word in camel case, and none but the
first letter in Pascal case (`camelCase_wordsFrom`, `pascalCase_wordsFrom`). What the words of any
name come to when they are joined, or the stand-in for a name without words, is therefore joined to
itself; this is the `core` of the identifier.
-/

namespace ContractBindings.Identifier

open Text (Over)

variable {c previous : Char} {s word : List Char} {kind : Kind} {raw : String}

/-! ### Steps of the reader of words -/

theorem wordsFrom_separator (hc : c.isAlphanum = false) (word s : List Char) :
    wordsFrom word (c :: s) = flush word ++ splitWords s := by
  rw [wordsFrom.eq_def]
  simp [hc, splitWords]

theorem wordsFrom_break (hc : c.isAlphanum = true)
    (hends : endsBefore previous c s.head? = true) :
    wordsFrom (previous :: word) (c :: s) = flush (previous :: word) ++ wordsFrom [c] s := by
  rw [wordsFrom.eq_def]
  simp [hc, hends]

theorem wordsFrom_grow (hc : c.isAlphanum = true)
    (hends : ∀ previous ∈ word.head?, endsBefore previous c s.head? = false) :
    wordsFrom word (c :: s) = wordsFrom (c :: word) s := by
  rw [wordsFrom.eq_def]
  cases word with
  | nil => simp [hc]
  | cons previous word => simp [hc, hends previous rfl]

/-! ### Names with separators -/

/-- A word ends in front of a separator as it does at the end of the name. -/
theorem endsBefore_head?_append (hc : c.isAlphanum = false) (previous d : Char) (s t : List Char) :
    endsBefore previous d (s ++ c :: t).head? = endsBefore previous d s.head? := by
  cases s with
  | nil =>
    have hlower : c.isLower = false := by
      rw [← Bool.not_eq_true] at hc ⊢
      exact fun h ↦ hc (Text.isAlphanum_iff.2 (.inr (.inl h)))
    simp [endsBefore, hlower]
  | cons e s => rfl

/-- **No word goes beyond a separator.** -/
theorem wordsFrom_append_cons (hc : c.isAlphanum = false) (word s t : List Char) :
    wordsFrom word (s ++ c :: t) = wordsFrom word s ++ splitWords t := by
  fun_induction wordsFrom word s with
  | case1 word => exact wordsFrom_separator hc word t
  | case2 word d s hd ih =>
    rw [List.cons_append, wordsFrom_separator (by simpa using hd), splitWords, ih,
      List.append_assoc]
  | case3 d s hd previous word hends ih =>
    rw [List.cons_append, wordsFrom_break (by simpa using hd)
      ((endsBefore_head?_append hc previous d s t).trans hends), ih, List.append_assoc]
  | case4 d s hd previous word hends ih =>
    have hgrow : ∀ p ∈ (previous :: word).head?, endsBefore p d (s ++ c :: t).head? = false := by
      rintro p ⟨⟩
      rw [endsBefore_head?_append hc]
      simpa using hends
    rw [List.cons_append, wordsFrom_grow (by simpa using hd) hgrow, ih]
  | case5 d s hd ih =>
    rw [List.cons_append, wordsFrom_grow (by simpa using hd) (by simp), ih]

theorem splitWords_append_cons (hc : c.isAlphanum = false) (s t : List Char) :
    splitWords (s ++ c :: t) = splitWords s ++ splitWords t :=
  wordsFrom_append_cons hc [] s t

/-! ### Names of letters and digits -/

theorem capitalize_append (hs : s ≠ []) (t : List Char) :
    capitalize (s ++ t) = capitalize s ++ t := by
  obtain ⟨c, s, rfl⟩ := List.exists_cons_of_ne_nil hs
  rfl

theorem capitalize_of_not_isLower (hc : ¬ c.isLower = true) (s : List Char) :
    capitalize (c :: s) = c :: s := by
  rw [capitalize, Text.toUpper_of_not_isLower hc]

theorem isUpper_of_endsBefore {next : Option Char} (h : endsBefore previous c next = true) :
    c.isUpper = true :=
  (Bool.and_eq_true_iff.1 h).1

/-- Joined in Pascal case, words are the name that they were cut from, but for its first letter. -/
theorem pascalCase_wordsFrom (hs : ∀ c ∈ s, c.isAlphanum = true) (word : List Char) :
    pascalCase (wordsFrom word s) = capitalize (word.reverse ++ s) := by
  fun_induction wordsFrom word s with
  | case1 word =>
    cases word with
    | nil => rfl
    | cons c word => simp [flush, pascalCase]
  | case2 word c s hc ih => simp [hs c List.mem_cons_self] at hc
  | case3 c s hc previous word hends ih =>
    have hupper : c.isUpper = true := isUpper_of_endsBefore hends
    calc pascalCase (flush (previous :: word) ++ wordsFrom [c] s)
        = capitalize (previous :: word).reverse ++ pascalCase (wordsFrom [c] s) := rfl
      _ = capitalize (previous :: word).reverse ++ capitalize (c :: s) := by
        rw [ih fun d hd ↦ hs d (List.mem_cons_of_mem c hd)]
        rfl
      _ = capitalize (previous :: word).reverse ++ c :: s := by
        rw [capitalize_of_not_isLower (Text.not_isLower_of_isUpper hupper)]
      _ = capitalize ((previous :: word).reverse ++ c :: s) := by
        rw [capitalize_append (by simp)]
  | case4 c s hc previous word hends ih =>
    rw [ih fun d hd ↦ hs d (List.mem_cons_of_mem c hd), List.reverse_cons, List.append_assoc]
    rfl
  | case5 c s hc ih => exact ih fun d hd ↦ hs d (List.mem_cons_of_mem c hd)

theorem map_toLower (h : ∀ c ∈ s, ¬ c.isUpper = true) : s.map Char.toLower = s :=
  (List.map_congr_left fun c hc ↦ Text.toLower_of_not_isUpper (h c hc)).trans (List.map_id s)

/-- Joined in camel case, words are the name that they were cut from if its first word has no
capitals: a capital ends a word without them. -/
theorem camelCase_wordsFrom (hs : ∀ c ∈ s, c.isAlphanum = true) (hne : word ≠ [])
    (hword : ∀ c ∈ word, c.isAlphanum = true ∧ ¬ c.isUpper = true) :
    camelCase (wordsFrom word s) = word.reverse ++ s := by
  fun_induction wordsFrom word s with
  | case1 word =>
    obtain ⟨c, word, rfl⟩ := List.exists_cons_of_ne_nil hne
    show (c :: word).reverse.map Char.toLower ++ [] = (c :: word).reverse ++ []
    rw [map_toLower fun d hd ↦ (hword d (List.mem_reverse.1 hd)).2]
  | case2 word c s hc ih => simp [hs c List.mem_cons_self] at hc
  | case3 c s hc previous word hends ih =>
    have hupper : c.isUpper = true := isUpper_of_endsBefore hends
    have hrest := pascalCase_wordsFrom (fun d hd ↦ hs d (List.mem_cons_of_mem c hd)) [c]
    calc camelCase (flush (previous :: word) ++ wordsFrom [c] s)
        = (previous :: word).reverse.map Char.toLower ++ pascalCase (wordsFrom [c] s) := rfl
      _ = (previous :: word).reverse ++ capitalize (c :: s) := by
        rw [map_toLower fun d hd ↦ (hword d (List.mem_reverse.1 hd)).2, hrest]
        rfl
      _ = (previous :: word).reverse ++ c :: s := by
        rw [capitalize_of_not_isLower (Text.not_isLower_of_isUpper hupper)]
  | case4 c s hc previous word hends ih =>
    have hsmall : ¬ c.isUpper = true := fun hupper ↦ by
      obtain ⟨halphanum, hprevious⟩ := hword previous List.mem_cons_self
      rcases Text.isAlphanum_iff.1 halphanum with h | h | h
      · exact hprevious h
      · exact hends (by simp [endsBefore, hupper, h])
      · exact hends (by simp [endsBefore, hupper, h])
    have hgrown : ∀ d ∈ c :: previous :: word, d.isAlphanum = true ∧ ¬ d.isUpper = true :=
      List.forall_mem_cons.2 ⟨⟨hs c List.mem_cons_self, hsmall⟩, hword⟩
    rw [ih (fun d hd ↦ hs d (List.mem_cons_of_mem c hd)) (List.cons_ne_nil _ _) hgrown,
      List.reverse_cons, List.append_assoc]
    rfl
  | case5 c s hc ih => exact absurd rfl hne

theorem pascalCase_splitWords (hs : ∀ c ∈ s, c.isAlphanum = true) :
    pascalCase (splitWords s) = capitalize s :=
  pascalCase_wordsFrom hs []

theorem camelCase_splitWords (hs : ∀ c ∈ s, c.isAlphanum = true) (h : BeginsSmall s) :
    camelCase (splitWords s) = s := by
  obtain ⟨c, rest, rfl, hc⟩ := h
  obtain ⟨halphanum, hrest⟩ := List.forall_mem_cons.1 hs
  rw [splitWords, wordsFrom_grow halphanum (by simp),
    camelCase_wordsFrom hrest (List.cons_ne_nil c []) (by simpa using ⟨halphanum, hc⟩)]
  rfl

/-! ### Joins that are joined again -/

theorem capitalize_pascalCase {words : List (List Char)} (hwords : ∀ w ∈ words, w ≠ []) :
    capitalize (pascalCase words) = pascalCase words := by
  cases words with
  | nil => rfl
  | cons w words =>
    obtain ⟨c, w, rfl⟩ := List.exists_cons_of_ne_nil (hwords w List.mem_cons_self)
    exact capitalize_of_not_isLower (Text.not_isLower_toUpper c) _

theorem pascalCase_pascalCase (s : List Char) :
    pascalCase (splitWords (pascalCase (splitWords s))) = pascalCase (splitWords s) := by
  have halphanum : ∀ c ∈ pascalCase (splitWords s), c.isAlphanum = true :=
    isAlphanum_join .contract s
  have hwords : ∀ w ∈ splitWords s, w ≠ [] := fun w hw ↦ ne_nil_of_mem_wordsFrom hw
  rw [pascalCase_splitWords halphanum, capitalize_pascalCase hwords]

theorem camelCase_camelCase (s : List Char) :
    camelCase (splitWords (camelCase (splitWords s))) = camelCase (splitWords s) := by
  by_cases hnil : splitWords s = []
  · rw [hnil]
    rfl
  · exact camelCase_splitWords (isAlphanum_join .method s)
      (beginsSmall_camelCase (fun _ hw ↦ ne_nil_of_mem_wordsFrom hw) hnil)

theorem join_join (kind : Kind) (s : List Char) :
    kind.join (splitWords (kind.join (splitWords s))) = kind.join (splitWords s) := by
  cases kind with
  | contract => exact pascalCase_pascalCase s
  | method => exact camelCase_camelCase s
  | parameter position => exact camelCase_camelCase s

theorem isAlphanum_standIn (kind : Kind) : ∀ c ∈ kind.standIn.toList, c.isAlphanum = true := by
  cases kind with
  | contract => exact Over.literal rfl
  | method => exact Over.literal rfl
  | parameter position =>
    have hdigits := (over_isDigit_toString position).mono (q := Char.isAlphanum) fun c hc ↦
      Text.isAlphanum_iff.2 (.inr (.inr hc))
    exact Over.append (.literal rfl) hdigits

theorem join_standIn (kind : Kind) :
    kind.join (splitWords kind.standIn.toList) = kind.standIn.toList := by
  cases kind with
  | contract => decide
  | method => decide
  | parameter position =>
    refine camelCase_splitWords (isAlphanum_standIn (.parameter position)) ?_
    rw [Kind.standIn, String.toList_append]
    exact BeginsSmall.append ⟨'a', ['r', 'g'], rfl, rfl⟩ _

theorem standIn_ne_nil (kind : Kind) : kind.standIn.toList ≠ [] := by
  cases kind <;> simp [Kind.standIn]

theorem guardDigit_standIn (kind : Kind) :
    guardDigit kind.standIn.toList = kind.standIn.toList := by
  cases kind with
  | contract => decide
  | method => decide
  | parameter position =>
    rw [Kind.standIn, String.toList_append]
    rfl

/-! ### Cores -/

/-- The letters and digits that an identifier is made of: the words of the name, joined, or the
stand-in for a name without words. -/
def core (kind : Kind) (raw : String) : List Char :=
  match kind.join (splitWords raw.toList) with
  | [] => kind.standIn.toList
  | joined => joined

theorem core_of_ne_nil (h : kind.join (splitWords raw.toList) ≠ []) :
    core kind raw = kind.join (splitWords raw.toList) := by
  rw [core]
  split
  case h_1 hnil => exact absurd hnil h
  case h_2 => rfl

theorem core_of_eq_nil (h : kind.join (splitWords raw.toList) = []) :
    core kind raw = kind.standIn.toList := by
  rw [core, h]

theorem isAlphanum_core (kind : Kind) (raw : String) :
    ∀ c ∈ core kind raw, c.isAlphanum = true := by
  by_cases h : kind.join (splitWords raw.toList) = []
  · rw [core_of_eq_nil h]
    exact isAlphanum_standIn kind
  · rw [core_of_ne_nil h]
    exact isAlphanum_join kind raw.toList

/-- **A core is joined to itself.** -/
theorem join_core (kind : Kind) (raw : String) :
    kind.join (splitWords (core kind raw)) = core kind raw := by
  by_cases h : kind.join (splitWords raw.toList) = []
  · rw [core_of_eq_nil h, join_standIn]
  · rw [core_of_ne_nil h, join_join]

theorem core_ne_nil (kind : Kind) (raw : String) : core kind raw ≠ [] := by
  by_cases h : kind.join (splitWords raw.toList) = []
  · rw [core_of_eq_nil h]
    exact standIn_ne_nil kind
  · rwa [core_of_ne_nil h]

/-- A text gives the core that it has the words of. -/
theorem core_congr {other : String}
    (h : splitWords other.toList = splitWords (core kind raw)) :
    core kind other = core kind raw := by
  have hjoin : kind.join (splitWords other.toList) = core kind raw := by rw [h, join_core]
  rw [core_of_ne_nil (by rw [hjoin]; exact core_ne_nil kind raw), hjoin]

theorem spell_eq (kind : Kind) (raw : String) :
    spell kind raw = String.ofList (guardDigit (core kind raw)) := by
  rw [spell]
  split
  case h_1 hnil => rw [core_of_eq_nil hnil, guardDigit_standIn, String.ofList_toList]
  case h_2 hjoined => rw [core_of_ne_nil hjoined]

/-- An identifier is its core, with an underscore in front of a digit, or behind it if it is
reserved. -/
theorem toList_derive (kind : Kind) (raw : String) :
    (derive kind raw).toList = core kind raw ∨
      (derive kind raw).toList = '_' :: core kind raw ∨
      (derive kind raw).toList = core kind raw ++ ['_'] ∧
        isReserved kind (String.ofList (core kind raw)) = true := by
  obtain ⟨c, rest, hcore⟩ := List.exists_cons_of_ne_nil (core_ne_nil kind raw)
  by_cases hdigit : c.isDigit = true
  · have hspell : spell kind raw = String.ofList ('_' :: core kind raw) := by
      rw [spell_eq, hcore, guardDigit, if_pos hdigit]
    have hfree : isReserved kind (spell kind raw) = false := by
      refine isReserved_eq_false_of_mem (.inl ?_)
      rw [hspell, String.toList_ofList]
      exact List.mem_cons_self
    refine .inr (.inl ?_)
    rw [derive, hfree, if_neg Bool.false_ne_true, hspell, String.toList_ofList]
  · have hspell : spell kind raw = String.ofList (core kind raw) := by
      rw [spell_eq, hcore, guardDigit, if_neg hdigit]
    rw [derive, hspell]
    split
    case isTrue hreserved =>
      refine .inr (.inr ⟨?_, hreserved⟩)
      rw [String.toList_append, String.toList_ofList]
      rfl
    case isFalse => exact .inl String.toList_ofList

theorem splitWords_derive (kind : Kind) (raw : String) :
    splitWords (derive kind raw).toList = splitWords (core kind raw) := by
  have hseparator : '_'.isAlphanum = false := by decide
  rcases toList_derive kind raw with h | h | ⟨h, -⟩ <;> rw [h]
  · exact splitWords_append_cons hseparator [] (core kind raw)
  · rw [splitWords_append_cons hseparator]
    exact List.append_nil _

/-! ### Resolving again -/

theorem derive_derive (kind : Kind) (raw : String) :
    derive kind (derive kind raw) = derive kind raw := by
  have hspell : spell kind (derive kind raw) = spell kind raw := by
    rw [spell_eq, spell_eq, core_congr (splitWords_derive kind raw)]
  rw [derive, hspell]
  rfl

/-- **Resolving is settled by one resolution.** Every name gives an identifier that may stand where
those of its kind stand, and that gives itself when it is resolved again; joining words in either
case changes nothing about what was joined so before. -/
theorem resolve_idempotent (kind : Kind) (raw : String) :
    (∃ name, resolve kind raw none = .ok name ∧ Usable kind name ∧
        resolve kind name none = .ok name) ∧
      ∀ s : List Char,
        pascalCase (splitWords (pascalCase (splitWords s))) = pascalCase (splitWords s) ∧
        camelCase (splitWords (camelCase (splitWords s))) = camelCase (splitWords s) := by
  refine ⟨⟨derive kind raw, rfl, usable_derive kind raw, ?_⟩,
    fun s ↦ ⟨pascalCase_pascalCase s, camelCase_camelCase s⟩⟩
  rw [resolve, derive_derive]

end ContractBindings.Identifier
