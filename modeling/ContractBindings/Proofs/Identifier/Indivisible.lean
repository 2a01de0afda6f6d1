import ContractBindings.Proofs.Identifier.Casing

/-!
# Words are complete and indivisible

Cutting a name into words loses no letter or digit of it, invents none, and goes as far as cutting
can: a word that is cut again is one word (`splitWords_complete_and_indivisible`).

The reader of words decides about a capital from its neighbours, and the word that it has read is
looked at without what followed it in the name. What it decided stays the same nevertheless
(`Unbroken`): inside of a word both neighbours are still there, and at its last letter, where the
one behind is missing, there is less reason to cut than there was before (`endsBefore_none`).
-/

namespace ContractBindings.Identifier

variable {c previous : Char} {s word w : List Char} {next : Option Char}

/-! ### Nothing lost and nothing invented -/

theorem flatten_flush (word : List Char) : (flush word).flatten = word.reverse := by
  cases word with
  | nil => rfl
  | cons c word => exact List.flatten_singleton

/-- Joined, words are the letters and digits of what they were read from. -/
theorem flatten_wordsFrom (word s : List Char) :
    (wordsFrom word s).flatten = word.reverse ++ s.filter Char.isAlphanum := by
  fun_induction wordsFrom word s with
  | case1 word => rw [flatten_flush, List.filter_nil, List.append_nil]
  | case2 word c s hc ih =>
    rw [List.flatten_append, flatten_flush, ih, List.filter_cons_of_neg (by simpa using hc)]
    rfl
  | case3 c s hc previous word hends ih =>
    rw [List.flatten_append, flatten_flush, ih, List.filter_cons_of_pos (by simpa using hc)]
    rfl
  | case4 c s hc previous word hends ih =>
    rw [ih, List.reverse_cons, List.append_assoc, List.filter_cons_of_pos (by simpa using hc)]
    rfl
  | case5 c s hc ih =>
    rw [ih, List.filter_cons_of_pos (by simpa using hc)]
    rfl

/-! ### Words in one piece -/

/-- Where a word goes on, it goes on if the name ends there. -/
theorem endsBefore_none (h : endsBefore previous c next = false) :
    endsBefore previous c none = false := by
  rw [endsBefore, Bool.and_eq_false_iff] at h ⊢
  refine h.imp_right fun h ↦ ?_
  rw [Bool.or_eq_false_iff] at h ⊢
  exact ⟨h.1, Bool.and_false _⟩

/-- A word, given backwards, that is read in one piece once more, in front of `next` or of
nothing. -/
def Unbroken (word : List Char) (next : Option Char) : Prop :=
  ∀ t, (t.head? = none ∨ t.head? = next) → splitWords (word.reverse ++ t) = wordsFrom word t

theorem unbroken_nil (next : Option Char) : Unbroken [] next :=
  fun _ _ ↦ rfl

/-- **A word that grows stays in one piece.** -/
theorem Unbroken.grow (h : Unbroken word (some c)) (hc : c.isAlphanum = true)
    (hends : ∀ previous ∈ word.head?, endsBefore previous c next = false) :
    Unbroken (c :: word) next := by
  intro t ht
  have hgrow : ∀ previous ∈ word.head?, endsBefore previous c t.head? = false := by
    intro previous hprevious
    rcases ht with hnone | hnext
    · rw [hnone]
      exact endsBefore_none (hends previous hprevious)
    · rw [hnext]
      exact hends previous hprevious
  calc splitWords ((c :: word).reverse ++ t)
      = splitWords (word.reverse ++ c :: t) := by rw [List.reverse_cons, List.append_assoc]; rfl
    _ = wordsFrom word (c :: t) := h (c :: t) (.inr rfl)
    _ = wordsFrom (c :: word) t := wordsFrom_grow hc hgrow

theorem unbroken_singleton (hc : c.isAlphanum = true) (next : Option Char) :
    Unbroken [c] next :=
  (unbroken_nil _).grow hc fun _ h ↦ absurd h (Option.not_mem_none _)

theorem Unbroken.splitWords_eq (h : Unbroken word next) (hw : w ∈ flush word) :
    splitWords w = [w] := by
  cases word with
  | nil => cases hw
  | cons c word =>
    obtain rfl := List.mem_singleton.1 hw
    have hsplit := h [] (.inl rfl)
    rwa [List.append_nil] at hsplit

/-- **Every word that is read is in one piece.** -/
theorem splitWords_of_mem_wordsFrom (hword : Unbroken word s.head?) (hw : w ∈ wordsFrom word s) :
    splitWords w = [w] := by
  fun_induction wordsFrom word s with
  | case1 word => exact hword.splitWords_eq hw
  | case2 word c s hc ih =>
    rcases List.mem_append.1 hw with hw | hw
    · exact hword.splitWords_eq hw
    · exact ih (unbroken_nil _) hw
  | case3 c s hc previous word hends ih =>
    rcases List.mem_append.1 hw with hw | hw
    · exact hword.splitWords_eq hw
    · exact ih (unbroken_singleton (by simpa using hc) _) hw
  | case4 c s hc previous word hends ih =>
    have hgrow : ∀ p ∈ (previous :: word).head?, endsBefore p c s.head? = false := by
      intro p hp
      obtain rfl := Option.some.inj hp
      simpa using hends
    exact ih (Unbroken.grow hword (by simpa using hc) hgrow) hw
  | case5 c s hc ih => exact ih (unbroken_singleton (by simpa using hc) _) hw

/-! ### Words of a name -/

/-- **The words of a name are its letters and digits**, all of them in their order, and no word is
empty or can be cut again. -/
theorem splitWords_complete_and_indivisible (name : String) :
    (splitWords name.toList).flatten = name.toList.filter Char.isAlphanum ∧
      ∀ w ∈ splitWords name.toList, w ≠ [] ∧ splitWords w = [w] :=
  ⟨flatten_wordsFrom [] name.toList, fun _ hw ↦
    ⟨ne_nil_of_mem_wordsFrom hw, splitWords_of_mem_wordsFrom (unbroken_nil _) hw⟩⟩

example : splitWords "parse_HTTPServer2Go".toList =
    ["parse", "HTTP", "Server2", "Go"].map String.toList := by
  decide

end ContractBindings.Identifier
