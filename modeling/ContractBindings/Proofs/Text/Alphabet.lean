/-!
# Texts over an alphabet

Most of what has to be known of a generated text is which characters can stand in it. `Over p s`
says that all of them are in the class `p`; it is proved along the way the text is put together,
with fixed pieces decided once, and then tells which characters the text does not hold.

Fixed pieces are taken as `String.ofList` of their characters. A literal unifies with that form,
and the characters are then decided without decoding the literal.
-/

namespace ContractBindings.Text

/-- A text all of whose characters are in a class. -/
def Over (p : Char → Bool) (s : String) : Prop :=
  ∀ c ∈ s.toList, p c = true

namespace Over

variable {p q : Char → Bool} {s t : String}

theorem literal {l : List Char} (h : l.all p = true) : Over p (String.ofList l) := by
  rw [Over, String.toList_ofList]
  exact List.all_eq_true.1 h

theorem append (hs : Over p s) (ht : Over p t) : Over p (s ++ t) := by
  intro c hc
  rw [String.toList_append] at hc
  exact (List.mem_append.1 hc).elim (hs c) (ht c)

theorem mono (h : Over p s) (hpq : ∀ c, p c = true → q c = true) : Over q s :=
  fun c hc ↦ hpq c (h c hc)

theorem join {parts : List String} (h : ∀ s ∈ parts, Over p s) : Over p (String.join parts) := by
  intro c hc
  rw [String.toList_join] at hc
  obtain ⟨s, hs, hc⟩ := List.mem_flatMap.1 hc
  exact h s hs c hc

theorem intercalate {parts : List String} (hs : Over p s) (h : ∀ t ∈ parts, Over p t) :
    Over p (s.intercalate parts) := by
  induction parts with
  | nil => exact fun c hc ↦ absurd hc (by simp)
  | cons t rest ih =>
    have hrest := ih fun u hu ↦ h u (List.mem_cons_of_mem _ hu)
    cases rest with
    | nil =>
      rw [String.intercalate_singleton]
      exact h t List.mem_cons_self
    | cons u rest =>
      rw [String.intercalate_cons_cons]
      exact ((h t List.mem_cons_self).append hs).append hrest

/-- A character outside the class does not occur. -/
theorem not_mem (h : Over p s) {c : Char} (hc : p c = false) : c ∉ s.toList :=
  fun hmem ↦ absurd (h c hmem) (by simp [hc])

/-- A character outside the class can be left out of any other class. -/
theorem bne (h : Over p s) {c : Char} (hc : p c = false) : Over (· != c) s := by
  refine h.mono fun d hd ↦ ?_
  rw [bne_iff_ne]
  rintro rfl
  rw [hc] at hd
  cases hd

end Over

end ContractBindings.Text
