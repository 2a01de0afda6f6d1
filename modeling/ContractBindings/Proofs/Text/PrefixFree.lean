import Mathlib.Data.List.Basic

/-!
# Words that texts begin with

If no word of a list begins another, a text begins with at most one of them, so texts that are put
together from such words can be taken apart again without any separators.
-/

namespace ContractBindings.Text

/-- Words none of which begins another. -/
def PrefixFree (words : List String) : Prop :=
  ∀ word ∈ words, ∀ other ∈ words, word.toList <+: other.toList → word = other

instance (words : List String) : Decidable (PrefixFree words) :=
  inferInstanceAs
    (Decidable (∀ word ∈ words, ∀ other ∈ words, word.toList <+: other.toList → word = other))

/-- **A text begins with at most one word.** -/
theorem PrefixFree.append_inj {words : List String} {word other : String} {s t : List Char}
    (h : PrefixFree words) (hword : word ∈ words) (hother : other ∈ words)
    (heq : word.toList ++ s = other.toList ++ t) : word = other ∧ s = t := by
  have hsame : word = other := by
    rcases List.prefix_or_prefix_of_prefix (List.prefix_append word.toList s)
      (heq ▸ List.prefix_append other.toList t) with hle | hle
    · exact h word hword other hother hle
    · exact (h other hother word hword hle).symm
  subst hsame
  exact ⟨rfl, List.append_cancel_left heq⟩

end ContractBindings.Text
