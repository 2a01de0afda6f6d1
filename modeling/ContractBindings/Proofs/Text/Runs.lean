import Mathlib.Data.List.TakeWhile

/-!
# Runs of characters

A reader of words takes characters as long as they are in a class. It takes exactly a given word
when the text goes on with a character outside the class, or not at all.
-/

namespace ContractBindings.Text

variable {p : Char → Bool} {c : Char} {word rest : List Char}

/-- A text that does not begin with a character of a class. -/
def StopsRun (p : Char → Bool) (rest : List Char) : Prop :=
  ∀ c ∈ rest.head?, p c = false

theorem stopsRun_cons (h : p c = false) : StopsRun p (c :: rest) := by
  intro d hd
  rw [List.head?_cons, Option.mem_some] at hd
  exact hd ▸ h

/-- Whether a text goes on with a class is decided by its first character. -/
theorem StopsRun.of_head?_eq {other : List Char} (h : StopsRun p rest)
    (heq : other.head? = rest.head?) : StopsRun p other :=
  fun c hc ↦ h c (heq ▸ hc)

/-- What is left of a text behind a run. -/
theorem stopsRun_dropWhile (p : Char → Bool) (s : List Char) : StopsRun p (s.dropWhile p) := by
  induction s with
  | nil => nofun
  | cons c s ih =>
    rw [List.dropWhile_cons]
    split
    case isTrue => exact ih
    case isFalse h => exact stopsRun_cons (Bool.not_eq_true _ ▸ h)

theorem takeWhile_append (hword : ∀ c ∈ word, p c = true) (hrest : StopsRun p rest) :
    (word ++ rest).takeWhile p = word := by
  rw [List.takeWhile_append_of_pos hword]
  cases rest with
  | nil => exact List.append_nil word
  | cons c rest =>
    rw [List.takeWhile_cons_of_neg (by simp [hrest c rfl]), List.append_nil]

theorem dropWhile_append (hword : ∀ c ∈ word, p c = true) (hrest : StopsRun p rest) :
    (word ++ rest).dropWhile p = rest := by
  rw [List.dropWhile_append_of_pos hword]
  cases rest with
  | nil => rfl
  | cons c rest => exact List.dropWhile_cons_of_neg (by simp [hrest c rfl])

end ContractBindings.Text
