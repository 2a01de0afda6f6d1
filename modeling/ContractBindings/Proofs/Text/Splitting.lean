import ContractBindings.Text.Split

/-!
# Texts taken apart

What is between the separators of a text that is put together at one of them: what is between
those in front of it, and what is between those behind it (`splitWhere_append`). A text without
separators is not taken apart (`splitWhere_of_forall`).
-/

namespace ContractBindings.Text

variable {c separator : Char} {s : List Char}

theorem splitWhere_ne_nil (isSeparator : Char → Bool) (s : List Char) :
    splitWhere isSeparator s ≠ [] := by
  fun_cases splitWhere isSeparator s <;> exact List.cons_ne_nil _ _

/-- **A text is taken apart at each of its separators alone.** -/
theorem splitWhere_append (isSeparator : Char → Bool) (hc : isSeparator c = true)
    (s rest : List Char) :
    splitWhere isSeparator (s ++ c :: rest) =
      splitWhere isSeparator s ++ splitWhere isSeparator rest := by
  induction s with
  | nil =>
    show splitWhere isSeparator (c :: rest) = [] :: splitWhere isSeparator rest
    rw [splitWhere, if_pos hc]
  | cons d s ih =>
    obtain ⟨part, parts, hparts⟩ := List.exists_cons_of_ne_nil (splitWhere_ne_nil isSeparator s)
    rw [List.cons_append, splitWhere, splitWhere, ih, hparts]
    split
    case isTrue => rfl
    case isFalse => rfl

theorem splitWhere_of_forall {isSeparator : Char → Bool} (h : ∀ c ∈ s, isSeparator c = false) :
    splitWhere isSeparator s = [s] := by
  induction s with
  | nil => rfl
  | cons c s ih =>
    obtain ⟨hc, hs⟩ := List.forall_mem_cons.1 h
    rw [splitWhere, hc, ih hs]
    rfl

theorem splitOn_append (separator : Char) (s rest : List Char) :
    splitOn separator (s ++ separator :: rest) = splitOn separator s ++ splitOn separator rest :=
  splitWhere_append (· == separator) (beq_self_eq_true separator) s rest

theorem splitOn_of_not_mem (h : separator ∉ s) : splitOn separator s = [s] :=
  splitWhere_of_forall fun _ hc ↦ beq_false_of_ne (ne_of_mem_of_not_mem hc h)

end ContractBindings.Text
