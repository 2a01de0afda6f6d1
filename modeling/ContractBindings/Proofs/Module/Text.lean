import ContractBindings.Module.Generate
import ContractBindings.Proofs.Results
import ContractBindings.Proofs.Text.Splitting

/-!
# The text of lines

Lines put together and taken apart again. Taking apart at the line feeds gives back the lines, if no
line holds one itself (`splitOn_text`); what is left after the last line feed is an empty line.
-/

namespace ContractBindings.Module

namespace Lines

@[simp]
theorem text_nil : text [] = "" :=
  rfl

@[simp]
theorem text_cons (line : String) (lines : Lines) :
    text (line :: lines) = line ++ "\n" ++ text lines := by
  rw [← String.toList_inj]
  simp [text, String.toList_join]

@[simp]
theorem text_append (lines more : Lines) :
    text (lines ++ more) = text lines ++ text more := by
  induction lines with
  | nil => rw [List.nil_append, text_nil, String.empty_append]
  | cons line lines ih => rw [List.cons_append, text_cons, text_cons, ih, ← String.append_assoc]

theorem toList_text (lines : Lines) :
    (text lines).toList = lines.flatMap fun line ↦ line.toList ++ ['\n'] := by
  induction lines with
  | nil => rfl
  | cons line lines ih =>
    rw [text_cons, String.toList_append, String.toList_append, ih, List.flatMap_cons]
    rfl

end Lines

/-! ### The modules of a plan -/

/-- A plan that is made has a hash wherever one is embedded. -/
theorem plan_of_planChecked {options : Options} {c : Contract} {p : Binding.Plan}
    (h : planChecked options c = .ok p) :
    Binding.plan options c = .ok p ∧
      (options.embedHash = true → c.scriptHash.isSome = true) := by
  rw [planChecked] at h
  split at h
  case isTrue => cases h
  case isFalse hhash =>
    refine ⟨h, fun hembed ↦ ?_⟩
    rw [hembed, Bool.true_and, Bool.not_eq_true, Option.isNone_eq_false_iff] at hhash
    exact hhash

/-- Modules are written from a plan. -/
theorem exists_plan_of_generate {options : Options} {c : Contract} {written : List SourceModule}
    (h : generate options c = .ok written) :
    ∃ p, Binding.plan options c = .ok p ∧ written = modules options p ∧
      (options.embedHash = true → c.scriptHash.isSome = true) := by
  obtain ⟨p, hp, h⟩ := exists_of_bind_eq_ok h
  cases h
  obtain ⟨hplan, hhash⟩ := plan_of_planChecked hp
  exact ⟨p, hplan, rfl, hhash⟩

theorem text_client (p : Binding.Plan) : (client p).text = (clientLines p).text := by
  rw [client]

theorem text_implementation (p : Binding.Plan) :
    (implementation p).text = (implementationLines p).text := by
  rw [implementation]

theorem toList_classHead (className : String) :
    (classHead className).toList =
      "export class ".toList ++ (className.toList ++ " \x7b".toList) := by
  delta classHead
  rw [String.toList_append, String.toList_append, List.append_assoc]

/-! ### Taking lines apart -/

/-- A text without separators is the first part of what it stands in front of. -/
theorem splitOn_append_cons {separator : Char} {s : List Char} (h : separator ∉ s)
    (rest : List Char) :
    Text.splitOn separator (s ++ separator :: rest) = s :: Text.splitOn separator rest := by
  rw [Text.splitOn_append, Text.splitOn_of_not_mem h]
  rfl

/-- **A module is taken apart into its lines** at its line feeds. -/
theorem splitOn_text {lines : Lines} (h : ∀ line ∈ lines, '\n' ∉ line.toList) :
    Text.splitOn '\n' lines.text.toList = lines.map String.toList ++ [[]] := by
  induction lines with
  | nil => rfl
  | cons line lines ih =>
    have hline : ("\n" : String).toList = ['\n'] := rfl
    rw [Lines.text_cons, String.toList_append, String.toList_append, hline, List.append_assoc,
      List.singleton_append, splitOn_append_cons (h line List.mem_cons_self),
      ih fun l hl ↦ h l (List.mem_cons_of_mem _ hl)]
    rfl

/-- A text has as many line feeds as it has lines. -/
theorem count_lineFeed_text {lines : Lines} (h : ∀ line ∈ lines, '\n' ∉ line.toList) :
    lines.text.toList.count '\n' = lines.length := by
  induction lines with
  | nil => rfl
  | cons line lines ih =>
    obtain ⟨hline, hlines⟩ := List.forall_mem_cons.1 h
    have hfeed : ("\n" : String).toList = ['\n'] := rfl
    rw [Lines.text_cons, String.toList_append, String.toList_append, hfeed, List.count_append,
      List.count_append, List.count_eq_zero.2 hline, List.count_singleton_self, ih hlines,
      List.length_cons]
    omega

end ContractBindings.Module
