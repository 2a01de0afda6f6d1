import ContractBindings.Files.Path
import ContractBindings.Proofs.Identifier.Usable
import ContractBindings.Proofs.Text.Splitting

/-!
# Paths of files in directories

A plain name is one that names an entry of whatever directory it is looked up in. The path of a file
with such a name starts where that of the directory does and has the same parts in front of the name
(`exists_parts_join`), so it leads nowhere but into the directory. The names of modules are plain,
since those of classes are identifiers (`isPlain_fileName`).
-/

namespace ContractBindings.Files

/-- A name of an entry, whatever directory it is in. -/
structure IsPlain (name : String) : Prop where
  ne_empty : name ≠ ""
  ne_dot : name ≠ "."
  ne_dots : name ≠ ".."
  slash_not_mem : '/' ∉ name.toList

variable {file : String}

theorem IsPlain.isAbsolute (h : IsPlain file) : Files.isAbsolute file = false := by
  rw [Files.isAbsolute, beq_eq_false_iff_ne]
  exact fun hhead ↦ h.slash_not_mem (List.mem_of_head? hhead)

theorem IsPlain.parts (h : IsPlain file) : Files.parts file = [file] := by
  rw [Files.parts, Text.splitOn_of_not_mem h.slash_not_mem, List.map_singleton,
    String.ofList_toList]

/-- The parts of a path at a slash. -/
theorem parts_ofList_append (s rest : List Char) :
    parts (String.ofList (s ++ '/' :: rest)) =
      parts (String.ofList s) ++ parts (String.ofList rest) := by
  rw [parts, parts, parts, String.toList_ofList, String.toList_ofList, String.toList_ofList,
    Text.splitOn_append, List.map_append]

theorem isAbsolute_append {directory : String} (h : directory ≠ "") (rest : String) :
    isAbsolute (directory ++ rest) = isAbsolute directory := by
  have hne : directory.toList ≠ [] := fun hnil ↦ h (String.toList_eq_nil_iff.1 hnil)
  obtain ⟨c, s, hs⟩ := List.exists_cons_of_ne_nil hne
  rw [isAbsolute, isAbsolute, String.toList_append, hs]
  rfl

/-- **The path of a file leads into its directory**: its parts are those of the directory, but for
an empty one behind a last slash, and the name of the file. -/
theorem exists_parts_join (directory : String) (h : IsPlain file) :
    ∃ above empties, parts directory = above ++ empties ∧ (∀ part ∈ empties, part = "") ∧
      parts (join directory file) = above ++ [file] ∧
      isAbsolute (join directory file) = isAbsolute directory := by
  rw [join, h.isAbsolute, if_neg Bool.false_ne_true]
  by_cases hempty : directory = ""
  · subst hempty
    refine ⟨[], [""], rfl, by simp, ?_, ?_⟩
    · rw [if_pos (by decide), String.empty_append, h.parts, List.nil_append]
    · rw [if_pos (by decide), String.empty_append, h.isAbsolute]
      rfl
  have hisEmpty : directory.isEmpty = false := by
    simpa using hempty
  rw [hisEmpty, Bool.false_or]
  split
  case isTrue hslash =>
    obtain ⟨d, hd⟩ := List.getLast?_eq_some_iff.1 (eq_of_beq hslash)
    have hdirectory : directory = String.ofList (d ++ '/' :: []) := by
      rw [← hd, String.ofList_toList]
    have hjoin : directory ++ file = String.ofList (d ++ '/' :: file.toList) := by
      simp [← String.toList_inj, hd]
    refine ⟨parts (String.ofList d), [""], ?_, by simp, ?_, isAbsolute_append hempty file⟩
    · rw [hdirectory, parts_ofList_append]
      rfl
    · rw [hjoin, parts_ofList_append, String.ofList_toList, h.parts]
  case isFalse =>
    have hjoin : directory ++ "/" ++ file =
        String.ofList (directory.toList ++ '/' :: file.toList) := by
      simp [← String.toList_inj]
    refine ⟨parts directory, [], (List.append_nil _).symm, by simp, ?_, ?_⟩
    · rw [hjoin, parts_ofList_append, String.ofList_toList, String.ofList_toList, h.parts]
    · rw [String.append_assoc]
      exact isAbsolute_append hempty _

/-- A module has a plain name, whatever its class is called. -/
theorem isPlain_fileName {className : String} (h : Identifier.isLegal className = true) :
    IsPlain (className ++ ".ts") := by
  have hchars : Identifier.isLegalChars className.toList = true := h
  obtain ⟨c, rest, heq, hc, -⟩ := Identifier.exists_cons_of_isLegalChars hchars
  have htext : (className ++ ".ts").toList = c :: (rest ++ ['.', 't', 's']) := by
    rw [String.toList_append, heq]
    rfl
  have hlength : 4 ≤ (className ++ ".ts").toList.length := by
    rw [htext, List.length_cons, List.length_append, List.length_cons, List.length_cons,
      List.length_cons]
    omega
  have hlong : ∀ name : String, name.toList.length < 4 → className ++ ".ts" ≠ name := by
    rintro name hname rfl
    omega
  refine ⟨hlong _ (by decide), hlong _ (by decide), hlong _ (by decide), ?_⟩
  rw [String.toList_append, List.mem_append]
  rintro (hmem | hmem)
  · exact absurd (Identifier.over_of_isLegal h '/' hmem) (by decide)
  · exact absurd hmem (by decide)

end ContractBindings.Files
