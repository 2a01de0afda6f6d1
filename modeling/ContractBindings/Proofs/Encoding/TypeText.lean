import ContractBindings.Proofs.Module.Pieces
import ContractBindings.Proofs.Text.Runs

/-!
# Reading type expressions

A reader of type expressions that takes the longest one from the front of a text. A name, or `Map`
with two types in angle brackets, is read first, and then the pairs of brackets behind it, each of
which makes a list of what has been read (`readSuffix`). The expression of every type is read back
from its text (`wholeTypeExpr?_typeExpr`).

The reader is used twice: for the types of parameters, and for the signatures that the prelude
writes down.
-/

namespace ContractBindings.Encoding

open Binding Identifier ContractBindings.Module

/-! ### Words -/

/-- The longest identifier in front of a text, and what stands behind it. -/
def readWord? (s : List Char) : Option (String × List Char) :=
  let word := s.takeWhile isPart
  if isLegalChars word then some (String.ofList word, s.dropWhile isPart) else none

theorem readWord?_append {name : String} (h : isLegal name = true) {rest : List Char}
    (hrest : Text.StopsRun isPart rest) :
    readWord? (name.toList ++ rest) = some (name, rest) := by
  have hpart := over_of_isLegal h
  have hchars : isLegalChars name.toList = true := h
  rw [readWord?, Text.takeWhile_append hpart hrest, Text.dropWhile_append hpart hrest,
    if_pos hchars, String.ofList_toList]

/-! ### Type expressions -/

/-- Reads the pairs of brackets behind a type expression. -/
def readSuffix : TypeExpr → List Char → TypeExpr × List Char
  | type, '[' :: ']' :: rest => readSuffix (.list type) rest
  | type, rest => (type, rest)

/-- Reads a type expression in which brackets stand less than `fuel` deep. -/
def readTypeExpr? : (fuel : Nat) → List Char → Option (TypeExpr × List Char)
  | 0, _ => none
  | fuel + 1, s => do
    let (word, rest) ← readWord? s
    match rest with
    | '<' :: inner =>
      if word = "Map" then do
        let (key, rest) ← readTypeExpr? fuel inner
        let rest ← after? ", ".toList rest
        let (value, rest) ← readTypeExpr? fuel rest
        let rest ← after? ">".toList rest
        return readSuffix (.map key value) rest
      else none
    | rest => return readSuffix (.named word) rest

/-- Reads a text that is a type expression. -/
def wholeTypeExpr? (text : String) : Option TypeExpr :=
  match readTypeExpr? text.toList.length text.toList with
  | some (type, []) => some type
  | _ => none

/-! ### The expressions of types -/

/-- The characters that go on with a name or open its brackets. -/
def continuesName (c : Char) : Bool :=
  isPart c || c == '<'

variable {rest : List Char}

theorem stopsRun_isPart (h : Text.StopsRun continuesName rest) : Text.StopsRun isPart rest := by
  intro c hc
  have hnot := h c hc
  rw [continuesName, Bool.or_eq_false_iff] at hnot
  exact hnot.1

theorem isLegal_scalarTypeName (s : Scalar) : isLegal (scalarTypeName s) = true := by
  cases s <;> decide

theorem toList_text_map_append (key value : TypeExpr) (rest : List Char) :
    (TypeExpr.map key value).text.toList ++ rest =
      "Map".toList ++ '<' :: (key.text.toList ++ (", ".toList ++
        (value.text.toList ++ (">".toList ++ rest)))) := by
  simp [TypeExpr.text]

/-- **The expression of a type is read** as itself, with the brackets behind it. -/
theorem readTypeExpr?_append (type : AbiType) {fuel : Nat} (hfuel : type.depth ≤ fuel)
    (hrest : Text.StopsRun continuesName rest) :
    readTypeExpr? fuel ((typeExpr type).text.toList ++ rest) =
      some (readSuffix (typeExpr type) rest) := by
  induction type generalizing fuel rest with
  | scalar s =>
    obtain ⟨fuel, rfl⟩ := Nat.exists_eq_add_of_le' (show 1 ≤ fuel from hfuel)
    have hword := readWord?_append (isLegal_scalarTypeName s) (stopsRun_isPart hrest)
    refine bind_eq_some hword ?_
    dsimp only
    split
    case h_1 => exact absurd (hrest '<' rfl) (by decide)
    case h_2 => rfl
  -- The brackets of a list are read behind its elements, together with those that follow.
  | array element ih =>
    rw [AbiType.depth] at hfuel
    have hbrackets : Text.StopsRun continuesName ('[' :: ']' :: rest) :=
      Text.stopsRun_cons (by decide)
    have htext : (typeExpr (.array element)).text.toList ++ rest =
        (typeExpr element).text.toList ++ '[' :: ']' :: rest := by
      simp [typeExpr, TypeExpr.text]
    rw [htext, ih (by omega) hbrackets]
    rfl
  | map key value ihk ihv =>
    rw [AbiType.depth] at hfuel
    obtain ⟨fuel, rfl⟩ := Nat.exists_eq_add_of_le' (show 1 ≤ fuel by omega)
    have hword : ∀ inner, readWord? ("Map".toList ++ '<' :: inner) = some ("Map", '<' :: inner) :=
      fun inner ↦ readWord?_append (by decide) (Text.stopsRun_cons (by decide))
    have hkey : Text.StopsRun continuesName (", ".toList ++
        ((typeExpr value).text.toList ++ (">".toList ++ rest))) := Text.stopsRun_cons (by decide)
    have hvalue : Text.StopsRun continuesName (">".toList ++ rest) :=
      Text.stopsRun_cons (by decide)
    rw [typeExpr, toList_text_map_append]
    refine bind_eq_some (hword _) ?_
    show (if "Map" = "Map" then (readTypeExpr? fuel _ >>= _) else none) = _
    rw [if_pos rfl]
    refine bind_eq_some (ihk (by omega) hkey) ?_
    refine bind_eq_some (after?_append _ _) ?_
    refine bind_eq_some (ihv (by omega) hvalue) ?_
    refine bind_eq_some (after?_append _ _) ?_
    rfl

theorem depth_le_length_typeExpr (type : AbiType) :
    type.depth ≤ (typeExpr type).text.toList.length := by
  induction type with
  | scalar s => cases s <;> decide
  | array element ih =>
    simp only [AbiType.depth, typeExpr, TypeExpr.text, String.toList_append, List.length_append]
    have hbrackets : "[]".toList.length = 2 := rfl
    omega
  | map key value ihk ihv =>
    simp only [AbiType.depth, typeExpr, TypeExpr.text, String.toList_append, List.length_append]
    have hname : "Map<".toList.length = 4 := rfl
    omega

/-- **The expression of a type is read back** from its text. -/
theorem wholeTypeExpr?_typeExpr (type : AbiType) :
    wholeTypeExpr? (typeExpr type).text = some (typeExpr type) := by
  have hnil : Text.StopsRun continuesName [] := fun _ h ↦ absurd h (by simp)
  have hread := readTypeExpr?_append type (depth_le_length_typeExpr type) hnil
  rw [List.append_nil] at hread
  rw [wholeTypeExpr?, hread]
  rfl

end ContractBindings.Encoding
