import ContractBindings.Proofs.Binding.Sketch
import ContractBindings.Proofs.Text.Splitting

/-!
# Identifiers in a text

The identifiers that occur in a text are its longest pieces without a character that cannot stand in
one. Everything about them follows from one equation: a text is cut at each such character
(`identifiers_append`). A type expression is put together with brackets and commas, so the names in
it are those of the scalars in its type, and `Map`; in particular an alias occurs in the expression
exactly if its scalar does in the type (`mem_identifiers_typeExpr`).
-/

namespace ContractBindings.Identifier

open Binding

/-- The identifiers that occur in a text, in order. -/
def identifiers (text : List Char) : List String :=
  ((Text.splitWhere (fun c ↦ !isPart c) text).filter fun word ↦ !word.isEmpty).map String.ofList

/-- **No identifier goes beyond a character that cannot stand in one.** -/
theorem identifiers_append {c : Char} (hc : isPart c = false) (s rest : List Char) :
    identifiers (s ++ c :: rest) = identifiers s ++ identifiers rest := by
  have hseparator : (!isPart c) = true := by rw [hc, Bool.not_false]
  rw [identifiers, Text.splitWhere_append (fun c ↦ !isPart c) hseparator, List.filter_append,
    List.map_append]
  rfl

theorem identifiers_of_isLegal {name : String} (h : isLegal name = true) :
    identifiers name.toList = [name] := by
  have hparts : ∀ c ∈ name.toList, (!isPart c) = false := fun c hc ↦ by
    rw [over_of_isLegal h c hc, Bool.not_true]
  obtain ⟨c, rest, heq, -⟩ := exists_cons_of_isLegalChars h
  rw [identifiers, Text.splitWhere_of_forall hparts, heq]
  show [String.ofList (c :: rest)] = [name]
  rw [← heq, String.ofList_toList]

/-! ### Type expressions -/

theorem identifiers_list (element : TypeExpr) :
    identifiers element.list.text.toList = identifiers element.text.toList := by
  have htext : element.list.text.toList = element.text.toList ++ '[' :: [']'] := by
    rw [TypeExpr.text, String.toList_append]
    rfl
  have hrest : identifiers [']'] = [] := by decide
  rw [htext, identifiers_append (by decide), hrest, List.append_nil]

theorem identifiers_map (key value : TypeExpr) :
    identifiers (key.map value).text.toList =
      "Map" :: (identifiers key.text.toList ++ identifiers value.text.toList) := by
  have htext : (key.map value).text.toList =
      "Map".toList ++ '<' :: (key.text.toList ++ ',' :: ([] ++ ' ' ::
        (value.text.toList ++ '>' :: []))) := by
    simp only [TypeExpr.text, String.toList_append, List.append_assoc]
    rfl
  have hnone : identifiers [] = [] := rfl
  rw [htext, identifiers_append (by decide), identifiers_append (by decide),
    identifiers_append (by decide), identifiers_append (by decide), hnone, List.append_nil,
    identifiers_of_isLegal (by decide)]
  rfl

/-- **An alias occurs in a type expression exactly if its scalar occurs in the type.** -/
theorem mem_identifiers_typeExpr {s : Scalar} (hs : s ∈ aliased) (type : AbiType) :
    s.name ∈ identifiers (typeExpr type).text.toList ↔ mentions s type = true := by
  induction type with
  | scalar t =>
    have hlegal : isLegal (scalarTypeName t) = true := by cases t <;> decide
    have hnames : ∀ s ∈ aliased, s.name = scalarTypeName t ↔ (t == s) = true := by
      cases t <;> decide
    show s.name ∈ identifiers (scalarTypeName t).toList ↔ (t == s) = true
    rw [identifiers_of_isLegal hlegal, List.mem_singleton]
    exact hnames s hs
  | array element ih =>
    show s.name ∈ identifiers (typeExpr element).list.text.toList ↔ mentions s element = true
    rw [identifiers_list, ih]
  | map key value ihk ihv =>
    have hmap : s.name ≠ "Map" := by cases s <;> decide
    show s.name ∈ identifiers ((typeExpr key).map (typeExpr value)).text.toList ↔
      (mentions s key || mentions s value) = true
    rw [identifiers_map, List.mem_cons, List.mem_append, ihk, ihv, Bool.or_eq_true]
    exact or_iff_right hmap

end ContractBindings.Identifier
