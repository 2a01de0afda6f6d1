import ContractBindings.Proofs.Binding.Spelled
import ContractBindings.Proofs.Json.StringLiteral

/-!
# Readers of lines

The readers that take a line of a module apart: what stands behind or in front of a fixed piece,
what stands in front of a character, a string literal, and the items of a list. Each is defined by
recursion on the characters, knows nothing about how modules are written, and has one lemma that
says what it does with a text whose pieces are known.

Lists are split at the commas outside brackets of one kind. That the commas inside types do not
count is a property of what they are written from: `Level n s` says that a splitter that is `n`
brackets deep or deeper passes `s` without splitting it. What is level one bracket deep is level
outside once it is enclosed (`Level.enclosed`), and the induction on types goes through with that
(`level_typeExpr`).
-/

namespace ContractBindings.Module

open Binding Identifier
open Text (Over)

/-! ### Fixed pieces and marks -/

/-- What stands behind a fixed piece. -/
def after? : (piece : List Char) → List Char → Option (List Char)
  | [], s => some s
  | c :: piece, d :: s => if c = d then after? piece s else none
  | _ :: _, [] => none

/-- What stands in front of a fixed piece at the end. -/
def before? (piece s : List Char) : Option (List Char) :=
  (after? piece.reverse s.reverse).map List.reverse

/-- What stands in front of the first occurrence of a character, and what stands behind it. -/
def upTo? (mark : Char) : List Char → Option (List Char × List Char)
  | [] => none
  | c :: s => if c = mark then some ([], s) else (upTo? mark s).map fun r ↦ (c :: r.1, r.2)

theorem after?_eq_some_iff {piece s rest : List Char} :
    after? piece s = some rest ↔ s = piece ++ rest := by
  fun_induction after? piece s with
  | case1 s => rw [Option.some.injEq, List.nil_append]
  | case2 piece d s ih => rw [ih, List.cons_append, List.cons_eq_cons, and_iff_right rfl]
  | case3 c piece d s hne =>
    rw [List.cons_append, List.cons_eq_cons]
    constructor
    · rintro ⟨⟩
    · rintro ⟨rfl, -⟩
      exact absurd rfl hne
  | case4 c piece =>
    constructor
    · rintro ⟨⟩
    · rintro ⟨⟩

theorem after?_append (piece rest : List Char) : after? piece (piece ++ rest) = some rest :=
  after?_eq_some_iff.2 rfl

theorem after?_eq_none_iff {piece s : List Char} : after? piece s = none ↔ ¬ piece <+: s := by
  rw [Option.eq_none_iff_forall_ne_some, ← not_exists]
  refine not_congr (exists_congr fun t ↦ ?_)
  rw [after?_eq_some_iff, eq_comm]

/-- A text that differs from a piece goes on to differ from it. -/
theorem not_isPrefix_append {piece s : List Char} (hpiece : ¬ piece <+: s) (hs : ¬ s <+: piece)
    (rest : List Char) : ¬ piece <+: s ++ rest := by
  intro h
  -- Of two beginnings of one text, one is a beginning of the other.
  rcases List.prefix_or_prefix_of_prefix h (List.prefix_append s rest) with h | h
  · exact hpiece h
  · exact hs h

theorem after?_eq_none {piece s : List Char} (hpiece : ¬ piece <+: s) (hs : ¬ s <+: piece)
    (rest : List Char) : after? piece (s ++ rest) = none :=
  after?_eq_none_iff.2 (not_isPrefix_append hpiece hs rest)

/-- A text that begins otherwise than a mark, whatever is put behind it. -/
def Differs (mark : List Char) (s : String) : Prop :=
  ∀ t, ¬ mark <+: s.toList ++ t

theorem Differs.literal {mark l : List Char} (h : ¬ mark <+: l ∧ ¬ l <+: mark) :
    Differs mark (String.ofList l) := by
  intro t
  rw [String.toList_ofList]
  exact not_isPrefix_append h.1 h.2 t

theorem Differs.append {mark : List Char} {s : String} (h : Differs mark s) (t : String) :
    Differs mark (s ++ t) := by
  intro u
  rw [String.toList_append, List.append_assoc]
  exact h _

theorem before?_append (s piece : List Char) : before? piece (s ++ piece) = some s := by
  rw [before?, List.reverse_append, after?_append, Option.map_some, List.reverse_reverse]

theorem upTo?_append {mark : Char} {s : List Char} (h : mark ∉ s) (rest : List Char) :
    upTo? mark (s ++ mark :: rest) = some (s, rest) := by
  induction s with
  | nil => rw [List.nil_append, upTo?, if_pos rfl]
  | cons c s ih =>
    obtain ⟨hc, hs⟩ := not_or.1 (mt List.mem_cons.2 h)
    rw [List.cons_append, upTo?, if_neg (Ne.symm hc), ih hs]
    rfl

/-- A reader goes on with what it has read. -/
theorem bind_eq_some {α β : Type} {x : Option α} {f : α → Option β} {a : α} {b : β}
    (h : x = some a) (hf : f a = some b) : x >>= f = some b := by
  rw [h]
  exact hf

/-! ### String literals -/

/-- A string literal up to its closing quote, behind the opening one, and what stands behind it. A
backslash keeps the next character from closing the literal. -/
def closeLiteral? : List Char → Option (List Char × List Char)
  | [] => none
  | '"' :: s => some (['"'], s)
  | '\\' :: c :: s => (closeLiteral? s).map fun r ↦ ('\\' :: c :: r.1, r.2)
  | c :: s => (closeLiteral? s).map fun r ↦ (c :: r.1, r.2)

/-- A string literal, and what stands behind it. -/
def readLiteral? : List Char → Option (List Char × List Char)
  | '"' :: s => (closeLiteral? s).map fun r ↦ ('"' :: r.1, r.2)
  | _ => none

theorem closeLiteral?_cons {c : Char} (hquote : c ≠ '"') (hback : c ≠ '\\') (s : List Char) :
    closeLiteral? (c :: s) = (closeLiteral? s).map fun r ↦ (c :: r.1, r.2) := by
  rw [closeLiteral?]
  · exact hquote
  · intro d t h
    exact absurd h hback

/-- A written character does not close its literal. -/
theorem closeLiteral?_written {c : Char} {w : List Char} (h : Json.Written c w) (s : List Char) :
    closeLiteral? (w ++ s) = (closeLiteral? s).map fun r ↦ (w ++ r.1, r.2) := by
  cases h with
  | itself hquote hback hcontrol => exact closeLiteral?_cons hquote hback s
  | short d hd hu => rfl
  | control hcontrol =>
    obtain ⟨-, hquote, hback, -⟩ := Json.hexDigit_spec (c.toNat / 16) (by omega)
    obtain ⟨-, hquote', hback', -⟩ := Json.hexDigit_spec (c.toNat % 16) (by omega)
    show Option.map _ (closeLiteral? ('0' :: '0' :: _ :: _ :: s)) = _
    rw [closeLiteral?_cons (by decide) (by decide), closeLiteral?_cons (by decide) (by decide),
      closeLiteral?_cons hquote hback, closeLiteral?_cons hquote' hback']
    cases closeLiteral? s <;> rfl

/-- A written string is read as one literal, whatever it says and whatever stands behind it. -/
theorem readLiteral?_append (s : String) (rest : List Char) :
    readLiteral? ((Json.stringLiteral s).toList ++ rest) =
      some ((Json.stringLiteral s).toList, rest) := by
  have hbody : ∀ l : List Char, closeLiteral? (l.flatMap Json.escapeChar ++ '"' :: rest) =
      some (l.flatMap Json.escapeChar ++ ['"'], rest) := by
    intro l
    induction l with
    | nil => rfl
    | cons c l ih =>
      rw [List.flatMap_cons, List.append_assoc,
        closeLiteral?_written (Json.written_escapeChar c), ih, List.append_assoc]
      rfl
  rw [Json.stringLiteral, String.toList_ofList, Json.stringChars, List.append_assoc]
  show Option.map _ (closeLiteral? (s.toList.flatMap Json.escapeChar ++ '"' :: rest)) = _
  rw [hbody]
  rfl

/-! ### Lists -/

/-- Puts a character in front of the first of some parts. -/
def extend (c : Char) : List (List Char) → List (List Char)
  | [] => [[c]]
  | part :: parts => (c :: part) :: parts

/-- The parts of a text between the commas that stand outside brackets, when `depth` brackets have
been opened. -/
def splitFrom (opening closing : Char) : (depth : Nat) → List Char → List (List Char)
  | _, [] => [[]]
  | 0, ',' :: ' ' :: s => [] :: splitFrom opening closing 0 s
  | depth, c :: s =>
    let next := if c = opening then depth + 1 else if c = closing then depth - 1 else depth
    extend c (splitFrom opening closing next s)

/-- The items of a list; a text without characters has none. -/
def splitItems (opening closing : Char) (s : List Char) : List String :=
  if s = [] then [] else (splitFrom opening closing 0 s).map String.ofList

/-- A text that a splitter passes whole, if it is `least` brackets deep or deeper. -/
def Level (opening closing : Char) (least : Nat) (s : String) : Prop :=
  ∀ depth rest, least ≤ depth →
    splitFrom opening closing depth (s.toList ++ rest) =
      s.toList.foldr extend (splitFrom opening closing depth rest)

variable {opening closing : Char}

/-- Away from commas outside brackets, a character is kept and at most changes the depth. -/
theorem splitFrom_cons {depth : Nat} {c : Char} (h : c = ',' → depth ≠ 0) (s : List Char) :
    splitFrom opening closing depth (c :: s) =
      extend c (splitFrom opening closing
        (if c = opening then depth + 1 else if c = closing then depth - 1 else depth) s) := by
  rw [splitFrom]
  intro t hd hc
  exact absurd hd (h hc)

namespace Level

variable {least : Nat} {s t : String}

theorem append (hs : Level opening closing least s) (ht : Level opening closing least t) :
    Level opening closing least (s ++ t) := by
  intro depth rest hdepth
  rw [String.toList_append, List.append_assoc, hs _ _ hdepth, ht _ _ hdepth, List.foldr_append]

theorem deeper (h : Level opening closing 0 s) : Level opening closing least s :=
  fun depth rest _ ↦ h depth rest (Nat.zero_le depth)

/-- Inside brackets a text without brackets is level, outside it may hold no comma either. -/
theorem of_over {p : Char → Bool} (h : Over p s) (hopening : p opening = false)
    (hclosing : p closing = false) (hcomma : least = 0 → p ',' = false) :
    Level opening closing least s := by
  intro depth rest hdepth
  -- The depth stays as it is, so the induction needs no generalization.
  suffices hlist : ∀ l : List Char, (∀ c ∈ l, p c = true) →
      splitFrom opening closing depth (l ++ rest) =
        l.foldr extend (splitFrom opening closing depth rest) from hlist s.toList h
  intro l hl
  induction l with
  | nil => rfl
  | cons c l ih =>
    have hc := hl c List.mem_cons_self
    have hne : ∀ {d}, p d = false → c ≠ d := by
      rintro d hd rfl
      rw [hc] at hd
      cases hd
    have hpart : c = ',' → depth ≠ 0 := by
      intro heq hzero
      exact hne (hcomma (by omega)) heq
    rw [List.cons_append, splitFrom_cons hpart, if_neg (hne hopening), if_neg (hne hclosing),
      ih fun d hd ↦ hl d (List.mem_cons_of_mem _ hd)]
    rfl

/-- **What is enclosed in brackets is level** outside them. -/
theorem enclosed (h : Level opening closing 1 s) (hne : closing ≠ opening)
    (hopening : opening ≠ ',') (hclosing : closing ≠ ',') :
    Level opening closing 0 (String.singleton opening ++ s ++ String.singleton closing) := by
  intro depth rest _
  have hlist : (String.singleton opening ++ s ++ String.singleton closing).toList =
      opening :: (s.toList ++ [closing]) := by simp
  -- One bracket deeper on the way in, and back to `depth` on the way out.
  rw [hlist, List.cons_append, List.append_assoc, List.singleton_append,
    splitFrom_cons fun heq ↦ absurd heq hopening, if_pos rfl, h _ _ (Nat.le_add_left 1 depth),
    splitFrom_cons fun heq ↦ absurd heq hclosing, if_neg hne, if_pos rfl, List.foldr_cons,
    List.foldr_append]
  rfl

end Level

/-- Characters put in front of parts one after the other are put in front of the first. -/
theorem foldr_extend (s part : List Char) (parts : List (List Char)) :
    s.foldr extend (part :: parts) = (s ++ part) :: parts := by
  induction s with
  | nil => rfl
  | cons c s ih =>
    rw [List.foldr_cons, ih]
    rfl

/-- **A list is split into its items**, if each of them is level and has characters. -/
theorem splitItems_intercalate {items : List String}
    (hlevel : ∀ item ∈ items, Level opening closing 0 item) (hne : ∀ item ∈ items, item ≠ "") :
    splitItems opening closing (", ".intercalate items).toList = items := by
  -- The induction is on what follows an item, since a comma stands between two items only.
  have hsplit : ∀ item ∈ items, ∀ rest : List String, (∀ i ∈ rest, i ∈ items) →
      splitFrom opening closing 0 (", ".intercalate (item :: rest)).toList =
        (item :: rest).map String.toList := by
    intro item hitem rest hrest
    induction rest generalizing item with
    | nil =>
      have h := hlevel item hitem 0 [] (Nat.le_refl 0)
      rw [List.append_nil] at h
      rw [String.intercalate_singleton, h, splitFrom, foldr_extend, List.append_nil]
      rfl
    | cons next rest ih =>
      have hcomma : (", " : String).toList = [',', ' '] := rfl
      have hnext := ih next (hrest next List.mem_cons_self) fun i hi ↦
        hrest i (List.mem_cons_of_mem _ hi)
      rw [String.intercalate_cons_cons, String.toList_append, String.toList_append, hcomma,
        List.append_assoc, hlevel item hitem 0 _ (Nat.le_refl 0)]
      show item.toList.foldr extend ([] :: splitFrom opening closing 0
        (", ".intercalate (next :: rest)).toList) = _
      rw [foldr_extend, hnext, List.append_nil]
      rfl
  cases items with
  | nil => rfl
  | cons item rest =>
    have hitem : item.toList ≠ [] := by
      rw [ne_eq, String.toList_eq_nil_iff]
      exact hne item List.mem_cons_self
    have htext : (", ".intercalate (item :: rest)).toList ≠ [] := by
      cases rest with
      | nil => rwa [String.intercalate_singleton]
      | cons next rest => simp [String.intercalate_cons_cons, hitem]
    rw [splitItems, if_neg htext, hsplit item List.mem_cons_self rest fun i hi ↦
      List.mem_cons_of_mem _ hi, List.map_map]
    simp [Function.comp_def]

/-! ### Types and encoders are level -/

/-- Inside brackets the comma between two items is level. -/
theorem level_comma (hopening : [',', ' '].contains opening = false)
    (hclosing : [',', ' '].contains closing = false) : Level opening closing 1 ", " :=
  .of_over (p := fun c ↦ [',', ' '].contains c) (.literal rfl) hopening hclosing
    fun h ↦ absurd h (by decide)

/-- An identifier holds no brackets and no commas. -/
theorem level_ident {name : String} {least : Nat} (h : Over isPart name) :
    Level '<' '>' least name ∧ Level '(' ')' least name :=
  ⟨.of_over h (by decide) (by decide) fun _ ↦ by decide,
    .of_over h (by decide) (by decide) fun _ ↦ by decide⟩

theorem level_typeExpr (type : AbiType) : Level '<' '>' 0 (typeExpr type).text := by
  induction type with
  | scalar s =>
    have hname : Over isPart (scalarTypeName s) := by cases s <;> exact .literal rfl
    exact (level_ident hname).1
  | array element ih =>
    have hbrackets : Over (fun c ↦ c == '[' || c == ']') "[]" := .literal rfl
    exact ih.append (.of_over hbrackets (by decide) (by decide) fun _ ↦ by decide)
  | map key value ihk ihv =>
    have hmap : Over isPart "Map" := .literal rfl
    have hinside : Level '<' '>' 1 ((typeExpr key).text ++ ", " ++ (typeExpr value).text) :=
      .append (.append ihk.deeper (level_comma rfl rfl)) ihv.deeper
    have heq : (typeExpr (.map key value)).text = "Map" ++
        (String.singleton '<' ++ ((typeExpr key).text ++ ", " ++ (typeExpr value).text) ++
          String.singleton '>') := by
      show "Map<" ++ (typeExpr key).text ++ ", " ++ (typeExpr value).text ++ ">" = _
      rw [← String.toList_inj]
      simp only [String.toList_append, List.append_assoc]
      rfl
    rw [heq]
    exact .append (level_ident hmap).1 (hinside.enclosed (by decide) (by decide) (by decide))

end ContractBindings.Module
