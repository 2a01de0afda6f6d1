import ContractBindings.Proofs.Json.StringLiteral
import ContractBindings.Proofs.Module.Comment
import ContractBindings.Proofs.Text.Alphabet

/-!
# Lexing modules

A reader of modules that knows three states: code, block comments and double-quoted strings. The
*skeleton* of a text is what it reads in code, with a mark for each comment and each string. Texts
with one skeleton differ only in what they say and quote.

Skeletons are not compared character by character. A text is *closed* if the lexer, entering it in
code, leaves it in code whatever follows, having read items that do not depend on what follows
either (`Closed`). Closed texts with equal items may be put together from closed pieces with equal
items, and `Alike` is the relation that this gives: two literals are alike, two comments whose
content cannot close them are alike, and a text of plain code is alike itself. The two runs of a
comparison thus go through one derivation.

Inside a comment the pieces are those that the lexer passes without leaving it (`Passes`). A text
that ends no comment is one, unless its last character could do so together with what follows
(`Passes.of_unclosed`).
-/

namespace ContractBindings.Module

open Text (Over)

/-- Where a lexer of modules stands. -/
inductive LexState where
  | code
  | comment
  | string
  deriving DecidableEq, Repr

/-- What a skeleton consists of. -/
inductive Item where
  | code (c : Char)
  | comment
  | string
  deriving DecidableEq, Repr

/-- What is read before something else. -/
def Item.before (item : Item) (r : List Item × LexState) : List Item × LexState :=
  (item :: r.1, r.2)

/-- The items of a text that is entered in a state, and the state in which it is left. -/
def lex : LexState → List Char → List Item × LexState
  | state, [] => ([], state)
  | .code, '/' :: '*' :: rest => Item.comment.before (lex .comment rest)
  | .code, '"' :: rest => Item.string.before (lex .string rest)
  | .code, c :: rest => (Item.code c).before (lex .code rest)
  | .comment, '*' :: '/' :: rest => lex .code rest
  | .comment, _ :: rest => lex .comment rest
  | .string, '\\' :: _ :: rest => lex .string rest
  | .string, '"' :: rest => lex .code rest
  | .string, _ :: rest => lex .string rest

/-- The skeleton of a module. -/
def skeleton (text : String) : List Item :=
  (lex .code text.toList).1

/-- The state in which a module is left. -/
def endState (text : String) : LexState :=
  (lex .code text.toList).2

/-! ### Steps -/

variable {c d : Char} {rest : List Char}

theorem lex_code_cons (hslash : c ≠ '/') (hquote : c ≠ '"') (rest : List Char) :
    lex .code (c :: rest) = (Item.code c).before (lex .code rest) := by
  rw [lex]
  · intro tail h
    cases h
    exact absurd rfl hslash
  · intro h
    exact hquote h

/-- In a comment only a star before a slash counts. -/
theorem lex_comment_cons (h : c = '*' → rest.head? ≠ some '/') :
    lex .comment (c :: rest) = lex .comment rest := by
  rw [lex]
  intro tail hc heq
  rw [heq] at h
  exact h hc rfl

theorem lex_string_cons (hback : c ≠ '\\') (hquote : c ≠ '"') (rest : List Char) :
    lex .string (c :: rest) = lex .string rest := by
  rw [lex]
  · intro e tail h
    cases h
    exact absurd rfl hback
  · intro h
    exact hquote h

/-- A written character does not end its string. -/
theorem lex_string_written {w : List Char} (h : Json.Written c w) (rest : List Char) :
    lex .string (w ++ rest) = lex .string rest := by
  cases h with
  | itself hquote hback hcontrol => exact lex_string_cons hback hquote rest
  | short d hd hu => rfl
  | control hcontrol =>
    obtain ⟨-, hquote, hback, -⟩ := Json.hexDigit_spec (c.toNat / 16) (by omega)
    obtain ⟨-, hquote', hback', -⟩ := Json.hexDigit_spec (c.toNat % 16) (by omega)
    -- The backslash takes the letter behind it; the four digits are plain.
    show lex .string ('0' :: '0' :: Hex.digit (c.toNat / 16) :: Hex.digit (c.toNat % 16) ::
      rest) = _
    rw [lex_string_cons (by decide) (by decide), lex_string_cons (by decide) (by decide),
      lex_string_cons hback hquote, lex_string_cons hback' hquote']

/-! ### Composition -/

/-- A character that does not begin a pair. -/
def isSingle (c : Char) : Bool :=
  c != '/' && c != '*' && c != '\\'

/-- A text that does not end in the middle of a pair. -/
abbrev Settled (s : List Char) : Prop :=
  s.getLast?.all isSingle = true

theorem Settled.tail (h : Settled (c :: rest)) : Settled rest := by
  rw [Settled, List.getLast?_cons] at h
  cases hlast : rest.getLast? with
  | none => rw [Settled, hlast, Option.all_none]
  | some d =>
    rw [hlast] at h
    rw [Settled, hlast]
    exact h

/-- What begins a pair is not the last character of a settled text. -/
theorem Settled.exists_cons (h : Settled (c :: rest)) (hc : isSingle c = false) :
    ∃ d more, rest = d :: more := by
  cases rest with
  | nil =>
    have hsingle : isSingle c = true := h
    rw [hc] at hsingle
    cases hsingle
  | cons d more => exact ⟨d, more, rfl⟩

/-- **Texts are lexed one after the other**, if the first is settled. -/
theorem lex_append (state : LexState) {s : List Char} (hs : Settled s) (t : List Char) :
    lex state (s ++ t) =
      ((lex state s).1 ++ (lex (lex state s).2 t).1, (lex (lex state s).2 t).2) := by
  fun_induction lex state s with
  | case1 state => rfl
  | case2 rest ih =>
    show Item.comment.before (lex .comment (rest ++ t)) = _
    rw [ih hs.tail.tail]
    rfl
  | case3 rest ih =>
    show Item.string.before (lex .string (rest ++ t)) = _
    rw [ih hs.tail]
    rfl
  | case4 c rest hpair hquote ih =>
    have hstep : lex .code (c :: (rest ++ t)) = (Item.code c).before (lex .code (rest ++ t)) := by
      -- Only a slash could begin a pair, and behind a slash `s` has a character of its own.
      by_cases hc : c = '/'
      · obtain ⟨d, more, rfl⟩ := hs.exists_cons (by rw [hc]; rfl)
        rw [List.cons_append, lex]
        · rintro tail rfl hd
          obtain ⟨rfl, rfl⟩ := List.cons_eq_cons.1 hd
          exact hpair more hc rfl
        · exact hquote
      · exact lex_code_cons hc hquote _
    rw [List.cons_append, hstep, ih hs.tail]
    rfl
  | case5 rest ih => exact ih hs.tail.tail
  | case6 c rest hpair ih =>
    have hstep : lex .comment (c :: (rest ++ t)) = lex .comment (rest ++ t) := by
      refine lex_comment_cons fun hc ↦ ?_
      obtain ⟨d, more, rfl⟩ := hs.exists_cons (by rw [hc]; rfl)
      rintro hd
      obtain rfl : d = '/' := by simpa using hd
      exact hpair more hc rfl
    rw [List.cons_append, hstep, ih hs.tail]
  | case7 c rest ih => exact ih hs.tail.tail
  | case8 rest ih => exact ih hs.tail
  | case9 c rest hpair hquote ih =>
    have hback : c ≠ '\\' := by
      intro hc
      obtain ⟨d, more, rfl⟩ := hs.exists_cons (by rw [hc]; rfl)
      exact hpair d more hc rfl
    rw [List.cons_append, lex_string_cons hback hquote, ih hs.tail]

/-! ### Pieces of comments -/

/-- A text that the lexer passes inside a comment, whatever follows. -/
def Passes (s : String) : Prop :=
  ∀ rest, lex .comment (s.toList ++ rest) = lex .comment rest

/-- **A text that ends no comment is passed**, if it does not end in a star. -/
theorem Passes.of_unclosed {s : String} (h : Unclosed s) (hlast : s.toList.getLast? ≠ some '*') :
    Passes s := by
  intro rest
  suffices hlist : ∀ l : List Char, (l.IsChain fun a b ↦ a = '*' → b ≠ '/') →
      l.getLast? ≠ some '*' → lex .comment (l ++ rest) = lex .comment rest from
    hlist s.toList h hlast
  intro l hl hlast
  induction l with
  | nil => rfl
  | cons c l ih =>
    cases l with
    | nil => exact lex_comment_cons fun hc ↦ absurd (congrArg some hc) hlast
    | cons d l =>
      obtain ⟨hcd, hl⟩ := List.isChain_cons_cons.1 hl
      rw [List.getLast?_cons_cons] at hlast
      rw [List.cons_append, lex_comment_cons fun hc ↦ ?_, ih hl hlast]
      exact fun hd ↦ hcd hc (Option.some.inj hd)

/-! ### Pieces of code -/

/-- A text that is read from code to code with the same items, whatever follows. -/
def Closed (s : String) (items : List Item) : Prop :=
  ∀ rest, lex .code (s.toList ++ rest) = (items ++ (lex .code rest).1, (lex .code rest).2)

namespace Closed

variable {s t : String} {items items' : List Item}

theorem append (hs : Closed s items) (ht : Closed t items') :
    Closed (s ++ t) (items ++ items') := by
  intro rest
  rw [String.toList_append, List.append_assoc, hs, ht, List.append_assoc]

theorem literal {l : List Char} (hs : Settled l) (h : (lex .code l).2 = .code) :
    Closed (String.ofList l) (lex .code l).1 := by
  intro rest
  rw [String.toList_ofList, lex_append .code hs, h]

/-- Text that holds neither a slash nor a quote is code. -/
theorem of_over (h : Over (fun c ↦ c != '/' && c != '"') s) : Closed s (s.toList.map .code) := by
  intro rest
  suffices hlist : ∀ l : List Char, (∀ c ∈ l, (c != '/' && c != '"') = true) →
      lex .code (l ++ rest) = (l.map Item.code ++ (lex .code rest).1, (lex .code rest).2) from
    hlist s.toList h
  intro l hl
  induction l with
  | nil => rfl
  | cons c l ih =>
    have hc : c ≠ '/' ∧ c ≠ '"' := by simpa using hl c List.mem_cons_self
    rw [List.cons_append, lex_code_cons hc.1 hc.2, ih fun d hd ↦ hl d (List.mem_cons_of_mem _ hd)]
    rfl

/-- A comment is one item, if the lexer passes its content. -/
theorem comment (h : Passes s) : Closed ("/*" ++ s ++ "*/") [.comment] := by
  intro rest
  have hopen : "/*".toList = ['/', '*'] := rfl
  have hclose : "*/".toList = ['*', '/'] := rfl
  rw [String.toList_append, String.toList_append, hopen, hclose, List.append_assoc,
    List.append_assoc]
  show Item.comment.before (lex .comment (s.toList ++ '*' :: '/' :: rest)) = _
  rw [h]
  rfl

/-- A string literal is one item. -/
theorem stringLiteral (s : String) : Closed (Json.stringLiteral s) [.string] := by
  intro rest
  suffices hbody : ∀ l : List Char,
      lex .string (l.flatMap Json.escapeChar ++ '"' :: rest) = lex .code rest by
    rw [Json.stringLiteral, String.toList_ofList, Json.stringChars, List.append_assoc]
    show Item.string.before (lex .string (s.toList.flatMap Json.escapeChar ++ '"' :: rest)) = _
    rw [hbody]
    rfl
  intro l
  -- The lexer does not see where one escape ends and the next begins, so this goes by characters
  -- of the source.
  induction l with
  | nil => rfl
  | cons c l ih =>
    rw [List.flatMap_cons, List.append_assoc, ← ih]
    exact lex_string_written (Json.written_escapeChar c) _

end Closed

/-! ### Two runs -/

/-- Texts that are both read from code to code, with the same items. -/
def Alike (s t : String) : Prop :=
  ∃ items, Closed s items ∧ Closed t items

namespace Alike

variable {s t s' t' : String}

theorem append (h : Alike s t) (h' : Alike s' t') : Alike (s ++ s') (t ++ t') := by
  obtain ⟨items, hs, ht⟩ := h
  obtain ⟨items', hs', ht'⟩ := h'
  exact ⟨items ++ items', hs.append hs', ht.append ht'⟩

theorem of_over {p : Char → Bool} (h : Over p s) (hslash : p '/' = false) (hquote : p '"' = false) :
    Alike s s := by
  have hplain : Over (fun c ↦ c != '/' && c != '"') s := by
    refine h.mono fun c hc ↦ ?_
    simp only [Bool.and_eq_true, bne_iff_ne, ne_eq]
    constructor
    · rintro rfl
      simp [hslash] at hc
    · rintro rfl
      simp [hquote] at hc
  exact ⟨_, .of_over hplain, .of_over hplain⟩

/-- A fixed piece of code that holds neither a slash nor a quote. -/
theorem code {l : List Char} (h : l.all (fun c ↦ c != '/' && c != '"') = true) :
    Alike (String.ofList l) (String.ofList l) :=
  .of_over (.literal h) rfl rfl

theorem stringLiteral (s t : String) : Alike (Json.stringLiteral s) (Json.stringLiteral t) :=
  ⟨_, .stringLiteral s, .stringLiteral t⟩

theorem comment (hs : Passes s) (ht : Passes t) :
    Alike ("/*" ++ s ++ "*/") ("/*" ++ t ++ "*/") :=
  ⟨_, .comment hs, .comment ht⟩

/-- Texts that are alike have one skeleton. -/
theorem skeleton_eq (h : Alike s t) : skeleton s = skeleton t := by
  obtain ⟨items, hs, ht⟩ := h
  have hs' := hs []
  have ht' := ht []
  rw [List.append_nil] at hs' ht'
  rw [skeleton, skeleton, hs', ht']

/-- Texts that are alike are left in code. -/
theorem endState_eq (h : Alike s t) : endState s = .code ∧ endState t = .code := by
  obtain ⟨items, hs, ht⟩ := h
  have hs' := hs []
  have ht' := ht []
  rw [List.append_nil] at hs' ht'
  rw [endState, endState, hs', ht']
  exact ⟨rfl, rfl⟩

end Alike

end ContractBindings.Module
