import ContractBindings.Proofs.Module.Layout

/-!
# Where comments end

A comment goes on to the first star with a slash behind it, so it says what it was given exactly if
its text holds no such pair but the last. `ClosesOnce` says that of a text, and says what stands
behind the pair: a line feed behind a block of documentation, nothing behind a comment that is a
line of its own.

What stands in front of the pair ends no comment (`Unclosed`), and that is all that is needed: a
slash begins no pair, so none can begin within the last one (`Unclosed.closesOnce`). It holds of
everything that is put in front, whatever the raw text is, because a blank or a line feed stands at
each place where fixed and raw text meet.
-/

namespace ContractBindings.Module

open Binding
open Text (Over)

/-- A text in which a comment ends once, with `rest` behind that end. -/
structure ClosesOnce (s rest : List Char) : Prop where
  closes : ∃ front, s = front ++ '*' :: '/' :: rest
  only : ∀ front after, s = front ++ '*' :: '/' :: after → after = rest

theorem Unclosed.ne {s : String} (h : Unclosed s) (front after : List Char) :
    s.toList ≠ front ++ '*' :: '/' :: after := by
  intro heq
  rw [Unclosed, heq, List.isChain_append_cons_cons] at h
  exact h.2.1 rfl rfl

/-- **A comment ends where it is closed**, if its text ends no comment. -/
theorem Unclosed.closesOnce {s : String} (h : Unclosed s) {rest : List Char} (hrest : '*' ∉ rest) :
    ClosesOnce (s.toList ++ '*' :: '/' :: rest) rest := by
  refine ⟨⟨s.toList, rfl⟩, fun front after heq ↦ ?_⟩
  rcases List.append_eq_append_iff.1 heq with ⟨middle, -, hend⟩ | ⟨middle, hs, hend⟩
  · -- Another end would begin in this one or behind it.
    match middle with
    | [] => exact (List.cons.inj (List.cons.inj hend).2).2.symm
    | [c] => cases hend
    | c :: d :: middle =>
      rw [(List.cons.inj (List.cons.inj hend).2).2] at hrest
      exact absurd (List.mem_append_right middle List.mem_cons_self) hrest
  · -- Or it would begin in the text.
    match middle with
    | [] => exact (List.cons.inj (List.cons.inj hend).2).2
    | [c] => cases hend
    | c :: d :: middle =>
      obtain ⟨rfl, htail⟩ := List.cons.inj hend
      obtain ⟨rfl, -⟩ := List.cons.inj htail
      exact absurd hs (h.ne front middle)

/-! ### Blocks of documentation -/

section Documentation

variable {indent : String}

theorem toList_docBlock (indent : String) (lines : List String) :
    (docBlock indent lines).text.toList =
      (Lines.text ((indent ++ "/**") :: lines.map fun line ↦ indent ++ " * " ++ sanitize line) ++
        indent ++ " ").toList ++ '*' :: '/' :: ['\n'] := by
  have hclose : (" */" : String).toList = [' ', '*', '/'] := rfl
  have hblank : (" " : String).toList = [' '] := rfl
  have hfeed : ("\n" : String).toList = ['\n'] := rfl
  simp only [docBlock, Lines.text_append, Lines.text_cons, Lines.text_nil, String.toList_append,
    List.append_assoc, hclose, hblank, hfeed]
  rfl

theorem closesOnce_docBlock (h : Over (· == ' ') indent) (lines : List String) :
    ClosesOnce (docBlock indent lines).text.toList ['\n'] := by
  rw [toList_docBlock]
  refine Unclosed.closesOnce (.append_of_over (.append_of_over (.text ?_) (h.bne rfl))
    (.literal rfl)) (by decide)
  refine List.forall_mem_cons.2 ⟨.over_append (h.bne rfl) (.literal (by decide)), ?_⟩
  exact List.forall_mem_map.2 fun line _ ↦ unclosed_docLine (h.bne rfl) line

theorem count_lineFeed_docBlock (h : Over (· == ' ') indent) (lines : List String) :
    (docBlock indent lines).text.toList.count '\n' = lines.length + 2 := by
  rw [count_lineFeed_text fun line hline ↦ (over_docBlock h lines line hline).not_mem rfl]
  simp [docBlock]

theorem carriageReturn_not_mem_docBlock (h : Over (· == ' ') indent) (lines : List String) :
    '\r' ∉ (docBlock indent lines).text.toList := by
  have htext : Over (· != '\r') (docBlock indent lines).text := by
    refine .join (List.forall_mem_map.2 fun line hline ↦ ?_)
    exact ((over_docBlock h lines line hline).bne rfl).append (.literal rfl)
  exact htext.not_mem rfl

end Documentation

/-! ### The top of a module -/

section Header

variable {p : Plan} {description : List Char}

theorem closesOnce_comment {content : String} (h : Unclosed content) :
    ClosesOnce (comment content).toList [] := by
  have heq : (comment content).toList =
      ("/* " ++ content ++ " ").toList ++ '*' :: '/' :: [] := by
    rw [comment]
    simp only [String.toList_append, List.append_assoc]
    rfl
  rw [heq]
  refine Unclosed.closesOnce (.append_of_over (.append (.literal (by decide)) h ?_) (.literal rfl))
    List.not_mem_nil
  decide

/-- Nothing that the comments at the top say ends one of them. -/
theorem unclosed_headerContents (h : description.all (· != '*') = true) :
    ∀ content ∈ headerContents p (String.ofList description), Unclosed content := by
  refine forall_mem_headerContents (.of_over ?_) (.of_over (.append (.literal rfl) (.literal rfl)))
    ?_ fun hash ↦ .of_over (.append (.literal rfl) ((over_hash hash).bne (by decide)))
  · exact .append (.append (.append (.literal rfl) (.literal rfl)) (.literal rfl)) (.literal h)
  · simp only [List.forall_mem_cons]
    exact ⟨unclosed_label rfl, unclosed_label rfl, List.forall_mem_nil _⟩

theorem length_headerContents (p : Plan) (description : String) :
    (headerContents p description).length =
      3 + (if p.supportedStandards.isEmpty then 0 else 1) +
        (if p.scriptHash.isSome then 1 else 0) := by
  rw [headerContents, List.length_append, List.length_append]
  congr 1
  · split <;> rfl
  · cases p.scriptHash <;> rfl

/-- The top of a module is taken apart into its comments and an empty line. -/
theorem moduleLines_header (h : description.all (· != '\n') = true) :
    moduleLines (header p (String.ofList description)).text =
      (headerContents p (String.ofList description)).map (fun content ↦ (comment content).toList) ++
        [[], []] := by
  have hlines : ∀ line ∈ header p (String.ofList description), '\n' ∉ line.toList :=
    fun line hline ↦ (preface_header h line hline).oneLine.not_mem rfl
  rw [moduleLines, splitOn_text hlines, header_eq, List.map_append, List.map_map, List.append_assoc]
  rfl

theorem exists_comments_header (hfeed : description.all (· != '\n') = true)
    (hstar : description.all (· != '*') = true) :
    ∃ comments : List (List Char),
      moduleLines (header p (String.ofList description)).text = comments ++ [[], []] ∧
      comments.length = 3 + (if p.supportedStandards.isEmpty then 0 else 1) +
        (if p.scriptHash.isSome then 1 else 0) ∧
      ∀ line ∈ comments, ClosesOnce line [] := by
  refine ⟨_, moduleLines_header hfeed, ?_, List.forall_mem_map.2 fun content hcontent ↦ ?_⟩
  · rw [List.length_map, length_headerContents]
  · exact closesOnce_comment (unclosed_headerContents hstar content hcontent)

end Header

/-- **Comments end where they are closed.** A block of documentation behind an indent of blanks ends
once, in front of its last line feed, whatever its lines say; it has the line breaks between its
lines and no others. The top of a module that is described as one of the two modules are is a line
for each comment and an empty one, and each comment ends once, at the end of its line. -/
theorem comments_close_once :
    (∀ (indent : String) (lines : List String), (∀ c ∈ indent.toList, c = ' ') →
      ClosesOnce (docBlock indent lines).text.toList ['\n'] ∧
      (docBlock indent lines).text.toList.count '\n' = lines.length + 2 ∧
      '\r' ∉ (docBlock indent lines).text.toList) ∧
    ∀ (p : Plan) (description : String),
      description ∈ ["typed contract client", "generic invoker implementation"] →
      ∃ comments : List (List Char),
        moduleLines (header p description).text = comments ++ [[], []] ∧
        comments.length = 3 + (if p.supportedStandards.isEmpty then 0 else 1) +
          (if p.scriptHash.isSome then 1 else 0) ∧
        ∀ line ∈ comments, ClosesOnce line [] := by
  refine ⟨fun indent lines hindent ↦ ?_, fun p description hdescription ↦ ?_⟩
  · have h : Over (· == ' ') indent := fun c hc ↦ beq_iff_eq.2 (hindent c hc)
    exact ⟨closesOnce_docBlock h lines, count_lineFeed_docBlock h lines,
      carriageReturn_not_mem_docBlock h lines⟩
  · rcases List.mem_pair.1 hdescription with rfl | rfl
    · exact exists_comments_header rfl rfl
    · exact exists_comments_header rfl rfl

/-- Lines that would end their comment, alone or together with what stands around them. -/
theorem comments_close_once_hostile :
    let lines := ["evil */ code\r\nhere", "/", "**/*"]
    let p : Plan := ⟨"Vault", "/*/\n*/*", none, false, ["*", "/*"], [], [], []⟩
    (∀ c ∈ "  ".toList, c = ' ') ∧
    ClosesOnce (docBlock "  " lines).text.toList ['\n'] ∧
    (docBlock "  " lines).text =
      "  /**\n   * evil *\\/ code  here\n   * /\n   * **\\/*\n   */\n" ∧
    "typed contract client" ∈ ["typed contract client", "generic invoker implementation"] ∧
    (∃ comments : List (List Char),
      moduleLines (header p "typed contract client").text = comments ++ [[], []] ∧
      comments.length = 4 ∧ ∀ line ∈ comments, ClosesOnce line []) := by
  intro lines p
  have hblanks : Over (· == ' ') "  " := .literal rfl
  have hindent : ∀ c ∈ "  ".toList, c = ' ' := fun c hc ↦ eq_of_beq (hblanks c hc)
  have hdescription : "typed contract client" ∈
      ["typed contract client", "generic invoker implementation"] := List.mem_cons_self
  exact ⟨hindent, (comments_close_once.1 "  " lines hindent).1, by decide +kernel, hdescription,
    comments_close_once.2 p _ hdescription⟩

end ContractBindings.Module
