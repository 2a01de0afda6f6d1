import ContractBindings.Proofs.Module.ClassReader
import ContractBindings.Proofs.Module.Comment

/-!
# Reading written members

What the reader of classes finds in the lines of members. A first line is read as the head that it
was written from (`readHead?_memberHead`), and no other line of a class is a first line, since the
characters behind its indent rule that out. The members of both classes have one form, a documented
head and a body, and the induction over them is made once (`readMembers?_flatMap`), for any reader
of bodies that finds something in each body whatever lines follow it.
-/

namespace ContractBindings.Module

open Binding Identifier
open Text (Over)

variable {m : PlannedMethod}

/-! ### First lines -/

/-- The head that a member is written with. -/
def memberHeadText (m : PlannedMethod) : Head :=
  ⟨m.ident, m.parameters.map (·.declaration), m.result.typeExpr.text⟩

theorem level_declaration {q : PlannedParameter} (h : q.Spelled) :
    Level '<' '>' 0 q.declaration := by
  have hcolon : Over (fun c ↦ c == ':' || c == ' ') ": " := .literal rfl
  have htype : Level '<' '>' 0 q.mapped.typeExpr.text := by
    rw [h.mapped]
    exact level_typeExpr q.type
  exact .append (.append (level_ident (over_of_isLegal h.ident)).1
    (.of_over hcolon (by decide) (by decide) fun _ ↦ by decide)) htype

/-- **A list of declarations is read as the declarations.** -/
theorem splitItems_declarations (h : m.Spelled) :
    splitItems '<' '>' m.declarations.toList = m.parameters.map (·.declaration) := by
  refine splitItems_intercalate (fun item hitem ↦ ?_) fun item hitem ↦ ?_
  · obtain ⟨q, hq, rfl⟩ := List.mem_map.1 hitem
    exact level_declaration (h.parameters q hq)
  · obtain ⟨q, -, rfl⟩ := List.mem_map.1 hitem
    intro hempty
    have hcolon : ':' ∈ q.declaration.toList := by
      rw [PlannedParameter.declaration, String.toList_append, String.toList_append]
      exact List.mem_append_left _ (List.mem_append_right _ (by decide))
    rw [hempty] at hcolon
    exact absurd hcolon (by decide)

theorem readHead?_memberHead (h : m.Spelled) :
    readHead? (memberHead m).toList = some (memberHeadText m) := by
  have htext : (memberHead m).toList = "  ".toList ++ (m.ident.toList ++ ("(".toList ++
      (m.declarations.toList ++ ')' :: (": Promise<".toList ++
        (m.result.typeExpr.text.toList ++ "> \x7b".toList))))) := by
    simp only [memberHead, String.toList_append, List.append_assoc]
    rfl
  have hident : ∀ c ∈ m.ident.toList, isPart c = true := over_of_isLegal h.ident.legal
  have hstop : ∀ rest, ("(".toList ++ rest).takeWhile isPart = [] := fun rest ↦ rfl
  have hkeep : ∀ rest, ("(".toList ++ rest).dropWhile isPart = "(".toList ++ rest := fun rest ↦ rfl
  have hparen : ')' ∉ m.declarations.toList := h.over_declarations.not_mem (by decide)
  simp only [readHead?, htext, after?_append, Option.bind_eq_bind, Option.bind_some,
    List.takeWhile_append_of_pos hident, List.dropWhile_append_of_pos hident, hstop, hkeep,
    upTo?_append hparen, before?_append, List.append_nil, splitItems_declarations h,
    String.ofList_toList]
  rfl

/-! ### Other lines -/

/-- A line whose first word is not followed by a parenthesis is no first line of a member. -/
theorem readHead?_eq_none {word rest : List Char} {c : Char} (hword : word.all isPart = true)
    (hc : isPart c = false) (hparen : c ≠ '(') :
    readHead? (' ' :: ' ' :: (word ++ c :: rest)) = none := by
  have hindent :
      after? "  ".toList (' ' :: ' ' :: (word ++ c :: rest)) = some (word ++ c :: rest) := rfl
  have hdrop : (word ++ c :: rest).dropWhile isPart = c :: rest := by
    rw [List.dropWhile_append_of_pos (List.all_eq_true.1 hword),
      List.dropWhile_cons_of_neg (by rw [hc]; decide)]
  have hafter : after? "(".toList (c :: rest) = none := by
    rw [show "(".toList = ['('] from rfl, after?, if_neg (Ne.symm hparen)]
  simp only [readHead?, hindent, Option.bind_eq_bind, Option.bind_some, hdrop, hafter,
    Option.bind_none]

/-- A text that stands deeper than first lines of members do. -/
def Indented (s : String) : Prop :=
  ∃ rest, s.toList = ' ' :: ' ' :: ' ' :: rest

theorem Indented.literal {l : List Char} : Indented (String.ofList (' ' :: ' ' :: ' ' :: l)) :=
  ⟨l, String.toList_ofList⟩

theorem Indented.append {s t : String} (h : Indented s) : Indented (s ++ t) := by
  obtain ⟨rest, hrest⟩ := h
  exact ⟨rest ++ t.toList, by rw [String.toList_append, hrest]; rfl⟩

theorem readHead?_of_indented {s : String} (h : Indented s) : readHead? s.toList = none := by
  obtain ⟨rest, hrest⟩ := h
  rw [hrest]
  show readHead? (' ' :: ' ' :: ([] ++ ' ' :: rest)) = none
  exact readHead?_eq_none rfl rfl (by decide)

/-- Documentation is no first line: behind the indent it has a blank or a slash. -/
theorem readHead?_memberDoc : ∀ line ∈ memberDoc m, readHead? line.toList = none := by
  refine forall_mem_docBlock ?_ (fun text ↦ ?_) ?_ _
  · rfl
  · have hindent : Indented ("  " ++ " * ") := ⟨['*', ' '], rfl⟩
    exact readHead?_of_indented hindent.append
  · exact readHead?_of_indented ⟨['*', '/'], rfl⟩

/-! ### Members -/

variable {α : Type} {readBody? : List (List Char) → Option α}

/-- Lines that are no first lines are passed over. -/
theorem readMembers?_append {lines : List (List Char)} (h : ∀ line ∈ lines, readHead? line = none)
    (rest : List (List Char)) :
    readMembers? readBody? (lines ++ rest) = readMembers? readBody? rest := by
  induction lines with
  | nil => rfl
  | cons line lines ih =>
    rw [List.cons_append, readMembers?, h line List.mem_cons_self]
    exact ih fun l hl ↦ h l (List.mem_cons_of_mem _ hl)

/-- A body that is read as `value` whatever lines follow it, and holds no first line itself. -/
structure ReadsBody (readBody? : List (List Char) → Option α) (body : Lines) (value : α) :
    Prop where
  value : ∀ rest, readBody? (body.map String.toList ++ rest) = some value
  quiet : ∀ line ∈ body, readHead? line.toList = none

theorem readMembers?_member (hm : m.Spelled) {body : Lines} {value : α}
    (hbody : ReadsBody readBody? body value) (rest : List (List Char)) :
    readMembers? readBody? ((memberDoc m ++ memberHead m :: body).map String.toList ++ rest) =
      (readMembers? readBody? rest).map ((memberHeadText m, value) :: ·) := by
  have hdoc : ∀ line ∈ (memberDoc m).map String.toList, readHead? line = none := by
    intro line hline
    obtain ⟨text, htext, rfl⟩ := List.mem_map.1 hline
    exact readHead?_memberDoc text htext
  have hquiet : ∀ line ∈ body.map String.toList, readHead? line = none := by
    intro line hline
    obtain ⟨text, htext, rfl⟩ := List.mem_map.1 hline
    exact hbody.quiet text htext
  rw [List.map_append, List.append_assoc, readMembers?_append hdoc, List.map_cons, List.cons_append,
    readMembers?, readHead?_memberHead hm]
  show (readBody? (body.map String.toList ++ rest) >>= fun b ↦
    readMembers? readBody? (body.map String.toList ++ rest) >>= fun ms ↦
      some ((memberHeadText m, b) :: ms)) = _
  rw [hbody.value, readMembers?_append hquiet]
  cases readMembers? readBody? rest <;> rfl

/-- **The members of a class are read in order**, if each has a head and a body that is read. -/
theorem readMembers?_flatMap {methods : List PlannedMethod} {member : PlannedMethod → Lines}
    {value : PlannedMethod → α} (hmethods : ∀ m ∈ methods, m.Spelled)
    (hmember : ∀ m ∈ methods, ∃ body, member m = memberDoc m ++ memberHead m :: body ∧
      ReadsBody readBody? body (value m)) (rest : List (List Char)) :
    readMembers? readBody?
        ((methods.flatMap fun m ↦ "" :: member m).map String.toList ++ rest) =
      (readMembers? readBody? rest).map
        ((methods.map fun m ↦ (memberHeadText m, value m)) ++ ·) := by
  induction methods with
  | nil =>
    show readMembers? readBody? rest = (readMembers? readBody? rest).map ([] ++ ·)
    cases readMembers? readBody? rest <;> rfl
  | cons m methods ih =>
    obtain ⟨body, hbody, hreads⟩ := hmember m List.mem_cons_self
    have hempty : ∀ line ∈ ([""] : Lines).map String.toList, readHead? line = none := by
      intro line hline
      obtain rfl := List.mem_singleton.1 hline
      rfl
    have hrest := ih (fun n hn ↦ hmethods n (List.mem_cons_of_mem _ hn))
      fun n hn ↦ hmember n (List.mem_cons_of_mem _ hn)
    rw [List.flatMap_cons, List.map_append, List.append_assoc, hbody]
    show readMembers? readBody? (([""] : Lines).map String.toList ++
      ((memberDoc m ++ memberHead m :: body).map String.toList ++ _)) = _
    rw [readMembers?_append hempty, readMembers?_member (hmethods m List.mem_cons_self) hreads,
      hrest]
    cases readMembers? readBody? rest <;> rfl

/-! ### Bodies -/

theorem readList?_arguments (h : m.Spelled) (rest : List Char) :
    readList? (m.arguments.toList ++ rest) = some (m.arguments.toList, rest) := by
  have hitems := h.over_arguments.not_mem (show isArgumentChar ']' = false by decide)
  have htext : m.arguments.toList = "[".toList ++
      ((", ".intercalate (m.parameters.map (·.argument))).toList ++ "]".toList) := by
    rw [PlannedMethod.arguments, String.toList_append, String.toList_append, List.append_assoc]
  rw [readList?, htext, List.append_assoc, List.append_assoc]
  refine bind_eq_some (after?_append _ _) ?_
  refine bind_eq_some (upTo?_append hitems _) ?_
  rfl

theorem readField?_append {name : String} (h : ':' ∉ name.toList) (rest : List Char) :
    readField? (name.toList ++ (": ".toList ++ rest)) = some (name.toList, rest) := by
  rw [readField?]
  refine bind_eq_some (upTo?_append h _) ?_
  refine bind_eq_some (after?_append _ _) ?_
  rfl

/-- What a member of the client class hands to its invoker. -/
def memberInvocation (m : PlannedMethod) : Invocation :=
  ⟨m.result.typeExpr.text,
    [("scriptHash", "this.scriptHash"), ("operation", Json.stringLiteral m.operation),
      ("args", m.arguments)],
    m.result.decoder.text⟩

/-- What a member of the implementation class hands to the generic method. -/
def memberCall (m : PlannedMethod) : Call :=
  ⟨m.result.typeExpr.text, Json.stringLiteral m.operation, m.arguments, m.result.decoder.text⟩

/-- The line in which a member of the client class says what it calls, and with what. -/
def fieldsLine (m : PlannedMethod) : String :=
  "      \x7b scriptHash: this.scriptHash, operation: " ++ Json.stringLiteral m.operation ++
    ", args: " ++ m.arguments ++ " \x7d,"

/-- The lines behind the head of a member of the client class. -/
def invocationLines (m : PlannedMethod) : Lines :=
  ["    return this.invoker.invoke<" ++ m.result.typeExpr.text ++ ">(", fieldsLine m,
    "      " ++ m.result.decoder.text ++ ",", "    );", "  \x7d"]

/-- The line in which a member of the implementation class calls the generic method. -/
def callLine (m : PlannedMethod) : String :=
  "    return this.invokeMethod<" ++ m.result.typeExpr.text ++ ">(" ++
    Json.stringLiteral m.operation ++ ", " ++ m.arguments ++ ", " ++ m.result.decoder.text ++ ");"

/-- The lines behind the head of a member of the implementation class. -/
def callLines (m : PlannedMethod) : Lines :=
  [callLine m, "  \x7d"]

theorem clientMember_eq (m : PlannedMethod) :
    clientMember m = memberDoc m ++ memberHead m :: invocationLines m :=
  rfl

theorem implementationMember_eq (m : PlannedMethod) :
    implementationMember m = memberDoc m ++ memberHead m :: callLines m :=
  rfl

/-- A line of a body: it stands deeper than a head, or it closes the member. -/
def OfBody (line : String) : Prop :=
  Indented line ∨ line = "  \x7d"

theorem ofBody_invocationLines : ∀ line ∈ invocationLines m, OfBody line := by
  have hcall : Indented ("    return this.invoker.invoke<" ++ m.result.typeExpr.text ++ ">(") :=
    Indented.literal.append.append
  have hfields : Indented (fieldsLine m) := Indented.literal.append.append.append.append
  have hdecoder : Indented ("      " ++ m.result.decoder.text ++ ",") :=
    Indented.literal.append.append
  simp only [invocationLines, List.forall_mem_cons]
  exact ⟨.inl hcall, .inl hfields, .inl hdecoder, .inl .literal, .inr rfl, List.forall_mem_nil _⟩

theorem ofBody_callLines : ∀ line ∈ callLines m, OfBody line := by
  have hcall : Indented (callLine m) :=
    Indented.literal.append.append.append.append.append.append.append.append
  simp only [callLines, List.forall_mem_cons]
  exact ⟨.inl hcall, .inr rfl, List.forall_mem_nil _⟩

theorem OfBody.readHead? {line : String} (h : OfBody line) : readHead? line.toList = none := by
  rcases h with h | rfl
  · exact readHead?_of_indented h
  · rfl

/-- The fixed pieces of the line are cut where the reader stops. -/
theorem toList_fieldsLine (m : PlannedMethod) :
    (fieldsLine m).toList =
      "      \x7b ".toList ++ ("scriptHash".toList ++ (": ".toList ++
        ("this.scriptHash".toList ++ (", ".toList ++ ("operation".toList ++ (": ".toList ++
          ((Json.stringLiteral m.operation).toList ++ (", ".toList ++ ("args".toList ++
            (": ".toList ++ (m.arguments.toList ++ " \x7d,".toList))))))))))) := by
  have hfields : "      \x7b scriptHash: this.scriptHash, operation: " =
      "      \x7b " ++ "scriptHash" ++ ": " ++ "this.scriptHash" ++ ", " ++ "operation" ++
        ": " := by
    decide +kernel
  have harguments : ", args: " = ", " ++ "args" ++ ": " := by decide +kernel
  unfold fieldsLine
  rw [hfields, harguments]
  simp only [String.toList_append, List.append_assoc]

/-- **The lines of a member of the client class are read as what it hands to its invoker.** -/
theorem readsBody_invocationLines (h : m.Spelled) :
    ReadsBody readInvocation? (invocationLines m) (memberInvocation m) := by
  refine ⟨fun rest ↦ ?_, fun line hline ↦ (ofBody_invocationLines line hline).readHead?⟩
  have hfirst : ("    return this.invoker.invoke<" ++ m.result.typeExpr.text ++ ">(").toList =
      "    return this.invoker.invoke<".toList ++ (m.result.typeExpr.text.toList ++
        ">(".toList) := by
    rw [String.toList_append, String.toList_append, List.append_assoc]
  have hthird : ("      " ++ m.result.decoder.text ++ ",").toList =
      "      ".toList ++ (m.result.decoder.text.toList ++ ",".toList) := by
    rw [String.toList_append, String.toList_append, List.append_assoc]
  have hcomma : ',' ∉ "this.scriptHash".toList := by decide +kernel
  have hhash : ':' ∉ "scriptHash".toList := by decide +kernel
  have hoperation : ':' ∉ "operation".toList := by decide +kernel
  have hargs : ':' ∉ "args".toList := by decide +kernel
  show readInvocation? (_ :: _ :: _ :: _) = _
  rw [readInvocation?, hfirst, toList_fieldsLine, hthird]
  refine bind_eq_some (after?_append _ _) ?_
  refine bind_eq_some (before?_append _ _) ?_
  refine bind_eq_some (after?_append _ _) ?_
  refine bind_eq_some (readField?_append hhash _) ?_
  refine bind_eq_some (upTo?_append hcomma _) ?_
  refine bind_eq_some (after?_append _ _) ?_
  refine bind_eq_some (readField?_append hoperation _) ?_
  refine bind_eq_some (readLiteral?_append _ _) ?_
  refine bind_eq_some (after?_append _ _) ?_
  refine bind_eq_some (readField?_append hargs _) ?_
  refine bind_eq_some (readList?_arguments h _) ?_
  refine bind_eq_some (before?_append [] _) ?_
  refine bind_eq_some (after?_append _ _) ?_
  refine bind_eq_some (before?_append _ _) ?_
  simp only [List.map_cons, List.map_nil, String.ofList_toList]
  rfl

/-- The type ends at the parenthesis: the bracket in front of it is cut off afterwards. -/
theorem toList_callLine (m : PlannedMethod) :
    (callLine m).toList =
      "    return this.invokeMethod<".toList ++ ((m.result.typeExpr.text.toList ++ ">".toList) ++
        '(' :: ((Json.stringLiteral m.operation).toList ++ (", ".toList ++
          (m.arguments.toList ++ (", ".toList ++ (m.result.decoder.text.toList ++
            ");".toList)))))) := by
  have hopen : ">(".toList = ">".toList ++ ['('] := rfl
  unfold callLine
  simp only [String.toList_append, hopen, List.append_assoc, List.cons_append, List.nil_append]

/-- **The lines of a member of the implementation class are read as what it hands to the generic
method.** -/
theorem readsBody_callLines (h : m.Spelled) :
    ReadsBody readCall? (callLines m) (memberCall m) := by
  refine ⟨fun rest ↦ ?_, fun line hline ↦ (ofBody_callLines line hline).readHead?⟩
  have htype : '(' ∉ m.result.typeExpr.text.toList ++ ">".toList := by
    rw [List.mem_append, not_or]
    exact ⟨h.over_result.not_mem (by decide), by decide⟩
  show readCall? (_ :: _) = _
  rw [readCall?, toList_callLine]
  refine bind_eq_some (after?_append _ _) ?_
  refine bind_eq_some (upTo?_append htype _) ?_
  refine bind_eq_some (before?_append _ _) ?_
  refine bind_eq_some (readLiteral?_append _ _) ?_
  refine bind_eq_some (after?_append _ _) ?_
  refine bind_eq_some (readList?_arguments h _) ?_
  refine bind_eq_some (after?_append _ _) ?_
  refine bind_eq_some (before?_append _ _) ?_
  simp only [String.ofList_toList]
  rfl

/-- Both bodies make the same call. -/
theorem call?_memberInvocation (m : PlannedMethod) :
    (memberInvocation m).call? = some (memberCall m) := by
  simp [memberInvocation, Invocation.call?, memberCall, List.lookup_cons]

/-! ### The generic method -/

/-- The generic method of implementation classes. -/
def genericText : Generic :=
  ⟨"T", ["operation", "args", "decoder"],
    ⟨"T", [("scriptHash", "this.scriptHash"), ("operation", "operation"), ("args", "args")],
      "decoder"⟩⟩

/-- Lines that do not begin the generic method are passed over. -/
theorem readGeneric?_append {lines : List (List Char)}
    (h : ∀ line ∈ lines, after? "  protected invokeMethod<".toList line = none)
    (head body : List Char) (rest : List (List Char)) :
    readGeneric? (lines ++ head :: body :: rest) = readGeneric? (head :: body :: rest) := by
  induction lines with
  | nil => rfl
  | cons line lines ih =>
    have hline : ∀ next, readTemplate? line next = none := by
      intro next
      rw [readTemplate?, h line List.mem_cons_self]
      rfl
    have hrest := ih fun l hl ↦ h l (List.mem_cons_of_mem _ hl)
    -- The reader looks at two lines at once, so whether `line` is the last of them matters.
    cases lines with
    | nil =>
      show readGeneric? (line :: head :: body :: rest) = _
      rw [readGeneric?, hline, Option.none_or]
    | cons next lines =>
      show readGeneric? (line :: next :: (lines ++ head :: body :: rest)) = _
      rw [readGeneric?, hline, Option.none_or]
      exact hrest

theorem readGeneric?_genericMember (rest : List (List Char)) :
    readGeneric? (genericMember.map String.toList ++ rest) = some genericText := by
  have hread : ∀ {a b c d : List Char}, readTemplate? (a ++ b) (c ++ d) = some genericText →
      readTemplate? (String.ofList a ++ String.ofList b).toList
        (String.ofList c ++ String.ofList d).toList = some genericText := by
    intro a b c d h
    rw [String.toList_append, String.toList_append, String.toList_ofList, String.toList_ofList,
      String.toList_ofList, String.toList_ofList, h]
  show (readTemplate? _ _).or (readGeneric? _) = _
  rw [hread (by decide +kernel), Option.some_or]

/-- **Inlining the generic method** in a call gives what a member of the client class hands over. -/
theorem inline_memberCall (m : PlannedMethod) :
    genericText.inline (memberCall m) = memberInvocation m := by
  simp [genericText, Generic.inline, memberCall, memberInvocation, substitute, List.lookup_cons]

end ContractBindings.Module
