import ContractBindings.Module.Generate
import ContractBindings.Proofs.Binding.Spelled
import ContractBindings.Proofs.Module.Lexer
import ContractBindings.Proofs.Module.Text
import ContractBindings.Proofs.ScriptHash.Spelling

/-!
# Raw text stays out of code

A manifest decides what a module says in its comments and quotes in its strings, word for word. It
does not decide the code around them: the modules of two plans that agree up to raw text have one
skeleton, and the lexer leaves each of them in code (`skeleton_eq_of_agree`).

The proof goes through the lines of a module in the order in which they are written. Each piece is
alike for both plans, for one of three reasons: it is fixed code or a spelled piece of the plan that
both plans share, it is a comment whose raw parts are sanitized, or it is a string literal. Lines
are not treated one at a time, because a block of documentation is one comment over several of them.
-/

namespace ContractBindings

namespace Binding

/-! ### Agreement up to raw text -/

/-- Members that differ at most in the operation and the signature. -/
structure PlannedMethod.Agree (m n : PlannedMethod) : Prop where
  ident : m.ident = n.ident
  safe : m.safe = n.safe
  offset : m.offset = n.offset
  parameters : m.parameters = n.parameters
  result : m.result = n.result

/-- Events that differ at most in the raw name. -/
structure PlannedEvent.Agree (e f : PlannedEvent) : Prop where
  interfaceName : e.interfaceName = f.interfaceName
  key : e.key = f.key
  fields : e.fields = f.fields

/-- Plans that differ at most in raw text: the name of the manifest, the standards, of which both
or neither have some, and what members and events may differ in. -/
structure Plan.Agree (p q : Plan) : Prop where
  className : p.className = q.className
  scriptHash : p.scriptHash = q.scriptHash
  embedHash : p.embedHash = q.embedHash
  supportedStandards : p.supportedStandards = [] ↔ q.supportedStandards = []
  methods : List.Forall₂ PlannedMethod.Agree p.methods q.methods
  events : List.Forall₂ PlannedEvent.Agree p.events q.events
  aliases : p.aliases = q.aliases

end Binding

namespace Module

open Binding Identifier
open Text (Over)

/-! ### Lines that are alike -/

/-- A line that is left in code is closed by its line feed, whatever its last character. -/
theorem Closed.line {l : List Char} (h : (lex .code (l ++ ['\n'])).2 = .code) :
    Closed (String.ofList l ++ "\n") (lex .code (l ++ ['\n'])).1 := by
  have hline : String.ofList l ++ "\n" = String.ofList (l ++ ['\n']) := String.ofList_append.symm
  rw [hline]
  -- The line feed is no slash, so a slash in front of it cannot open a comment behind it.
  refine .literal ?_ h
  rw [Settled, List.getLast?_append]
  rfl

namespace Alike

variable {s t : String} {a b : Lines}

theorem nil : Alike (Lines.text []) (Lines.text []) :=
  .code (l := []) rfl

theorem cons (h : Alike s t) (hrest : Alike a.text b.text) :
    Alike (Lines.text (s :: a)) (Lines.text (t :: b)) := by
  rw [Lines.text_cons, Lines.text_cons]
  exact (h.append (.code rfl)).append hrest

theorem lines {c d : Lines} (h : Alike a.text b.text) (hrest : Alike c.text d.text) :
    Alike (Lines.text (a ++ c)) (Lines.text (b ++ d)) := by
  rw [Lines.text_append, Lines.text_append]
  exact h.append hrest

/-- A fixed line, which may hold comments and strings of its own. -/
theorem fixed {l : List Char} (h : (lex .code (l ++ ['\n'])).2 = .code)
    (hrest : Alike a.text b.text) :
    Alike (Lines.text (String.ofList l :: a)) (Lines.text (String.ofList l :: b)) := by
  rw [Lines.text_cons, Lines.text_cons]
  exact .append ⟨_, .line h, .line h⟩ hrest

/-- Lines that are all closed are alike themselves. -/
theorem of_closed (h : ∀ line ∈ a, ∃ items, Closed (line ++ "\n") items) : Alike a.text a.text := by
  induction a with
  | nil => exact nil
  | cons line a ih =>
    obtain ⟨items, hline⟩ := h line List.mem_cons_self
    rw [Lines.text_cons]
    exact .append ⟨items, hline, hline⟩ (ih fun l hl ↦ h l (List.mem_cons_of_mem _ hl))

/-- Lines written from lists whose entries correspond. -/
theorem flatMap {α : Type} {r : α → α → Prop} {f g : α → Lines} {as bs : List α}
    (h : List.Forall₂ r as bs)
    (hstep : ∀ x ∈ as, ∀ y ∈ bs, r x y → Alike (f x).text (g y).text) :
    Alike (Lines.text (as.flatMap f)) (Lines.text (bs.flatMap g)) := by
  induction h with
  | nil => exact nil
  | @cons x y as bs hxy _ ih =>
    rw [List.flatMap_cons, List.flatMap_cons]
    refine (hstep x List.mem_cons_self y List.mem_cons_self hxy).lines (ih fun x' hx y' hy ↦ ?_)
    exact hstep x' (List.mem_cons_of_mem _ hx) y' (List.mem_cons_of_mem _ hy)

end Alike

/-! ### Comments -/

theorem alike_comment {a b : String} (ha : Unclosed a) (hb : Unclosed b) :
    Alike (comment a) (comment b) := by
  have hpass : ∀ {content : String}, Unclosed content → Passes (" " ++ content ++ " ") :=
    fun h ↦ .of_unclosed (.append_of_over (.over_append (.literal rfl) h) (.literal rfl))
      ((getLast?_append_ofList (by decide)).trans_ne (by decide))
  have heq : ∀ content, comment content = "/*" ++ (" " ++ content ++ " ") ++ "*/" := by
    intro content
    rw [comment, ← String.toList_inj]
    simp only [String.toList_append, List.append_assoc]
    rfl
  rw [heq, heq]
  exact .comment (hpass ha) (hpass hb)

/-- Documentation is one comment, whatever its lines say and however many there are. -/
theorem alike_docBlock {indent : String} (h : Over (· == ' ') indent) (a b : List String) :
    Alike (docBlock indent a).text (docBlock indent b).text := by
  have hcontent : ∀ lines : List String, Passes
      ("*\n" ++ Lines.text (lines.map fun line ↦ indent ++ " * " ++ sanitize line) ++ indent ++
        " ") := by
    intro lines
    have hbody : Unclosed (Lines.text (lines.map fun line ↦ indent ++ " * " ++ sanitize line)) :=
      .text (List.forall_mem_map.2 fun line _ ↦ unclosed_docLine (h.bne rfl) line)
    refine .of_unclosed ?_ ((getLast?_append_ofList (by decide)).trans_ne (by decide))
    exact .append_of_over (.append_of_over (.append (.literal (by decide)) hbody (by decide))
      (h.bne rfl)) (.literal rfl)
  -- The block is cut anew: what lies between its delimiters, not its lines.
  have heq : ∀ lines : List String, (docBlock indent lines).text =
      indent ++
        ("/*" ++
          ("*\n" ++ Lines.text (lines.map fun line ↦ indent ++ " * " ++ sanitize line) ++ indent ++
            " ") ++
          "*/") ++ "\n" := by
    intro lines
    rw [docBlock, Lines.text_append, Lines.text_cons, Lines.text_cons, Lines.text_nil,
      ← String.toList_inj]
    simp only [String.toList_append, List.append_assoc]
    rfl
  rw [heq, heq]
  exact .append (.append (.of_over h rfl rfl) (.comment (hcontent a) (hcontent b))) (.code rfl)

variable {p q : Plan}

theorem alike_header (h : p.Agree q) {description : List Char}
    (hdescription : description.all (· != '*') = true) :
    Alike (header p (String.ofList description)).text
      (header q (String.ofList description)).text := by
  have hfixed : ∀ {content : String}, Over (· != '*') content →
      Alike (comment content) (comment content) :=
    fun h ↦ alike_comment (.of_over h) (.of_over h)
  -- Both plans have this line or neither has it: that much of the standards is code.
  have hstandards : Alike
      (Lines.text (if p.supportedStandards.isEmpty then []
        else [comment ("Supported standards: " ++
          sanitize (", ".intercalate p.supportedStandards))]))
      (Lines.text (if q.supportedStandards.isEmpty then []
        else [comment ("Supported standards: " ++
          sanitize (", ".intercalate q.supportedStandards))])) := by
    by_cases hp : p.supportedStandards = []
    · rw [hp, h.supportedStandards.1 hp]
      exact .nil
    · have hq : q.supportedStandards ≠ [] := fun hq ↦ hp (h.supportedStandards.2 hq)
      rw [if_neg (by simpa using hp), if_neg (by simpa using hq)]
      exact .cons (alike_comment (unclosed_label rfl _) (unclosed_label rfl _)) .nil
  have hhash : Alike
      (Lines.text (p.scriptHash.map fun hash ↦ comment ("Script hash: " ++ hash.text)).toList)
      (Lines.text (q.scriptHash.map fun hash ↦ comment ("Script hash: " ++ hash.text)).toList) := by
    rw [← h.scriptHash]
    cases p.scriptHash with
    | none => exact .nil
    | some hash =>
      have htext : Over (· != '*') hash.text := (over_hash hash).bne (by decide)
      exact .cons (hfixed (.append (.literal rfl) htext)) .nil
  refine .lines (.lines (.lines ?_ hstandards) hhash) (.cons (.code (l := []) rfl) .nil)
  refine .cons (hfixed ?_) (.cons (hfixed ?_) (.cons ?_ .nil))
  · exact .append (.append (.append (.literal rfl) (.literal rfl)) (.literal rfl))
      (.literal hdescription)
  · exact .append (.literal rfl) (.literal rfl)
  · exact alike_comment (unclosed_label rfl _) (unclosed_label rfl _)

/-! ### Fixed code and classes -/

theorem alike_prelude : Alike prelude.text prelude.text := by
  refine .of_closed ?_
  repeat' refine List.forall_mem_cons.2 ⟨⟨_, Closed.line (by decide +kernel)⟩, ?_⟩
  exact fun line hline ↦ absurd hline List.not_mem_nil

theorem alike_ident {name : String} (h : isLegal name = true) : Alike name name :=
  .of_over (over_of_isLegal h) rfl rfl

theorem alike_hashConstant (hp : p.Spelled) {className value : String}
    (h : hashConstant? p className = some value) : Alike value value := by
  rw [hashConstant?] at h
  split at h
  case isFalse => cases h
  case isTrue =>
    obtain ⟨hash, -, rfl⟩ := Option.map_eq_some_iff.1 h
    split
    · exact .stringLiteral _ _
    · exact .append (alike_ident hp.className.legal) (.code rfl)

theorem alike_classFields (hp : p.Spelled) (h : p.Agree q) {className : String}
    (hclass : isLegal className = true) :
    Alike (classFields p className).text (classFields q className).text := by
  have heq : hashConstant? q className = hashConstant? p className := by
    rw [hashConstant?, hashConstant?, h.embedHash, h.scriptHash, h.className]
  rw [classFields, classFields, heq]
  refine .lines ?_ ?_
  · cases hconstant : hashConstant? p className with
    | none => exact .nil
    | some value =>
      refine .cons (.append (.append (.code rfl) ?_) (.code rfl)) (.fixed rfl .nil)
      exact alike_hashConstant hp hconstant
  · have hparameter : ∀ b : Bool,
        let parameter := if b then "scriptHash: Hash160 = " ++ className ++ ".SCRIPT_HASH"
          else "scriptHash: Hash160"
        Alike parameter parameter := by
      intro b
      cases b with
      | false => exact .code rfl
      | true => exact .append (.append (.code rfl) (alike_ident hclass)) (.code rfl)
    refine .fixed rfl (.fixed rfl (.fixed rfl (.cons ?_ ?_)))
    · exact .append (.append (.code rfl) (hparameter _)) (.code rfl)
    · exact .fixed rfl (.fixed rfl (.fixed rfl .nil))

theorem alike_classHead {className : String} (h : isLegal className = true) :
    Alike (classHead className) (classHead className) :=
  .append (.append (.code rfl) (alike_ident h)) (.code rfl)

/-! ### Members -/

theorem alike_decoder (type : AbiType) : Alike (decoder type).text (decoder type).text := by
  induction type with
  | scalar s =>
    have hquoted : "\"" ++ s.name ++ "\"" = Json.stringLiteral s.name := by cases s <;> rfl
    cases s with
    | void => exact .code rfl
    | _ =>
      show Alike ("\"" ++ _ ++ "\"") ("\"" ++ _ ++ "\"")
      rw [hquoted]
      exact .stringLiteral _ _
  | array element ih => exact .append (.append (.code rfl) ih) (.code rfl)
  | map key value ihk ihv =>
    exact .append (.append (.append (.append (.code rfl) ihk) (.code rfl)) ihv) (.code rfl)

section Members

variable {m n : PlannedMethod}

theorem alike_result (hm : m.Spelled) :
    Alike m.result.typeExpr.text m.result.typeExpr.text ∧
    Alike m.result.decoder.text m.result.decoder.text := by
  obtain ⟨type, htype⟩ := hm.result
  rw [htype]
  exact ⟨.of_over (over_typeExpr type) rfl rfl, alike_decoder type⟩

theorem alike_arguments (hm : m.Spelled) : Alike m.arguments m.arguments :=
  .append (.append (.code rfl) (.of_over hm.over_arguments rfl rfl)) (.code rfl)

theorem alike_memberHead (hm : m.Spelled) : Alike (memberHead m) (memberHead m) := by
  refine .append (.append (.append (.append (.append (.append (.code rfl) ?_) (.code rfl)) ?_)
    (.code rfl)) (alike_result hm).1) (.code rfl)
  · exact alike_ident hm.ident.legal
  · exact .of_over hm.over_declarations rfl rfl

/-- What members that agree share of their code. -/
theorem memberHead_eq_of_agree (h : m.Agree n) : memberHead m = memberHead n := by
  rw [memberHead, memberHead, PlannedMethod.declarations, PlannedMethod.declarations, h.ident,
    h.parameters, h.result]

theorem arguments_eq_of_agree (h : m.Agree n) : m.arguments = n.arguments := by
  rw [PlannedMethod.arguments, PlannedMethod.arguments, h.parameters]

theorem alike_clientMember (hm : m.Spelled) (h : m.Agree n) :
    Alike (clientMember m).text (clientMember n).text := by
  rw [clientMember, clientMember, ← memberHead_eq_of_agree h, ← h.result,
    ← arguments_eq_of_agree h]
  refine .lines (alike_docBlock (.literal rfl) _ _) ?_
  refine .cons (alike_memberHead hm) (.cons ?_ (.cons ?_ (.cons ?_ ?_)))
  · exact .append (.append (.code rfl) (alike_result hm).1) (.code rfl)
  -- The operation is raw: here the plans may differ, inside of a string.
  · exact .append (.append (.append (.append (.code rfl) (.stringLiteral _ _)) (.code rfl))
      (alike_arguments hm)) (.code rfl)
  · exact .append (.append (.code rfl) (alike_result hm).2) (.code rfl)
  · exact .fixed rfl (.fixed rfl .nil)

theorem alike_implementationMember (hm : m.Spelled) (h : m.Agree n) :
    Alike (implementationMember m).text (implementationMember n).text := by
  rw [implementationMember, implementationMember, ← memberHead_eq_of_agree h, ← h.result,
    ← arguments_eq_of_agree h]
  refine .lines (alike_docBlock (.literal rfl) _ _) ?_
  refine .cons (alike_memberHead hm) (.cons ?_ (.fixed rfl .nil))
  refine .append (.append (.append (.append (.append (.append (.append (.append (.code rfl)
    (alike_result hm).1) (.code rfl)) (.stringLiteral _ _)) (.code rfl))
    (alike_arguments hm)) (.code rfl)) (alike_result hm).2) (.code rfl)

end Members

/-! ### Events and imports -/

theorem alike_eventInterface {e f : PlannedEvent} (he : e.Spelled) (h : e.Agree f) :
    Alike (eventInterface e).text (eventInterface f).text := by
  rw [eventInterface, eventInterface, ← h.interfaceName, ← h.fields]
  have hfield : ∀ q ∈ e.fields, Alike (q.declaration) (q.declaration) :=
    fun q hq ↦ .of_over (he.fields q hq).over_declaration rfl rfl
  refine .lines (.lines (.lines (alike_docBlock (.literal rfl) _ _) ?_) ?_) (.fixed rfl .nil)
  · exact .cons (.append (.append (.code rfl) (alike_ident he.interfaceName)) (.code rfl)) .nil
  -- The fields are the same for both events, so this is an induction on one list.
  · generalize e.fields = fields at hfield
    induction fields with
    | nil => exact .nil
    | cons q fields ih =>
      have hfirst := hfield q List.mem_cons_self
      have hrest := ih fun r hr ↦ hfield r (List.mem_cons_of_mem _ hr)
      exact .cons (.append (.append (.code rfl) hfirst) (.code rfl)) hrest

theorem alike_eventTable {events others : List PlannedEvent} (hs : ∀ e ∈ events, e.Spelled)
    (h : List.Forall₂ PlannedEvent.Agree events others) :
    Alike
      (Lines.text (events.map fun e ↦ "  " ++ e.key ++ ": " ++ Json.stringLiteral e.rawName ++ ","))
      (Lines.text
        (others.map fun e ↦ "  " ++ e.key ++ ": " ++ Json.stringLiteral e.rawName ++ ",")) := by
  induction h with
  | nil => exact .nil
  | @cons e f events others hef _ ih =>
    rw [List.map_cons, List.map_cons, ← hef.key]
    have hkey := alike_ident (hs e List.mem_cons_self).key
    have hrest := ih fun e' he ↦ hs e' (List.mem_cons_of_mem _ he)
    -- The key is derived, the name behind it is raw.
    exact .cons (.append (.append (.append (.append (.code rfl) hkey) (.code rfl))
      (.stringLiteral _ _)) (.code rfl)) hrest

theorem alike_eventLines (hp : p.Spelled) (h : p.Agree q) :
    Alike (eventLines p).text (eventLines q).text := by
  rw [eventLines, eventLines, ← h.className]
  refine .lines (.lines (.lines ?_ ?_) (alike_eventTable hp.events h.events)) (.fixed rfl .nil)
  · refine .flatMap h.events fun e he f _ hef ↦ ?_
    exact .lines (alike_eventInterface (hp.events e he) hef) (.fixed rfl .nil)
  · refine .cons (.append (.append (.code rfl) ?_) (.code rfl)) .nil
    exact alike_ident (isLegal_append hp.className.legal (.literal rfl))

/-- What is imported depends on no raw text. -/
theorem importLines_eq_of_agree (h : p.Agree q) : importLines p = importLines q := by
  have hany : p.methods.any (fun m ↦ !m.parameters.isEmpty) =
      q.methods.any (fun m ↦ !m.parameters.isEmpty) := by
    have hmethods := h.methods
    generalize p.methods = methods at hmethods
    generalize q.methods = others at hmethods
    induction hmethods with
    | nil => rfl
    | cons hmn _ ih => rw [List.any_cons, List.any_cons, hmn.parameters, ih]
  rw [importLines, importLines, importedValues, importedValues, importedTypes, importedTypes, hany,
    h.embedHash, h.scriptHash, h.className, h.aliases]

theorem alike_importLines (hp : p.Spelled) : Alike (importLines p).text (importLines p).text := by
  refine .lines ?_ (.cons ?_ .nil)
  · split
    · exact .nil
    · have hvalues := Alike.of_over hp.over_importedValues rfl rfl
      exact .cons (.append (.append (.append (.append (.code rfl) hvalues) (.code rfl))
        (.stringLiteral _ _)) (.code rfl)) .nil
  · have htypes := Alike.of_over (over_importedTypes p) rfl rfl
    exact .append (.append (.append (.append (.code rfl) htypes) (.code rfl))
      (.stringLiteral _ _)) (.code rfl)

/-! ### Modules -/

theorem alike_clientLines (hp : p.Spelled) (h : p.Agree q) :
    Alike (clientLines p).text (clientLines q).text := by
  have hevents : Alike (Lines.text (if p.events.isEmpty then [] else "" :: eventLines p))
      (Lines.text (if q.events.isEmpty then [] else "" :: eventLines q)) := by
    have hempty : p.events.isEmpty = q.events.isEmpty := by
      rw [Bool.eq_iff_iff, List.isEmpty_iff_length_eq_zero, List.isEmpty_iff_length_eq_zero,
        h.events.length_eq]
    rw [← hempty]
    split
    · exact .nil
    · exact .fixed rfl (alike_eventLines hp h)
  have hmembers : Alike (Lines.text (p.methods.flatMap fun m ↦ "" :: clientMember m))
      (Lines.text (q.methods.flatMap fun m ↦ "" :: clientMember m)) :=
    .flatMap h.methods fun m hm n _ hmn ↦ .fixed rfl (alike_clientMember (hp.methods m hm) hmn)
  have hhead : Alike (classHead p.className) (classHead q.className) :=
    h.className ▸ alike_classHead hp.className.legal
  have hfields := alike_classFields hp h hp.className.legal
  rw [clientLines, clientLines, ← h.className]
  rw [← h.className] at hhead
  refine .lines (.lines (.lines (.lines (.lines (.lines ?_ alike_prelude) hevents) ?_) hfields)
    hmembers) (.fixed rfl .nil)
  · exact alike_header h (by decide)
  · exact .fixed rfl (.cons hhead .nil)

theorem alike_implementationLines (hp : p.Spelled) (h : p.Agree q) :
    Alike (implementationLines p).text (implementationLines q).text := by
  have hlegal : isLegal (implementationClass p) = true :=
    isLegal_append hp.className.legal (.literal rfl)
  have hclass : implementationClass q = implementationClass p := by
    rw [implementationClass, implementationClass, h.className]
  have hmembers : Alike (Lines.text (p.methods.flatMap fun m ↦ "" :: implementationMember m))
      (Lines.text (q.methods.flatMap fun m ↦ "" :: implementationMember m)) :=
    .flatMap h.methods fun m hm n _ hmn ↦
      .fixed rfl (alike_implementationMember (hp.methods m hm) hmn)
  have hgeneric : Alike genericMember.text genericMember.text :=
    .cons (.append (.code rfl) (.code rfl))
      (.cons (.append (.code rfl) (.code rfl)) (.fixed rfl .nil))
  have hfields := alike_classFields hp h hlegal
  rw [implementationLines, implementationLines, hclass, ← importLines_eq_of_agree h]
  refine .lines (.lines (.lines (.lines (.lines (.lines (.lines ?_ (alike_importLines hp)) ?_)
    hfields) (.fixed rfl .nil)) hgeneric) hmembers) (.fixed rfl .nil)
  · exact alike_header h (by decide)
  · exact .fixed rfl (.cons (alike_classHead hlegal) .nil)

/-- **Raw text stays out of code.** The modules of two plans that differ at most in raw text are
read with one skeleton each, and all of them are left in code. -/
theorem skeleton_eq_of_agree {options₁ options₂ : Options} {c₁ c₂ : Contract} {p₁ p₂ : Plan}
    (h₁ : plan options₁ c₁ = .ok p₁) (h₂ : plan options₂ c₂ = .ok p₂) (h : p₁.Agree p₂) :
    skeleton (client p₁).text = skeleton (client p₂).text ∧
    skeleton (implementation p₁).text = skeleton (implementation p₂).text ∧
    (∀ p ∈ [p₁, p₂], endState (client p).text = .code ∧
      endState (implementation p).text = .code) := by
  have hclient : Alike (client p₁).text (client p₂).text := by
    rw [text_client, text_client]
    exact alike_clientLines (spelled_of_plan h₁) h
  have himplementation : Alike (implementation p₁).text (implementation p₂).text := by
    rw [text_implementation, text_implementation]
    exact alike_implementationLines (spelled_of_plan h₁) h
  refine ⟨hclient.skeleton_eq, himplementation.skeleton_eq, fun p hp ↦ ?_⟩
  rcases List.mem_pair.1 hp with rfl | rfl
  · exact ⟨hclient.endState_eq.1, himplementation.endState_eq.1⟩
  · exact ⟨hclient.endState_eq.2, himplementation.endState_eq.2⟩

/-- A contract with one method and one event, all of whose raw text is given. -/
def rawContract (name standard operation event : String) : Contract where
  name := name
  scriptHash := some ⟨List.replicate ScriptHash.size 0xab, ScriptHash.length_replicate_ab⟩
  supportedStandards := [standard]
  methods := [⟨operation, [⟨"to", .scalar .hash160, 0⟩], .scalar .void, false, none⟩]
  events := [⟨event, [⟨"amount", .scalar .integer, 0⟩]⟩]

/-- Comment closers on the one side, quotes and backslashes on the other. -/
theorem skeleton_eq_rawContract :
    ∃ p₁ p₂,
      plan { embedHash := true } (rawContract "a*/b" "*/" "get_owner" "x*/\n") = .ok p₁ ∧
      plan { embedHash := true } (rawContract "a\"b" "\\" "getOwner" "\"X\"") = .ok p₂ ∧
      p₁ ≠ p₂ ∧ p₁.Agree p₂ ∧
      skeleton (client p₁).text = skeleton (client p₂).text ∧
      skeleton (implementation p₁).text = skeleton (implementation p₂).text := by
  let p₁ := sketch { embedHash := true } (rawContract "a*/b" "*/" "get_owner" "x*/\n") "AB"
  let p₂ := sketch { embedHash := true } (rawContract "a\"b" "\\" "getOwner" "\"X\"") "AB"
  have h₁ : plan { embedHash := true } (rawContract "a*/b" "*/" "get_owner" "x*/\n") = .ok p₁ := by
    decide +kernel
  have h₂ : plan { embedHash := true } (rawContract "a\"b" "\\" "getOwner" "\"X\"") = .ok p₂ := by
    decide +kernel
  have hne : p₁ ≠ p₂ := by decide +kernel
  have h : p₁.Agree p₂ :=
    { className := rfl
      scriptHash := rfl
      embedHash := rfl
      supportedStandards := by decide +kernel
      methods := .cons ⟨by decide +kernel, rfl, rfl, rfl, rfl⟩ .nil
      events := .cons ⟨by decide +kernel, by decide +kernel, rfl⟩ .nil
      aliases := rfl }
  obtain ⟨hclient, himplementation, -⟩ := skeleton_eq_of_agree h₁ h₂ h
  exact ⟨p₁, p₂, h₁, h₂, hne, h, hclient, himplementation⟩

end Module

end ContractBindings
