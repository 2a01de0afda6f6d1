import ContractBindings.Proofs.Module.ClassReader
import ContractBindings.Proofs.Module.Comment

/-!
# The lines of modules

Where the class of a module begins, and why a reader that knows only lines finds it there. No line
that is written holds a line feed, since raw text stands in it sanitized or as a literal, so the
text is taken apart into the lines it was written from. And no line before the class begins like the
first line of one: its fixed beginning already differs (`Apart`), and what follows that beginning
cannot change it. Together these give the lines of both classes (`classLines_client`,
`classLines_implementation`).
-/

namespace ContractBindings.Module

open Binding Identifier
open Text (Over)

/-- A text without line feeds. -/
abbrev OneLine (s : String) : Prop :=
  Over (· != '\n') s

/-! ### Texts on one line -/

theorem oneLine_ident {name : String} (h : isLegal name = true) : OneLine name :=
  (over_of_isLegal h).bne (by decide)

theorem oneLine_stringLiteral (s : String) : OneLine (Json.stringLiteral s) := by
  intro c hc
  rw [bne_iff_ne]
  rintro rfl
  exact Json.lineFeed_not_mem_stringLiteral s hc

/-- Sanitizing puts a text on one line. -/
theorem oneLine_sanitize (s : String) : OneLine (sanitize s) :=
  (over_sanitize s).bne rfl

theorem oneLine_hash (hash : ScriptHash) : OneLine hash.text :=
  (over_hash hash).bne (by decide)

theorem oneLine_hashConstant {p : Plan} (hp : p.Spelled) {className value : String}
    (h : hashConstant? p className = some value) : OneLine value := by
  rw [hashConstant?] at h
  split at h
  case isFalse => cases h
  case isTrue =>
    obtain ⟨hash, -, rfl⟩ := Option.map_eq_some_iff.1 h
    split
    · exact oneLine_stringLiteral _
    · exact .append (oneLine_ident hp.className.legal) (.literal rfl)

/-! ### Lines before the class -/

/-- The characters that the first line of a class begins with. -/
def classMark : List Char :=
  ['e', 'x', 'p', 'o', 'r', 't', ' ', 'c', 'l', 'a', 's', 's', ' ']

theorem startsClass_iff {line : List Char} : startsClass line = true ↔ classMark <+: line := by
  have hmark : "export class ".toList = classMark := String.toList_ofList
  rw [startsClass, hmark, Option.isSome_iff_exists]
  refine exists_congr fun rest ↦ ?_
  rw [after?_eq_some_iff, eq_comm]

/-- A text on one line that differs from the first line of a class, whatever is put behind it. -/
structure Apart (s : String) : Prop where
  oneLine : OneLine s
  apart : ∀ t, ¬ classMark <+: s.toList ++ t

/-- A line that may stand before a class. -/
structure Preface (line : String) : Prop where
  oneLine : OneLine line
  noClass : ¬ classMark <+: line.toList

theorem Apart.literal {l : List Char} (hline : l.all (· != '\n') = true)
    (hmark : ¬ classMark <+: l ∧ ¬ l <+: classMark) : Apart (String.ofList l) :=
  ⟨.literal hline, Differs.literal hmark⟩

theorem Apart.append {s t : String} (hs : Apart s) (ht : OneLine t) : Apart (s ++ t) :=
  ⟨hs.oneLine.append ht, Differs.append hs.apart t⟩

theorem Apart.preface {s : String} (h : Apart s) : Preface s := by
  refine ⟨h.oneLine, ?_⟩
  have hs := h.apart []
  rwa [List.append_nil] at hs

theorem Preface.literal {l : List Char} (hline : l.all (· != '\n') = true)
    (hmark : ¬ classMark <+: l) : Preface (String.ofList l) := by
  refine ⟨.literal hline, ?_⟩
  rwa [String.toList_ofList]

theorem Preface.empty : Preface "" :=
  .literal (l := []) rfl (by decide)

theorem preface_comment {content : String} (h : OneLine content) : Preface (comment content) :=
  have hopen : Apart "/* " := .literal rfl (by decide)
  ((hopen.append h).append (.literal rfl)).preface

theorem oneLine_headerContents {p : Plan} {description : List Char}
    (hdescription : description.all (· != '\n') = true) :
    ∀ content ∈ headerContents p (String.ofList description), OneLine content := by
  refine forall_mem_headerContents ?_ (.append (.literal rfl) (.literal rfl)) ?_ fun hash ↦
    .append (.literal rfl) (oneLine_hash hash)
  · exact .append (.append (.append (.literal rfl) (.literal rfl)) (.literal rfl))
      (.literal hdescription)
  · simp only [List.forall_mem_cons]
    exact ⟨fun text ↦ .append (.literal rfl) (oneLine_sanitize text),
      fun text ↦ .append (.literal rfl) (oneLine_sanitize text), List.forall_mem_nil _⟩

theorem preface_header {p : Plan} {description : List Char}
    (hdescription : description.all (· != '\n') = true) :
    ∀ line ∈ header p (String.ofList description), Preface line := by
  rw [header_eq, List.forall_mem_append, List.forall_mem_map]
  exact ⟨fun content hcontent ↦ preface_comment (oneLine_headerContents hdescription content
    hcontent), List.forall_mem_singleton.2 .empty⟩

theorem preface_prelude : ∀ line ∈ prelude, Preface line := by
  repeat' refine List.forall_mem_cons.2 ⟨Preface.literal rfl (by decide +kernel), ?_⟩
  exact List.forall_mem_nil _

theorem oneLine_declaration {q : PlannedParameter} (h : q.Spelled) : OneLine q.declaration :=
  h.over_declaration.bne (by decide)

theorem preface_eventInterface {e : PlannedEvent} (h : e.Spelled) :
    ∀ line ∈ eventInterface e, Preface line := by
  -- The documentation, the opening, the fields and the closing brace.
  intro line hline
  rcases List.mem_append.1 hline with hline | hline
  rcases List.mem_append.1 hline with hline | hline
  rcases List.mem_append.1 hline with hline | hline
  · refine forall_mem_docBlock ?_ (fun text ↦ ?_) ?_ _ line hline
    · rw [String.empty_append]
      exact .literal rfl (by decide)
    · have hopen : Apart ("" ++ " * ") := by
        rw [String.empty_append]
        exact .literal rfl (by decide)
      exact (hopen.append (oneLine_sanitize text)).preface
    · rw [String.empty_append]
      exact .literal rfl (by decide)
  · obtain rfl := List.mem_singleton.1 hline
    have hopen : Apart "export interface " := .literal rfl (by decide)
    exact ((hopen.append (oneLine_ident h.interfaceName)).append (.literal rfl)).preface
  · obtain ⟨q, hq, rfl⟩ := List.mem_map.1 hline
    have hopen : Apart "  " := .literal rfl (by decide)
    exact ((hopen.append (oneLine_declaration (h.fields q hq))).append (.literal rfl)).preface
  · obtain rfl := List.mem_singleton.1 hline
    exact .literal rfl (by decide)

theorem preface_eventLines {p : Plan} (hp : p.Spelled) : ∀ line ∈ eventLines p, Preface line := by
  -- The interfaces, the opening of the table, its rows and its closing brace.
  intro line hline
  rcases List.mem_append.1 hline with hline | hline
  rcases List.mem_append.1 hline with hline | hline
  rcases List.mem_append.1 hline with hline | hline
  · obtain ⟨e, he, hline⟩ := List.mem_flatMap.1 hline
    rcases List.mem_append.1 hline with hline | hline
    · exact preface_eventInterface (hp.events e he) line hline
    · obtain rfl := List.mem_singleton.1 hline
      exact .empty
  · obtain rfl := List.mem_singleton.1 hline
    have hopen : Apart "export const " := .literal rfl (by decide)
    have hname : OneLine (eventTableName p.className) :=
      .append (oneLine_ident hp.className.legal) (.literal rfl)
    exact ((hopen.append hname).append (.literal rfl)).preface
  · obtain ⟨e, he, rfl⟩ := List.mem_map.1 hline
    have hopen : Apart "  " := .literal rfl (by decide)
    exact ((((hopen.append (oneLine_ident (hp.events e he).key)).append (.literal rfl)).append
      (oneLine_stringLiteral _)).append (.literal rfl)).preface
  · obtain rfl := List.mem_singleton.1 hline
    exact .literal rfl (by decide)

theorem preface_importLines {p : Plan} (hp : p.Spelled) :
    ∀ line ∈ importLines p, Preface line := by
  have hsource : OneLine (Json.stringLiteral ("./" ++ p.className)) := oneLine_stringLiteral _
  intro line hline
  rcases List.mem_append.1 hline with hline | hline
  · split at hline
    · exact absurd hline List.not_mem_nil
    · obtain rfl := List.mem_singleton.1 hline
      have hopen : Apart "import \x7b " := .literal rfl (by decide)
      exact ((((hopen.append (hp.over_importedValues.bne (by decide))).append
        (.literal rfl)).append hsource).append (.literal rfl)).preface
  · obtain rfl := List.mem_singleton.1 hline
    have hopen : Apart "import type \x7b " := .literal rfl (by decide)
    exact ((((hopen.append ((over_importedTypes p).bne (by decide))).append
      (.literal rfl)).append hsource).append (.literal rfl)).preface

/-! ### Lines of classes -/

/-- The kinds of lines that the fields and the constructor of a class consist of. -/
theorem forall_mem_classFields {p : Plan} {className : String} {q : String → Prop}
    (hconstant : ∀ value, hashConstant? p className = some value →
      q ("  static readonly SCRIPT_HASH: Hash160 = " ++ value ++ ";"))
    (hconstructor : ∀ parameter ∈ ["scriptHash: Hash160 = " ++ className ++ ".SCRIPT_HASH",
      "scriptHash: Hash160"],
      q ("  constructor(invoker: ContractInvoker, " ++ parameter ++ ") \x7b"))
    (hfixed : ∀ line ∈ ["", "  private readonly invoker: ContractInvoker;",
      "  readonly scriptHash: Hash160;", "    this.invoker = invoker;",
      "    this.scriptHash = scriptHash;", "  \x7d"], q line) :
    ∀ line ∈ classFields p className, q line := by
  simp only [List.forall_mem_cons] at hconstructor hfixed
  obtain ⟨hdefault, hplain, -⟩ := hconstructor
  obtain ⟨hempty, hinvoker, hhash, hset, hset', hclose, -⟩ := hfixed
  rw [classFields]
  refine List.forall_mem_append.2 ⟨?_, ?_⟩
  · cases hvalue : hashConstant? p className with
    | none => exact List.forall_mem_nil _
    | some value =>
      exact List.forall_mem_cons.2 ⟨hconstant value hvalue, List.forall_mem_cons.2
        ⟨hempty, List.forall_mem_nil _⟩⟩
  · have hhead : q ("  constructor(invoker: ContractInvoker, " ++
        (if (hashConstant? p className).isSome then
          "scriptHash: Hash160 = " ++ className ++ ".SCRIPT_HASH"
        else "scriptHash: Hash160") ++ ") \x7b") := by
      split
      · exact hdefault
      · exact hplain
    simp only [List.forall_mem_cons]
    exact ⟨hinvoker, hhash, hempty, hhead, hset, hset', hclose, List.forall_mem_nil _⟩

theorem oneLine_classFields {p : Plan} (hp : p.Spelled) {className : String}
    (hclass : isLegal className = true) : ∀ line ∈ classFields p className, OneLine line := by
  refine forall_mem_classFields (fun value hvalue ↦ ?_) ?_ ?_
  · exact .append (.append (.literal rfl) (oneLine_hashConstant hp hvalue)) (.literal rfl)
  · refine List.forall_mem_cons.2 ⟨?_, List.forall_mem_cons.2 ⟨?_, List.forall_mem_nil _⟩⟩
    · exact .append (.append (.literal rfl) (.append (.append (.literal rfl)
        (oneLine_ident hclass)) (.literal rfl))) (.literal rfl)
    · exact .append (.append (.literal rfl) (.literal rfl)) (.literal rfl)
  · simp only [List.forall_mem_cons]
    exact ⟨.literal (l := []) rfl, .literal rfl, .literal rfl, .literal rfl, .literal rfl,
      .literal rfl, List.forall_mem_nil _⟩

section Members

variable {m : PlannedMethod}

theorem oneLine_memberDoc : ∀ line ∈ memberDoc m, OneLine line :=
  fun line hline ↦ (over_docBlock (.literal rfl) _ line hline).bne rfl

theorem oneLine_memberHead (h : m.Spelled) : OneLine (memberHead m) := by
  refine .append (.append (.append (.append (.append (.append (.literal rfl) ?_) (.literal rfl)) ?_)
    (.literal rfl)) ?_) (.literal rfl)
  · exact oneLine_ident h.ident.legal
  · exact h.over_declarations.bne (by decide)
  · exact h.over_result.bne (by decide)

theorem oneLine_arguments (h : m.Spelled) : OneLine m.arguments :=
  .append (.append (.literal rfl) (h.over_arguments.bne (by decide))) (.literal rfl)

theorem oneLine_clientMember (h : m.Spelled) : ∀ line ∈ clientMember m, OneLine line := by
  have hresult : OneLine m.result.typeExpr.text := h.over_result.bne (by decide)
  have hdecoder : OneLine m.result.decoder.text := h.over_decoder.bne (by decide)
  rw [clientMember]
  refine List.forall_mem_append.2 ⟨oneLine_memberDoc, ?_⟩
  refine List.forall_mem_cons.2 ⟨oneLine_memberHead h, ?_⟩
  refine List.forall_mem_cons.2 ⟨.append (.append (.literal rfl) hresult) (.literal rfl), ?_⟩
  refine List.forall_mem_cons.2 ⟨.append (.append (.append (.append (.literal rfl)
    (oneLine_stringLiteral _)) (.literal rfl)) (oneLine_arguments h)) (.literal rfl), ?_⟩
  refine List.forall_mem_cons.2 ⟨.append (.append (.literal rfl) hdecoder) (.literal rfl), ?_⟩
  refine List.forall_mem_cons.2 ⟨.literal rfl, ?_⟩
  exact List.forall_mem_cons.2 ⟨.literal rfl, List.forall_mem_nil _⟩

theorem oneLine_implementationMember (h : m.Spelled) :
    ∀ line ∈ implementationMember m, OneLine line := by
  have hresult : OneLine m.result.typeExpr.text := h.over_result.bne (by decide)
  have hdecoder : OneLine m.result.decoder.text := h.over_decoder.bne (by decide)
  rw [implementationMember]
  refine List.forall_mem_append.2 ⟨oneLine_memberDoc, ?_⟩
  refine List.forall_mem_cons.2 ⟨oneLine_memberHead h, ?_⟩
  refine List.forall_mem_cons.2 ⟨?_, List.forall_mem_singleton.2 (.literal rfl)⟩
  exact .append (.append (.append (.append (.append (.append (.append (.append (.literal rfl)
    hresult) (.literal rfl)) (oneLine_stringLiteral _)) (.literal rfl)) (oneLine_arguments h))
    (.literal rfl)) hdecoder) (.literal rfl)

/-- Members have an empty line in front of each. -/
theorem oneLine_members {methods : List PlannedMethod} {member : PlannedMethod → Lines}
    (h : ∀ m ∈ methods, ∀ line ∈ member m, OneLine line) :
    ∀ line ∈ methods.flatMap fun m ↦ "" :: member m, OneLine line := by
  intro line hline
  obtain ⟨m, hm, hline⟩ := List.mem_flatMap.1 hline
  rcases List.mem_cons.1 hline with rfl | hline
  · exact .literal (l := []) rfl
  · exact h m hm line hline

end Members

theorem oneLine_genericMember : ∀ line ∈ genericMember, OneLine line := by
  refine List.forall_mem_cons.2 ⟨.append (.literal rfl) (.literal rfl), ?_⟩
  refine List.forall_mem_cons.2 ⟨.append (.literal rfl) (.literal rfl), ?_⟩
  exact List.forall_mem_cons.2 ⟨.literal rfl, List.forall_mem_nil _⟩

/-! ### Whole modules -/

/-- The lines of a module. -/
def moduleLines (text : String) : List (List Char) :=
  Text.splitOn '\n' text.toList

/-- A module is taken apart into its lines, if those around its class are lines each. -/
theorem moduleLines_text {before body : Lines} {className : String}
    (hbefore : ∀ line ∈ before, Preface line) (hclass : isLegal className = true)
    (hbody : ∀ line ∈ body, OneLine line) :
    moduleLines (before ++ classHead className :: body).text =
      (before ++ classHead className :: body).map String.toList ++ [[]] := by
  have hhead : OneLine (classHead className) :=
    .append (.append (.literal rfl) (oneLine_ident hclass)) (.literal rfl)
  refine splitOn_text (List.forall_mem_append.2 ⟨fun line hline ↦ ?_,
    List.forall_mem_cons.2 ⟨hhead.not_mem rfl, fun line hline ↦ ?_⟩⟩)
  · exact (hbefore line hline).oneLine.not_mem rfl
  · exact (hbody line hline).not_mem rfl

/-! ### Where the class stands -/

/-- **The lines of a module from its class on**, if no line before it passes for its first. -/
theorem classLines_text {before body : Lines} {className : String}
    (hbefore : ∀ line ∈ before, Preface line) (hclass : isLegal className = true)
    (hbody : ∀ line ∈ body, OneLine line) :
    classLines (before ++ classHead className :: body).text =
      (classHead className :: body).map String.toList ++ [[]] := by
  have hskip : ∀ line ∈ before.map String.toList, (!startsClass line) = true := by
    intro line hline
    obtain ⟨text, htext, rfl⟩ := List.mem_map.1 hline
    rw [Bool.not_eq_true', ← Bool.not_eq_true, startsClass_iff]
    exact (hbefore text htext).noClass
  have hstop : startsClass (classHead className).toList = true := by
    have hmark : "export class ".toList = classMark := String.toList_ofList
    rw [startsClass_iff, toList_classHead, hmark]
    exact List.prefix_append _ _
  show (moduleLines _).dropWhile _ = _
  rw [moduleLines_text hbefore hclass hbody, List.map_append, List.append_assoc,
    List.dropWhile_append_of_pos hskip, List.map_cons, List.cons_append, List.dropWhile_cons,
    hstop]
  rfl

/-- The lines of a client module in front of its class. -/
theorem preface_client {p : Plan} (hp : p.Spelled) :
    ∀ line ∈ header p "typed contract client" ++ prelude ++
      (if p.events.isEmpty then [] else "" :: eventLines p) ++ [""], Preface line := by
  refine List.forall_mem_append.2 ⟨List.forall_mem_append.2 ⟨List.forall_mem_append.2
    ⟨preface_header (by decide), preface_prelude⟩, ?_⟩, ?_⟩
  · split
    · exact List.forall_mem_nil _
    · exact List.forall_mem_cons.2 ⟨.empty, preface_eventLines hp⟩
  · exact List.forall_mem_cons.2 ⟨.empty, List.forall_mem_nil _⟩

theorem oneLine_clientClass {p : Plan} (hp : p.Spelled) :
    ∀ line ∈ classFields p p.className ++ p.methods.flatMap (fun m ↦ "" :: clientMember m) ++
      ["\x7d"], OneLine line := by
  refine List.forall_mem_append.2 ⟨List.forall_mem_append.2
    ⟨oneLine_classFields hp hp.className.legal, ?_⟩, ?_⟩
  · exact oneLine_members fun m hm ↦ oneLine_clientMember (hp.methods m hm)
  · exact List.forall_mem_cons.2 ⟨.literal rfl, List.forall_mem_nil _⟩

/-- A client module in two parts, in front of its class and from it on. -/
theorem clientLines_eq (p : Plan) :
    clientLines p = (header p "typed contract client" ++ prelude ++
      (if p.events.isEmpty then [] else "" :: eventLines p) ++ [""]) ++
        classHead p.className :: (classFields p p.className ++
          p.methods.flatMap (fun m ↦ "" :: clientMember m) ++ ["\x7d"]) := by
  simp only [clientLines, List.append_assoc, List.cons_append, List.nil_append]

/-- The lines of the client class. -/
theorem classLines_client {p : Plan} (hp : p.Spelled) :
    classLines (client p).text = (classHead p.className :: (classFields p p.className ++
      p.methods.flatMap (fun m ↦ "" :: clientMember m) ++ ["\x7d"])).map String.toList ++ [[]] := by
  rw [text_client, clientLines_eq,
    classLines_text (preface_client hp) hp.className.legal (oneLine_clientClass hp)]

theorem isLegal_implementationClass {p : Plan} (hp : p.Spelled) :
    isLegal (implementationClass p) = true :=
  isLegal_append hp.className.legal (.literal rfl)

/-- The lines of an implementation module in front of its class. -/
theorem preface_implementation {p : Plan} (hp : p.Spelled) :
    ∀ line ∈ header p "generic invoker implementation" ++ importLines p ++ [""], Preface line := by
  refine List.forall_mem_append.2 ⟨List.forall_mem_append.2
    ⟨preface_header (by decide), preface_importLines hp⟩, ?_⟩
  exact List.forall_mem_cons.2 ⟨.empty, List.forall_mem_nil _⟩

theorem oneLine_implementationClass {p : Plan} (hp : p.Spelled) :
    ∀ line ∈ classFields p (implementationClass p) ++ ([""] ++ genericMember) ++
      p.methods.flatMap (fun m ↦ "" :: implementationMember m) ++ ["\x7d"], OneLine line := by
  refine List.forall_mem_append.2 ⟨List.forall_mem_append.2 ⟨List.forall_mem_append.2
    ⟨oneLine_classFields hp (isLegal_implementationClass hp), ?_⟩, ?_⟩, ?_⟩
  · exact List.forall_mem_cons.2 ⟨.literal (l := []) rfl, oneLine_genericMember⟩
  · exact oneLine_members fun m hm ↦ oneLine_implementationMember (hp.methods m hm)
  · exact List.forall_mem_cons.2 ⟨.literal rfl, List.forall_mem_nil _⟩

/-- An implementation module in two parts, in front of its class and from it on. -/
theorem implementationLines_eq (p : Plan) :
    implementationLines p = (header p "generic invoker implementation" ++ importLines p ++ [""]) ++
      classHead (implementationClass p) :: (classFields p (implementationClass p) ++
        ([""] ++ genericMember) ++ p.methods.flatMap (fun m ↦ "" :: implementationMember m) ++
          ["\x7d"]) := by
  simp only [implementationLines, List.append_assoc, List.cons_append, List.nil_append]

/-- The lines of the implementation class. -/
theorem classLines_implementation {p : Plan} (hp : p.Spelled) :
    classLines (implementation p).text =
      (classHead (implementationClass p) :: (classFields p (implementationClass p) ++
        ([""] ++ genericMember) ++ p.methods.flatMap (fun m ↦ "" :: implementationMember m) ++
        ["\x7d"])).map String.toList ++ [[]] := by
  rw [text_implementation, implementationLines_eq, classLines_text (preface_implementation hp)
    (isLegal_implementationClass hp) (oneLine_implementationClass hp)]

/-- **The lines of a client module** are those that it is written from. -/
theorem moduleLines_client {p : Plan} (hp : p.Spelled) :
    moduleLines (client p).text = (clientLines p).map String.toList ++ [[]] := by
  rw [text_client, clientLines_eq,
    moduleLines_text (preface_client hp) hp.className.legal (oneLine_clientClass hp)]

/-- **The lines of an implementation module** are those that it is written from. -/
theorem moduleLines_implementation {p : Plan} (hp : p.Spelled) :
    moduleLines (implementation p).text = (implementationLines p).map String.toList ++ [[]] := by
  rw [text_implementation, implementationLines_eq, moduleLines_text (preface_implementation hp)
    (isLegal_implementationClass hp) (oneLine_implementationClass hp)]

end ContractBindings.Module
