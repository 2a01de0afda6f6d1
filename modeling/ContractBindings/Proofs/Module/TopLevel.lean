import ContractBindings.Proofs.Module.Layout
import ContractBindings.Proofs.Text.Runs

/-!
# What modules declare and import

A module declares and imports names at its top level, each on a line of its own: `export` and a word
for the kind of the declaration stand in front of a declared name, `import` in front of imported
ones. Both are read from the text of a module, all lines of which are looked at
(`exports_client`, `imports_implementation`).

Of the other lines nothing has to be known but how they begin. Comments begin with a slash, what
stands in a class or an interface with a blank, and its end with a brace: such a line is *inner*,
and no reader of top-level lines finds anything in it, whatever else it holds (`Inner`).
-/

namespace ContractBindings.Module

open Binding Identifier
open Text (Over)

/-! ### Readers -/

/-- The name that a line declares. -/
def exportedName? (line : List Char) : Option String := do
  let s ← after? "export ".toList line
  let (_, s) ← upTo? ' ' s
  return String.ofList (s.takeWhile isPart)

/-- An import of names from another module. -/
structure Import where
  /-- Whether only types are imported. -/
  onlyTypes : Bool
  names : List String
  source : String
  deriving DecidableEq, Repr

/-- Reads a line that imports names. -/
def readImport? (line : List Char) : Option Import := do
  let s ← after? "import ".toList line
  let (kind, s) ← upTo? '\x7b' s
  let (names, s) ← upTo? '\x7d' s
  let names ← after? " ".toList names
  let names ← before? " ".toList names
  let s ← after? " from ".toList s
  let source ← before? ";".toList s
  return ⟨kind = "type ".toList, splitItems '<' '>' names, String.ofList source⟩

/-- The names that a module declares, in order. -/
def exports (text : String) : List String :=
  (moduleLines text).filterMap exportedName?

/-- The imports of a module, in order. -/
def imports (text : String) : List Import :=
  (moduleLines text).filterMap readImport?

/-! ### Inner lines -/

/-- A text that begins with a blank, a slash or a closing brace. -/
def Inner (s : String) : Prop :=
  ∃ c rest, s.toList = c :: rest ∧ c ∈ [' ', '/', '\x7d']

theorem Inner.literal {c : Char} {l : List Char} (hc : c ∈ [' ', '/', '\x7d']) :
    Inner (String.ofList (c :: l)) :=
  ⟨c, l, String.toList_ofList, hc⟩

theorem Inner.append {s t : String} (h : Inner s) : Inner (s ++ t) := by
  obtain ⟨c, rest, hs, hc⟩ := h
  exact ⟨c, rest ++ t.toList, by rw [String.toList_append, hs]; rfl, hc⟩

theorem Inner.blank (s : String) : Inner ("  " ++ s) :=
  .append ⟨' ', [' '], rfl, List.mem_cons_self⟩

/-- Lines none of which stands at the top level of a module, empty ones among them. -/
def AllInner (lines : Lines) : Prop :=
  ∀ line ∈ lines, line = "" ∨ Inner line

/-- A reader of lines that begin with a fixed piece finds nothing in inner lines. -/
theorem filterMap_inner {α : Type} {read : List Char → Option α} {c : Char} {piece : List Char}
    (hc : c ∉ [' ', '/', '\x7d'])
    (hread : ∀ line, after? (c :: piece) line = none → read line = none) {lines : Lines}
    (h : AllInner lines) : (lines.map String.toList).filterMap read = [] := by
  rw [List.filterMap_map, List.filterMap_eq_nil_iff]
  intro line hline
  refine hread _ ?_
  rcases h line hline with rfl | ⟨d, rest, heq, hd⟩
  · rfl
  · have hne : c ≠ d := fun hcd ↦ hc (hcd ▸ hd)
    rw [heq, after?, if_neg hne]

theorem exportedName?_eq_none {line : List Char} (h : after? "export ".toList line = none) :
    exportedName? line = none := by
  rw [exportedName?, h]
  rfl

theorem readImport?_eq_none {line : List Char} (h : after? "import ".toList line = none) :
    readImport? line = none := by
  rw [readImport?, h]
  rfl

theorem filterMap_exportedName?_inner {lines : Lines} (h : AllInner lines) :
    (lines.map String.toList).filterMap exportedName? = [] :=
  filterMap_inner (c := 'e') (by decide) (fun _ ↦ exportedName?_eq_none) h

theorem filterMap_readImport?_inner {lines : Lines} (h : AllInner lines) :
    (lines.map String.toList).filterMap readImport? = [] :=
  filterMap_inner (c := 'i') (by decide) (fun _ ↦ readImport?_eq_none) h

namespace AllInner

theorem append {a b : Lines} (ha : AllInner a) (hb : AllInner b) : AllInner (a ++ b) :=
  List.forall_mem_append.2 ⟨ha, hb⟩

theorem empty : AllInner [""] :=
  List.forall_mem_singleton.2 (.inl rfl)

theorem flatMap {α : Type} {l : List α} {f : α → Lines} (h : ∀ a, AllInner (f a)) :
    AllInner (l.flatMap f) := by
  intro line hline
  obtain ⟨a, -, hline⟩ := List.mem_flatMap.1 hline
  exact h a line hline

theorem header (p : Plan) (description : String) : AllInner (header p description) := by
  have hcomment : ∀ content, Inner (comment content) := fun content ↦
    .append (.append (.literal (by decide)))
  rw [AllInner, header_eq, List.forall_mem_append, List.forall_mem_map]
  exact ⟨fun content _ ↦ .inr (hcomment content), empty⟩

/-- Documentation is inner behind any indent of blanks. -/
theorem docBlock {indent : String} (hindent : indent = "" ∨ indent = "  ") (lines : Lines) :
    AllInner (docBlock indent lines) := by
  have hindent : ∀ {c : Char} {l : List Char}, c ∈ [' ', '/', '\x7d'] →
      Inner (indent ++ String.ofList (c :: l)) := by
    intro c l hc
    rcases hindent with rfl | rfl
    · rw [String.empty_append]
      exact .literal hc
    · exact .blank _
  exact forall_mem_docBlock (.inr (hindent (by decide)))
    (fun text ↦ .inr (hindent (by decide)).append) (.inr (hindent (by decide))) lines

theorem classFields (p : Plan) (className : String) : AllInner (classFields p className) := by
  refine forall_mem_classFields (fun value _ ↦ ?_) (fun parameter _ ↦ ?_) ?_
  · exact .inr (.append (.append (.literal (by decide))))
  · exact .inr (.append (.append (.literal (by decide))))
  · refine List.forall_mem_cons.2 ⟨.inl rfl, ?_⟩
    simp only [List.forall_mem_cons]
    exact ⟨.inr (.literal (by decide)), .inr (.literal (by decide)), .inr (.literal (by decide)),
      .inr (.literal (by decide)), .inr (.literal (by decide)), List.forall_mem_nil _⟩

variable (m : PlannedMethod)

theorem memberHead : Inner (memberHead m) :=
  .append (.append (.append (.append (.append (.blank _)))))

theorem clientMember : AllInner (clientMember m) := by
  refine .append (docBlock (.inr rfl) _) ?_
  simp only [AllInner, List.forall_mem_cons]
  exact ⟨.inr (memberHead m), .inr (.append (.append (.literal (by decide)))),
    .inr (.append (.append (.append (.append (.literal (by decide)))))),
    .inr (.append (.append (.literal (by decide)))), .inr (.literal (by decide)),
    .inr (.literal (by decide)), List.forall_mem_nil _⟩

theorem implementationMember : AllInner (implementationMember m) := by
  refine .append (docBlock (.inr rfl) _) ?_
  simp only [AllInner, List.forall_mem_cons]
  exact ⟨.inr (memberHead m), .inr (.append (.append (.append (.append (.append (.append (.append
    (.append (.literal (by decide)))))))))), .inr (.literal (by decide)), List.forall_mem_nil _⟩

theorem genericMember : AllInner genericMember := by
  simp only [AllInner, Module.genericMember, List.forall_mem_cons]
  exact ⟨.inr (.append (.literal (by decide))), .inr (.append (.literal (by decide))),
    .inr (.literal (by decide)), List.forall_mem_nil _⟩

end AllInner

/-! ### Declared names -/

theorem exportedName?_append {kind rest : List Char} {name : String} (hkind : ' ' ∉ kind)
    (hname : isLegal name = true) (hrest : Text.StopsRun isPart rest) :
    exportedName? ("export ".toList ++ (kind ++ ' ' :: (name.toList ++ rest))) = some name := by
  have hword : String.ofList ((name.toList ++ rest).takeWhile isPart) = name := by
    rw [Text.takeWhile_append (over_of_isLegal hname) hrest, String.ofList_toList]
  refine bind_eq_some (after?_append _ _) ?_
  refine bind_eq_some (upTo?_append hkind _) ?_
  exact congrArg some hword

/-- A line that declares a name and opens its body. -/
theorem exportedName?_declaration {line name : String} (kind : String) (rest : List Char)
    (hkind : ' ' ∉ kind.toList) (hname : isLegal name = true) (hrest : Text.StopsRun isPart rest)
    (hline : line.toList = "export ".toList ++ (kind.toList ++ ' ' :: (name.toList ++ rest))) :
    exportedName? line.toList = some name := by
  rw [hline, exportedName?_append hkind hname hrest]

theorem exports_prelude : (prelude.map String.toList).filterMap exportedName? = preludeExports := by
  simp only [prelude, List.map_cons, List.map_nil]
  -- Each line is turned into its characters here, since evaluation is slow to do that.
  repeat rw [String.toList_ofList]
  decide +kernel

/-- An event declares its interface. -/
theorem exports_eventInterface {e : PlannedEvent} (h : isLegal e.interfaceName = true) :
    ((eventInterface e).map String.toList).filterMap exportedName? = [e.interfaceName] := by
  have hhead : exportedName? ("export interface " ++ e.interfaceName ++ " \x7b").toList =
      some e.interfaceName := by
    refine exportedName?_declaration "interface" " \x7b".toList (by decide) h
      (Text.stopsRun_cons (by decide)) ?_
    simp only [String.toList_append, List.append_assoc]
    rfl
  have hfields : AllInner (e.fields.map fun field ↦ "  " ++ field.declaration ++ ";") := by
    intro line hline
    obtain ⟨field, -, rfl⟩ := List.mem_map.1 hline
    exact .inr (.append (.blank _))
  have hend : AllInner ["\x7d"] := List.forall_mem_singleton.2 (.inr (.literal (by decide)))
  rw [eventInterface, List.map_append, List.filterMap_append, List.map_append,
    List.filterMap_append, List.map_append, List.filterMap_append,
    filterMap_exportedName?_inner (.docBlock (.inl rfl) _), filterMap_exportedName?_inner hfields,
    filterMap_exportedName?_inner hend, List.map_singleton, List.filterMap_cons_some hhead]
  rfl

theorem exports_eventLines {p : Plan} (hp : p.Spelled) :
    ((eventLines p).map String.toList).filterMap exportedName? =
      p.events.map (·.interfaceName) ++ [eventTableName p.className] := by
  have hhead : exportedName? ("export const " ++ eventTableName p.className ++ " = \x7b").toList =
      some (eventTableName p.className) := by
    refine exportedName?_declaration "const" " = \x7b".toList (by decide)
      (isLegal_append hp.className.legal (.literal rfl)) (Text.stopsRun_cons (by decide)) ?_
    simp only [String.toList_append, List.append_assoc]
    rfl
  have hinterfaces : ∀ events : List PlannedEvent, (∀ e ∈ events, e.Spelled) →
      ((events.flatMap fun e ↦ eventInterface e ++ [""]).map String.toList).filterMap
        exportedName? = events.map (·.interfaceName) := by
    intro events hevents
    induction events with
    | nil => rfl
    | cons e events ih =>
      obtain ⟨he, hrest⟩ := List.forall_mem_cons.1 hevents
      rw [List.flatMap_cons, List.map_append, List.filterMap_append, List.map_append,
        List.filterMap_append, exports_eventInterface he.interfaceName,
        filterMap_exportedName?_inner .empty, ih hrest]
      rfl
  have hrows : AllInner (p.events.map fun e ↦
      "  " ++ e.key ++ ": " ++ Json.stringLiteral e.rawName ++ ",") := by
    intro line hline
    obtain ⟨e, -, rfl⟩ := List.mem_map.1 hline
    exact .inr (.append (.append (.append (.blank _))))
  have hend : AllInner ["\x7d as const;"] :=
    List.forall_mem_singleton.2 (.inr (.literal (by decide)))
  rw [eventLines, List.map_append, List.filterMap_append, List.map_append, List.filterMap_append,
    List.map_append, List.filterMap_append, hinterfaces _ hp.events,
    filterMap_exportedName?_inner hrows, filterMap_exportedName?_inner hend, List.map_singleton,
    List.filterMap_cons_some hhead, List.append_nil, List.append_nil]
  rfl

theorem exportedName?_classHead {className : String} (h : isLegal className = true) :
    exportedName? (classHead className).toList = some className := by
  refine exportedName?_declaration "class" " \x7b".toList (by decide) h
    (Text.stopsRun_cons (by decide)) ?_
  rw [toList_classHead]
  rfl

/-- **What a client module declares**: what its prelude does, the interfaces and the table of its
events if there are any, and its class. -/
theorem exports_client {p : Plan} (hp : p.Spelled) :
    exports (client p).text = preludeExports ++
      (if p.events.isEmpty then [] else
        p.events.map (·.interfaceName) ++ [eventTableName p.className]) ++ [p.className] := by
  have hevents : ((if p.events.isEmpty then [] else "" :: eventLines p).map
      String.toList).filterMap exportedName? = if p.events.isEmpty then [] else
        p.events.map (·.interfaceName) ++ [eventTableName p.className] := by
    split
    · rfl
    · exact exports_eventLines hp
  have hbody : AllInner (classFields p p.className ++
      p.methods.flatMap (fun m ↦ "" :: clientMember m) ++ ["\x7d"]) :=
    .append (.append (.classFields p _) (.flatMap fun m ↦ .append .empty (.clientMember m)))
      (List.forall_mem_singleton.2 (.inr (.literal (by decide))))
  have hclass : ((classHead p.className :: (classFields p p.className ++
      p.methods.flatMap (fun m ↦ "" :: clientMember m) ++ ["\x7d"])).map
        String.toList).filterMap exportedName? = [p.className] := by
    rw [List.map_cons, List.filterMap_cons_some (exportedName?_classHead hp.className.legal),
      filterMap_exportedName?_inner hbody]
  rw [exports, moduleLines_client hp, clientLines_eq, List.map_append, List.map_append,
    List.map_append, List.map_append, List.filterMap_append, List.filterMap_append,
    List.filterMap_append, List.filterMap_append, List.filterMap_append, hclass, hevents,
    exports_prelude, filterMap_exportedName?_inner (.header p _),
    filterMap_exportedName?_inner .empty, List.nil_append, List.append_nil]
  exact List.append_nil _

/-! ### Imported names -/

/-- A line that imports legal names. What stands between its first word and its brace says whether
it imports types only. -/
theorem readImport?_line (opening : String) (kind : List Char) (source : String)
    {names : List String} (hkind : '\x7b' ∉ kind)
    (hopening : opening.toList = "import ".toList ++ (kind ++ "\x7b ".toList))
    (hnames : ∀ name ∈ names, isLegal name = true) :
    readImport? (opening ++ ", ".intercalate names ++ " \x7d from " ++ source ++ ";").toList =
      some ⟨kind = "type ".toList, names, source⟩ := by
  have hitems : Over isDeclarationChar (", ".intercalate names) :=
    .intercalate (.literal rfl) fun name hname ↦ (over_of_isLegal (hnames name hname)).mono
      fun _ hc ↦ isDeclarationChar_of_isTypeChar (isTypeChar_of_isPart hc)
  have hbrace : '\x7d' ∉ " ".toList ++ ((", ".intercalate names).toList ++ " ".toList) := by
    rw [List.mem_append, List.mem_append, not_or, not_or]
    exact ⟨by decide, hitems.not_mem (by decide), by decide⟩
  have hsplit : splitItems '<' '>' (", ".intercalate names).toList = names := by
    refine splitItems_intercalate (fun name hname ↦ (level_ident (over_of_isLegal
      (hnames name hname))).1) ?_
    rintro name hname rfl
    exact absurd (hnames "" hname) (by decide)
  have htext : (opening ++ ", ".intercalate names ++ " \x7d from " ++ source ++ ";").toList =
      "import ".toList ++ (kind ++ '\x7b' ::
        ((" ".toList ++ ((", ".intercalate names).toList ++ " ".toList)) ++ '\x7d' ::
          (" from ".toList ++ (source.toList ++ ";".toList)))) := by
    simp only [String.toList_append, hopening, List.append_assoc]
    rfl
  rw [readImport?, htext]
  refine bind_eq_some (after?_append _ _) ?_
  refine bind_eq_some (upTo?_append hkind _) ?_
  refine bind_eq_some (upTo?_append hbrace _) ?_
  refine bind_eq_some (after?_append _ _) ?_
  refine bind_eq_some (before?_append _ _) ?_
  refine bind_eq_some (after?_append _ _) ?_
  refine bind_eq_some (before?_append _ _) ?_
  rw [hsplit, String.ofList_toList]
  rfl

theorem isLegal_importedValues {p : Plan} (hp : p.Spelled) :
    ∀ name ∈ importedValues p, isLegal name = true := by
  refine List.forall_mem_append.2 ⟨?_, ?_⟩
  · split
    · exact List.forall_mem_singleton.2 (by decide)
    · exact List.forall_mem_nil _
  · split
    · exact List.forall_mem_singleton.2 hp.className.legal
    · exact List.forall_mem_nil _

theorem isLegal_importedTypes (p : Plan) : ∀ name ∈ importedTypes p, isLegal name = true := by
  refine List.forall_mem_append.2 ⟨List.forall_mem_append.2 ⟨by decide, ?_⟩, by decide⟩
  intro name hname
  obtain ⟨s, -, rfl⟩ := List.mem_map.1 hname
  cases s <;> decide

/-- **What an implementation module imports**, all of it from the client module. -/
theorem imports_implementation {p : Plan} (hp : p.Spelled) :
    imports (implementation p).text =
      (if (importedValues p).isEmpty then []
        else [⟨false, importedValues p, Json.stringLiteral ("./" ++ p.className)⟩]) ++
      [⟨true, importedTypes p, Json.stringLiteral ("./" ++ p.className)⟩] := by
  have hvalues := readImport?_line "import \x7b " []
    (Json.stringLiteral ("./" ++ p.className)) (by decide) rfl (isLegal_importedValues hp)
  have htypes := readImport?_line "import type \x7b " "type ".toList
    (Json.stringLiteral ("./" ++ p.className)) (by decide) rfl (isLegal_importedTypes p)
  have himports : ((importLines p).map String.toList).filterMap readImport? =
      (if (importedValues p).isEmpty then []
        else [⟨false, importedValues p, Json.stringLiteral ("./" ++ p.className)⟩]) ++
      [⟨true, importedTypes p, Json.stringLiteral ("./" ++ p.className)⟩] := by
    rw [importLines, List.map_append, List.filterMap_append, List.map_singleton,
      List.filterMap_cons_some htypes]
    split
    · rfl
    · rw [List.map_singleton, List.filterMap_cons_some hvalues]
      rfl
  have hbody : AllInner (classFields p (implementationClass p) ++ ([""] ++ genericMember) ++
      p.methods.flatMap (fun m ↦ "" :: implementationMember m) ++ ["\x7d"]) :=
    .append (.append (.append (.classFields p _) (.append .empty .genericMember))
      (.flatMap fun m ↦ .append .empty (.implementationMember m)))
      (List.forall_mem_singleton.2 (.inr (.literal (by decide))))
  have hclass : ((classHead (implementationClass p) :: (classFields p (implementationClass p) ++
      ([""] ++ genericMember) ++ p.methods.flatMap (fun m ↦ "" :: implementationMember m) ++
        ["\x7d"])).map String.toList).filterMap readImport? = [] := by
    have hhead : readImport? (classHead (implementationClass p)).toList = none := by
      rw [toList_classHead]
      exact readImport?_eq_none rfl
    rw [List.map_cons, List.filterMap_cons_none hhead, filterMap_readImport?_inner hbody]
  rw [imports, moduleLines_implementation hp, implementationLines_eq, List.map_append,
    List.map_append, List.map_append, List.filterMap_append, List.filterMap_append,
    List.filterMap_append, List.filterMap_append, hclass, himports,
    filterMap_readImport?_inner (.header p _), filterMap_readImport?_inner .empty, List.nil_append,
    List.append_nil, List.append_nil]
  exact List.append_nil _

end ContractBindings.Module
