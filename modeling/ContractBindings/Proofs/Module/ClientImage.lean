import ContractBindings.Proofs.Manifest.Loaded
import ContractBindings.Proofs.Module.SameInvocations

/-!
# The client class as an image of the manifest

From a manifest that is loaded to the text of its client module, every method becomes one member and
every member comes from one method (`client_depicts_entries`). Members are counted in the plainest
way, by the looks of lines (`DeclaresMember`), and no line that quotes the manifest looks that way.
What a member says is compared with the entry it belongs to by accessors of the document alone: its
operation decodes to the name of the entry, and its arguments are the encodings of its parameters by
the types that the descriptors of the entry stand for.

The loader relates entries to methods, the plan methods to members and the reader members to lines;
each relation keeps the order, so the image is their composition.
-/

namespace ContractBindings.Module

open Binding Identifier
open Text (Over)

/-! ### Lines that look like declarations -/

/-- A line that stands exactly two columns deep, holds the type of a promise behind a parameter
list, and opens a body. -/
def DeclaresMember (line : List Char) : Prop :=
  "  ".toList <+: line ∧ ¬ "   ".toList <+: line ∧ "): Promise<".toList <:+: line ∧
    " \x7b".toList <:+ line

instance : DecidablePred DeclaresMember :=
  fun line ↦ inferInstanceAs (Decidable ("  ".toList <+: line ∧ ¬ "   ".toList <+: line ∧
    "): Promise<".toList <:+: line ∧ " \x7b".toList <:+ line))

/-- The lines of the class of a module that look like declarations of members. -/
def memberLines (text : String) : List (List Char) :=
  (classLines text).tail.filter (DeclaresMember ·)

variable {m : PlannedMethod} {s t : String}

theorem declaresMember_memberHead (h : m.Spelled) : DeclaresMember (memberHead m).toList := by
  obtain ⟨c, rest, hident, hstart, -⟩ := exists_cons_of_isLegalChars h.ident.legal
  have hspace : c ≠ ' ' := by
    rintro rfl
    exact absurd hstart (by decide)
  have htext : (memberHead m).toList = "  ".toList ++ (m.ident.toList ++ ("(".toList ++
      (m.declarations.toList ++ ("): Promise<".toList ++ (m.result.typeExpr.text.toList ++
        "> \x7b".toList))))) := by
    simp only [memberHead, String.toList_append, List.append_assoc]
  refine ⟨?_, ?_, ?_, ?_⟩
  · rw [htext]
    exact List.prefix_append _ _
  · rw [htext, hident]
    rintro ⟨tail, htail⟩
    have hthird : ' ' :: tail = c :: (rest ++ _) := (List.append_right_inj "  ".toList).1 htail
    exact hspace (List.cons_eq_cons.1 hthird).1.symm
  · refine ⟨"  ".toList ++ m.ident.toList ++ "(".toList ++ m.declarations.toList,
      m.result.typeExpr.text.toList ++ "> \x7b".toList, ?_⟩
    rw [htext]
    simp only [List.append_assoc]
  · refine ⟨"  ".toList ++ m.ident.toList ++ "(".toList ++ m.declarations.toList ++
      "): Promise<".toList ++ m.result.typeExpr.text.toList ++ ['>'], ?_⟩
    rw [htext]
    simp only [List.append_assoc]
    rfl

theorem not_declaresMember_literal {l : List Char} (h : ¬ DeclaresMember l) :
    ¬ DeclaresMember (String.ofList l).toList := by
  rwa [String.toList_ofList]

theorem not_declaresMember_of_indented (h : Indented s) : ¬ DeclaresMember s.toList := by
  obtain ⟨rest, hrest⟩ := h
  rintro ⟨-, hthree, -⟩
  rw [hrest] at hthree
  exact hthree ⟨rest, rfl⟩

/-- Only a line that ends in a brace opens a body. -/
theorem not_declaresMember_of_semicolon (s : String) : ¬ DeclaresMember (s ++ ";").toList := by
  rintro ⟨-, -, -, rest, hrest⟩
  have hlast := congrArg List.getLast? hrest
  rw [String.toList_append, List.getLast?_append, List.getLast?_append] at hlast
  cases hlast

/-- Only a line with an angle bracket holds the type of a promise. -/
theorem not_declaresMember_of_over {p : Char → Bool} (h : Over p s) (hp : p '<' = false) :
    ¬ DeclaresMember s.toList := by
  rintro ⟨-, -, hpromise, -⟩
  exact h.not_mem hp (hpromise.subset (by decide))

/-! ### The lines of the client class -/

/-- Lines none of which looks like a declaration. -/
abbrev Dull (lines : Lines) : Prop :=
  ∀ line ∈ lines, ¬ DeclaresMember line.toList

theorem dull_classFields {p : Plan} {className : String} (hclass : isLegal className = true) :
    Dull (classFields p className) := by
  have hplain : ∀ parameter ∈ ["scriptHash: Hash160 = " ++ className ++ ".SCRIPT_HASH",
      "scriptHash: Hash160"], Over (· != '<') parameter := by
    refine List.forall_mem_cons.2 ⟨?_, List.forall_mem_singleton.2 (.literal rfl)⟩
    exact .append (.append (.literal rfl) ((over_of_isLegal hclass).bne (by decide))) (.literal rfl)
  refine forall_mem_classFields (fun value _ ↦ not_declaresMember_of_semicolon _)
    (fun parameter hparameter ↦ ?_) ?_
  · have hover : Over (· != '<') ("  constructor(invoker: ContractInvoker, " ++ parameter ++
        ") \x7b") :=
      .append (.append (.literal rfl) (hplain parameter hparameter)) (.literal rfl)
    exact not_declaresMember_of_over hover (bne_self_eq_false '<')
  · simp only [List.forall_mem_cons]
    have hempty : ¬ DeclaresMember "".toList := not_declaresMember_literal (l := []) (by decide)
    exact ⟨hempty, not_declaresMember_literal (by decide +kernel),
      not_declaresMember_literal (by decide +kernel), not_declaresMember_of_indented .literal,
      not_declaresMember_of_indented .literal, not_declaresMember_literal (by decide +kernel),
      List.forall_mem_nil _⟩

theorem dull_memberDoc : Dull (memberDoc m) := by
  refine forall_mem_docBlock ?_ (fun text ↦ ?_) ?_ _
  · exact not_declaresMember_literal (l := [' ', ' ', '/', '*', '*']) (by decide)
  · have hindent : Indented ("  " ++ " * ") := ⟨['*', ' '], rfl⟩
    exact not_declaresMember_of_indented hindent.append
  · exact not_declaresMember_of_indented ⟨['*', '/'], rfl⟩

theorem filter_dull {lines : Lines} (h : Dull lines) :
    (lines.map String.toList).filter (DeclaresMember ·) = [] := by
  rw [List.filter_eq_nil_iff]
  intro line hline
  obtain ⟨l, hl, rfl⟩ := List.mem_map.1 hline
  rw [decide_eq_true_eq]
  exact h l hl

/-- Of the lines of a member the head alone looks like a declaration. -/
theorem filter_clientMember (h : m.Spelled) :
    (("" :: clientMember m).map String.toList).filter (DeclaresMember ·) =
      [(memberHead m).toList] := by
  have hempty : Dull [""] :=
    List.forall_mem_singleton.2 (not_declaresMember_literal (l := []) (by decide))
  have hdull : Dull (invocationLines m) := by
    intro line hline
    -- An operation may say anything, but it stands too deep.
    rcases ofBody_invocationLines line hline with hindented | rfl
    · exact not_declaresMember_of_indented hindented
    · exact not_declaresMember_literal (by decide +kernel)
  have hsplit : ("" :: clientMember m).map String.toList =
      ([""] : Lines).map String.toList ++ ((memberDoc m).map String.toList ++
        ((memberHead m).toList :: (invocationLines m).map String.toList)) := by
    rw [clientMember_eq, List.map_cons, List.map_append, List.map_cons]
    rfl
  rw [hsplit, List.filter_append, filter_dull hempty, List.filter_append,
    filter_dull dull_memberDoc,
    List.filter_cons_of_pos (by simpa using declaresMember_memberHead h), filter_dull hdull]
  rfl

/-- **The lines that look like declarations are the heads of the members.** -/
theorem memberLines_client {p : Plan} (hp : p.Spelled) :
    memberLines (client p).text = p.methods.map fun m ↦ (memberHead m).toList := by
  have hmembers : ∀ methods : List PlannedMethod, (∀ m ∈ methods, m.Spelled) →
      ((methods.flatMap fun m ↦ "" :: clientMember m).map String.toList).filter (DeclaresMember ·) =
        methods.map fun m ↦ (memberHead m).toList := by
    intro methods hmethods
    induction methods with
    | nil => rfl
    | cons m methods ih =>
      rw [List.flatMap_cons, List.map_append, List.filter_append,
        filter_clientMember (hmethods m List.mem_cons_self),
        ih fun n hn ↦ hmethods n (List.mem_cons_of_mem _ hn)]
      rfl
  have hend : ((["\x7d"] : Lines).map String.toList ++ [[]]).filter (DeclaresMember ·) = [] := by
    decide +kernel
  rw [memberLines, classLines_client hp, List.map_cons, List.cons_append, List.tail_cons,
    List.map_append, List.map_append, List.append_assoc, List.append_assoc, List.filter_append,
    filter_dull (dull_classFields hp.className.legal), List.nil_append, List.filter_append,
    hmembers _ hp.methods, hend, List.append_nil]

/-! ### Members and entries -/

/-- The name that a declaration declares. -/
def declaredName (declaration : String) : String :=
  String.ofList (declaration.toList.takeWhile (· ≠ ':'))

/-- The list of the encodings of parameters, each by its type. -/
def encodedArguments (names : List String) (types : List AbiType) : String :=
  "[" ++ ", ".intercalate (List.zipWith (fun name type ↦ (encode name type).text) names types) ++
    "]"

/-- A member of a client class that belongs to an entry of the list of methods: its operation is a
literal for the name of the entry, and it declares as many parameters as the entry, under distinct
names, which it encodes in order by the types that the descriptors of the entry stand for. -/
structure Depicts (options : Options) (entry : Json) (member : Head × Invocation) : Prop where
  operation : ∃ name literal, Manifest.entryName? entry = some name ∧
    member.2.descriptor.lookup "operation" = some literal ∧
    Json.parse literal = .ok (.string name)
  nodup : (member.1.parameters.map declaredName).Nodup
  arguments : ∃ entries types, Manifest.parameterEntries? entry = some entries ∧
    member.1.parameters.length = entries.length ∧
    List.Forall₂ (fun parameter type ↦ ∃ descriptor,
      Manifest.descriptor? parameter = some descriptor ∧
        Manifest.StandsFor options descriptor type) entries types ∧
    member.2.descriptor.lookup "args" =
      some (encodedArguments (member.1.parameters.map declaredName) types)

theorem declaredName_declaration {q : PlannedParameter} (h : q.Spelled) :
    declaredName q.declaration = q.ident := by
  have hident : ∀ c ∈ q.ident.toList, decide (c ≠ ':') = true := by
    intro c hc
    rw [decide_eq_true_eq]
    rintro rfl
    exact (over_of_isLegal h.ident).not_mem (by decide) hc
  have htext : q.declaration.toList =
      q.ident.toList ++ (": ".toList ++ q.mapped.typeExpr.text.toList) := by
    rw [PlannedParameter.declaration, String.toList_append, String.toList_append, List.append_assoc]
  have hstop : ∀ rest, (": ".toList ++ rest).takeWhile (· ≠ ':') = [] := fun rest ↦ rfl
  rw [declaredName, htext, List.takeWhile_append_of_pos hident, hstop, List.append_nil,
    String.ofList_toList]

theorem map_declaredName {parameters : List PlannedParameter} (h : ∀ q ∈ parameters, q.Spelled) :
    (parameters.map (·.declaration)).map declaredName = parameters.map (·.ident) := by
  rw [List.map_map]
  exact List.map_congr_left fun q hq ↦ declaredName_declaration (h q hq)

/-- The arguments of a member are encoded under the names that it declares. -/
theorem arguments_eq_encodedArguments (m : PlannedMethod) :
    m.arguments = encodedArguments (m.parameters.map (·.ident)) (m.parameters.map (·.type)) := by
  rw [PlannedMethod.arguments, encodedArguments, List.zipWith_map, List.zipWith_self]
  rfl

/-- A method that an entry describes becomes a member that belongs to the entry. -/
theorem depicts_of_describes {options : Options} {entry : Json} {method : Method} {ident : String}
    (h : Manifest.Describes options entry method) :
    Depicts options entry (memberHeadText (sketchMethod method ident),
      memberInvocation (sketchMethod method ident)) := by
  have hspelled := spelled_sketchParameters method.parameters
  have hnames : (memberHeadText (sketchMethod method ident)).parameters.map declaredName =
      (sketchParameters method.parameters).map (·.ident) := map_declaredName hspelled
  obtain ⟨entries, hentries, hall⟩ := h.parameters
  refine ⟨⟨method.name, Json.stringLiteral method.name, h.name, rfl,
    Json.parse_stringLiteral method.name⟩, ?_, entries, method.parameters.map (·.type), hentries,
    ?_, ?_, ?_⟩
  · rw [hnames]
    exact nodup_ident_sketchParameters method.parameters
  · have hlength := congrArg List.length (map_type_sketchParameters method.parameters)
    rw [List.length_map, List.length_map] at hlength
    rw [hall.length_eq, ← hlength]
    exact List.length_map _
  · rw [List.forall₂_map_right_iff]
    exact hall
  · show some (sketchMethod method ident).arguments = _
    rw [hnames, arguments_eq_encodedArguments, ← map_type_sketchParameters]
    rfl

/-- **The client class is a one-to-one image of the list of methods.** A manifest that is loaded and
generated has a list of methods; the lines of the client class that look like declarations are as
many as its entries and are the first lines of the members, and the members belong to the entries
one by one, in order. -/
theorem client_depicts_entries {options : Options} {document : Manifest.Document} {c : Contract}
    {written : List SourceModule} (hload : (Manifest.load options document).result = .ok c)
    (hgenerate : generate options c = .ok written) :
    ∃ (m : SourceModule) (k : ClassText Invocation) (entries : List Json),
      written.head? = some m ∧
      Manifest.methodEntries? document.body = some entries ∧
      readClass? readInvocation? m.text = some k ∧
      (memberLines m.text).length = entries.length ∧
      (memberLines m.text).map readHead? = k.members.map (fun member ↦ some member.1) ∧
      List.Forall₂ (Depicts options) entries k.members := by
  obtain ⟨entries, hentries, hdescribes⟩ := Manifest.describes_of_load hload
  obtain ⟨p, hplan, rfl, -⟩ := exists_plan_of_generate hgenerate
  have hp := spelled_of_plan hplan
  obtain ⟨className, hclass, rfl⟩ := eq_sketch_of_plan hplan
  have hzip : (c.methods.zip (methodNames c.methods)).map Prod.fst = c.methods :=
    List.map_fst_zip (Nat.le_of_eq (length_methodNames c.methods).symm)
  have hmembers : List.Forall₂ (Depicts options) entries
      ((sketch options c className).methods.map fun m ↦
        (memberHeadText m, memberInvocation m)) := by
    rw [List.forall₂_map_right_iff]
    -- Names are put beside the methods, which keeps the methods and their order.
    show List.Forall₂ _ entries ((c.methods.zip (methodNames c.methods)).map _)
    rw [← hzip, List.forall₂_map_right_iff] at hdescribes
    rw [List.forall₂_map_right_iff]
    exact hdescribes.imp fun entry (_, _) h ↦ depicts_of_describes h
  refine ⟨client (sketch options c className), _, entries, rfl, hentries, readClass?_client hp, ?_,
    ?_, hmembers⟩
  · rw [memberLines_client hp, List.length_map, hmembers.length_eq, List.length_map]
  · rw [memberLines_client hp, List.map_map, List.map_map]
    exact List.map_congr_left fun m hm ↦ readHead?_memberHead (hp.methods m hm)

/-- A manifest with two methods of one name, one an object and one an array, the second with a
parameter whose type is not known. -/
def mixedDocument : Manifest.Document where
  body := .object
    [("abi", .object [("methods", .array
      [.object [("name", .string "a\" b"), ("parameters", .array []),
          ("returntype", .string "Void")],
        .array [.string "a\" b", .array [.array [.string "x:y", .string "Map<String,Integer>"],
          .object [("name", .string "x y"), ("type", .string "Odd")]], .string "Any"]])]),
      ("name", .string "Mixed")]
  sourceHash := none

/-- Both forms of entries are depicted, overloaded and with parameters that share a name. -/
theorem client_depicts_mixedDocument :
    ∃ (m : SourceModule) (k : ClassText Invocation) (entries : List Json),
      Manifest.methodEntries? mixedDocument.body = some entries ∧
      readClass? readInvocation? m.text = some k ∧
      (memberLines m.text).length = entries.length ∧
      List.Forall₂ (Depicts { allowUnknownTypes := true }) entries k.members := by
  let options : Options := { allowUnknownTypes := true }
  let c : Contract :=
    { name := "Mixed"
      scriptHash := none
      supportedStandards := []
      methods :=
        [⟨"a\" b", [], .scalar .void, false, none⟩,
          ⟨"a\" b", [⟨"x:y", .map (.scalar .string) (.scalar .integer), 0⟩,
            ⟨"x y", .scalar .any, 1⟩], .scalar .any, false, none⟩]
      events := [] }
  let p := sketch options c "Mixed"
  have hload : (Manifest.load options mixedDocument).result = .ok c := by decide +kernel
  have hplan : plan options c = .ok p := by decide +kernel
  have hgenerate : generate options c = .ok (modules options p) := by
    show (plan options c >>= fun q ↦ .ok (modules options q)) = _
    rw [hplan]
    rfl
  obtain ⟨m, k, entries, -, hentries, hread, hlength, -, hdepicts⟩ :=
    client_depicts_entries hload hgenerate
  exact ⟨m, k, entries, hentries, hread, hlength, hdepicts⟩

end ContractBindings.Module
