import ContractBindings.Proofs.Module.Layout
import ContractBindings.Proofs.Module.ReadBack
import ContractBindings.Proofs.ScriptHash.Spelling

/-!
# Two classes, the same invocations

The client module and the implementation module of a contract are written by two functions that lay
their members out differently. Read as classes they say the same (`invocations_agree`): member for
member they have the same first line, and what a member of the implementation class hands to the
generic method is what the member of the client class hands to its invoker. The generic method is
read from the module too, and inlining it gives the client's invocation back.

Both classes come out of one lemma about written classes (`readClass?_text`), which is why they
agree. It needs of the lines between the constructor and the members only that none passes for a
first line, and so covers the generic method that just one of the classes has.
-/

namespace ContractBindings.Module

open Binding Identifier
open Text (Over)

/-- A fixed text is read as its characters are. -/
theorem read_literal {α : Type} {read : List Char → α} {l : List Char} {a : α} (h : read l = a) :
    read (String.ofList l).toList = a := by
  rw [String.toList_ofList, h]

/-! ### Constants and constructors -/

/-- What a class takes for a missing script hash. -/
def hashDefault? (p : Plan) (className : String) : Option String :=
  (hashConstant? p className).map fun _ ↦ className ++ ".SCRIPT_HASH"

theorem readHashDefault?_none :
    readHashDefault? ("  constructor(invoker: ContractInvoker, " ++ "scriptHash: Hash160" ++
      ") \x7b").toList = some none := by
  have hend := before?_append [] ") \x7b".toList
  rw [List.nil_append] at hend
  simp only [readHashDefault?, String.toList_append, List.append_assoc, after?_append, hend,
    Option.bind_eq_bind, Option.bind_some, if_true]
  rfl

theorem readHashDefault?_some (value : String) (hne : value.toList ≠ []) :
    readHashDefault? ("  constructor(invoker: ContractInvoker, " ++ ("scriptHash: Hash160 = " ++
      value) ++ ") \x7b").toList = some (some value) := by
  have hequals : "scriptHash: Hash160 = " = "scriptHash: Hash160" ++ " = " := by decide +kernel
  have hvalue : " = ".toList ++ value.toList ≠ [] := by
    intro h
    exact hne (List.append_eq_nil_iff.1 h).2
  have hend := before?_append (" = ".toList ++ value.toList) ") \x7b".toList
  rw [List.append_assoc] at hend
  simp only [readHashDefault?, hequals, String.toList_append, List.append_assoc, after?_append,
    hend, Option.bind_eq_bind, Option.bind_some, if_neg hvalue, String.ofList_toList]
  rfl

/-- The constructor looks like a member up to its parameters, and has no result. -/
theorem readHead?_constructor {parameter : String} (h : ')' ∉ parameter.toList) :
    readHead? ("  constructor(invoker: ContractInvoker, " ++ parameter ++ ") \x7b").toList =
      none := by
  have hword := List.all_eq_true.1 (show "constructor".toList.all isPart = true by decide +kernel)
  have hopen : "  constructor(invoker: ContractInvoker, " =
      "  " ++ "constructor" ++ "(" ++ "invoker: ContractInvoker, " := by decide +kernel
  have hparen : ')' ∉ "invoker: ContractInvoker, ".toList ++ parameter.toList := by
    rw [List.mem_append, not_or]
    exact ⟨by decide +kernel, h⟩
  have hclose : ("  " ++ "constructor" ++ "(" ++ "invoker: ContractInvoker, " ++ parameter ++
      ") \x7b").toList = "  ".toList ++ ("constructor".toList ++ ("(".toList ++
        (("invoker: ContractInvoker, ".toList ++ parameter.toList) ++ ')' :: " \x7b".toList))) := by
    simp only [String.toList_append, List.append_assoc]
    rfl
  have hkeep : ∀ rest, ("(".toList ++ rest).dropWhile isPart = "(".toList ++ rest := fun rest ↦ rfl
  have hresult : after? ": Promise<".toList " \x7b".toList = none := rfl
  simp only [hopen, hclose, readHead?, after?_append, Option.bind_eq_bind, Option.bind_some,
    List.dropWhile_append_of_pos hword, hkeep, upTo?_append hparen, hresult, Option.bind_none]

/-- What is found in lines that stand in front of the members of a class. None of them is a first
line of a member, begins the generic method or ends the constructor. -/
structure Finds (lines : Lines) (constant : Option String) (default : Option (Option String)) :
    Prop where
  constant : (lines.map String.toList).findSome? readHashConstant? = constant
  default : (lines.map String.toList).findSome? readHashDefault? = default
  head : ∀ line ∈ lines, readHead? line.toList = none
  generic : ∀ line ∈ lines, after? "  protected invokeMethod<".toList line.toList = none
  inside : ∀ line ∈ lines, line ≠ "  \x7d"

namespace Finds

variable {a b : Lines} {line : String} {constant constant' : Option String}
  {default default' : Option (Option String)}

/-- What is found first counts. -/
theorem append (ha : Finds a constant default) (hb : Finds b constant' default') :
    Finds (a ++ b) (constant.or constant') (default.or default') where
  constant := by rw [List.map_append, List.findSome?_append, ha.constant, hb.constant]
  default := by rw [List.map_append, List.findSome?_append, ha.default, hb.default]
  head := List.forall_mem_append.2 ⟨ha.head, hb.head⟩
  generic := List.forall_mem_append.2 ⟨ha.generic, hb.generic⟩
  inside := List.forall_mem_append.2 ⟨ha.inside, hb.inside⟩

theorem single (hconstant : readHashConstant? line.toList = constant)
    (hdefault : readHashDefault? line.toList = default) (hhead : readHead? line.toList = none)
    (hgeneric : after? "  protected invokeMethod<".toList line.toList = none)
    (hinside : line ≠ "  \x7d") : Finds [line] constant default where
  constant := by
    rw [List.map_singleton, List.findSome?_singleton, hconstant]
  default := by
    rw [List.map_singleton, List.findSome?_singleton, hdefault]
  head := List.forall_mem_singleton.2 hhead
  generic := List.forall_mem_singleton.2 hgeneric
  inside := List.forall_mem_singleton.2 hinside

/-- A fixed line in which nothing is found. -/
theorem literal {l : List Char} (h : readHashConstant? l = none ∧ readHashDefault? l = none ∧
    readHead? l = none ∧ after? "  protected invokeMethod<".toList l = none ∧
    l ≠ [' ', ' ', '\x7d']) : Finds [String.ofList l] none none := by
  obtain ⟨hconstant, hdefault, hhead, hgeneric, hinside⟩ := h
  refine single (read_literal hconstant) (read_literal hdefault) (read_literal hhead)
    (read_literal hgeneric) fun h ↦ ?_
  rw [← String.toList_inj, String.toList_ofList] at h
  exact hinside h

end Finds

/-- A line that is longer than a closing brace with its indent. -/
theorem ne_closing {s t : String} (h : 3 < s.length) : s ++ t ≠ "  \x7d" := by
  intro heq
  have hlength := congrArg String.length heq
  rw [String.length_append, show "  \x7d".length = 3 from rfl] at hlength
  omega

theorem finds_constant (value : String) :
    Finds ["  static readonly SCRIPT_HASH: Hash160 = " ++ value ++ ";", ""] (some value) none := by
  have hwords : "  static readonly SCRIPT_HASH: Hash160 = " =
      "  " ++ "static" ++ " " ++ "readonly SCRIPT_HASH: Hash160 = " := by decide +kernel
  have htext : ("  static readonly SCRIPT_HASH: Hash160 = " ++ value ++ ";").toList =
      "  static readonly SCRIPT_HASH: Hash160 = ".toList ++ (value.toList ++ ";".toList) := by
    rw [String.toList_append, String.toList_append, List.append_assoc]
  -- The value is arbitrary, so each reader has to decide by what stands in front of it.
  have hline : Finds ["  static readonly SCRIPT_HASH: Hash160 = " ++ value ++ ";"] (some value)
      none := by
    refine .single ?_ ?_ ?_ ?_ ?_
    · simp only [readHashConstant?, htext, after?_append, before?_append, Option.bind_eq_bind,
        Option.bind_some, String.ofList_toList]
      rfl
    · rw [readHashDefault?, htext, after?_eq_none (by decide +kernel) (by decide +kernel)]
      rfl
    · have hword : ("static".toList).all isPart = true := by decide +kernel
      have hstop : ("  static readonly SCRIPT_HASH: Hash160 = " ++ value ++ ";").toList =
          ' ' :: ' ' :: ("static".toList ++ ' ' :: ("readonly SCRIPT_HASH: Hash160 = ".toList ++
            (value.toList ++ ";".toList))) := by
        rw [htext]
        simp only [hwords, String.toList_append, List.append_assoc]
        rfl
      rw [hstop]
      exact readHead?_eq_none hword rfl (by decide)
    · rw [htext, after?_eq_none (by decide +kernel) (by decide +kernel)]
    · rw [String.append_assoc]
      exact ne_closing (by decide +kernel)
  have hempty : Finds [""] none none := .literal (l := []) (by decide +kernel)
  exact hline.append hempty

/-- The lines around the first line of a constructor, which alone says something. -/
theorem finds_constructor {parameter : String} {default : Option String}
    (hparameter : ')' ∉ parameter.toList)
    (hdefault : readHashDefault? ("  constructor(invoker: ContractInvoker, " ++ parameter ++
      ") \x7b").toList = some default) :
    Finds ["  private readonly invoker: ContractInvoker;", "  readonly scriptHash: Hash160;", "",
      "  constructor(invoker: ContractInvoker, " ++ parameter ++ ") \x7b",
      "    this.invoker = invoker;", "    this.scriptHash = scriptHash;"] none (some default) := by
  have htext : ("  constructor(invoker: ContractInvoker, " ++ parameter ++ ") \x7b").toList =
      "  constructor(invoker: ContractInvoker, ".toList ++
        (parameter.toList ++ ") \x7b".toList) := by
    rw [String.toList_append, String.toList_append, List.append_assoc]
  have hinvoker : Finds ["  private readonly invoker: ContractInvoker;"] none none :=
    .literal (by decide +kernel)
  have hhash : Finds ["  readonly scriptHash: Hash160;"] none none := .literal (by decide +kernel)
  have hempty : Finds [""] none none := .literal (l := []) (by decide +kernel)
  have hhead : Finds ["  constructor(invoker: ContractInvoker, " ++ parameter ++ ") \x7b"] none
      (some default) := by
    refine .single ?_ hdefault (readHead?_constructor hparameter) ?_ ?_
    · rw [readHashConstant?, htext, after?_eq_none (by decide +kernel) (by decide +kernel)]
      rfl
    · rw [htext, after?_eq_none (by decide +kernel) (by decide +kernel)]
    · rw [String.append_assoc]
      exact ne_closing (by decide +kernel)
  have hset : Finds ["    this.invoker = invoker;"] none none := .literal (by decide +kernel)
  have hset' : Finds ["    this.scriptHash = scriptHash;"] none none := .literal (by decide +kernel)
  exact hinvoker.append (hhash.append (hempty.append (hhead.append (hset.append hset'))))

/-- **The fields and the constructor of a class are read as the plan has them.** -/
theorem finds_classFields {p : Plan} {className : String} (hclass : isLegal className = true) :
    ∃ fields, classFields p className = fields ++ ["  \x7d"] ∧
      Finds fields (hashConstant? p className) (some (hashDefault? p className)) := by
  rw [hashDefault?]
  cases h : hashConstant? p className with
  | none =>
    have hparameter : ')' ∉ "scriptHash: Hash160".toList := by decide +kernel
    refine ⟨_, ?_, finds_constructor hparameter readHashDefault?_none⟩
    -- `delta`, since the equation of a definition with this many literals is costly to derive
    delta classFields
    rw [h]
    rfl
  | some value =>
    have hover : Over (· != ')') ("scriptHash: Hash160 = " ++ className ++ ".SCRIPT_HASH") :=
      .append (.append (.literal rfl) ((over_of_isLegal hclass).bne (by decide))) (.literal rfl)
    have hparameter := hover.not_mem (bne_self_eq_false ')')
    have hne : (className ++ ".SCRIPT_HASH").toList ≠ [] := by
      intro hnil
      rw [String.toList_append] at hnil
      exact absurd (List.append_eq_nil_iff.1 hnil).2 (by decide)
    have hdefault := readHashDefault?_some (className ++ ".SCRIPT_HASH") hne
    rw [← String.append_assoc] at hdefault
    refine ⟨_, ?_, (finds_constant value).append (finds_constructor hparameter hdefault)⟩
    delta classFields
    rw [h]
    rfl

/-! ### Classes -/

/-- **A written class is read as what it was written from**, for any kind of members. -/
theorem readClass?_text {α : Type} {readBody? : List (List Char) → Option α} {text : String}
    {p : Plan} {className : String} {middle : Lines} {member : PlannedMethod → Lines}
    {value : PlannedMethod → α} (hp : p.Spelled) (hclass : isLegal className = true)
    (hlines : classLines text = (classHead className :: (classFields p className ++ middle ++
      p.methods.flatMap (fun m ↦ "" :: member m) ++ ["\x7d"])).map String.toList ++ [[]])
    (hmiddle : ∀ line ∈ middle, readHead? line.toList = none)
    (hmember : ∀ m ∈ p.methods, ∃ body, member m = memberDoc m ++ memberHead m :: body ∧
      ReadsBody readBody? body (value m)) :
    readClass? readBody? text = some
      { name := className
        hashConstant := hashConstant? p className
        hashDefault := hashDefault? p className
        members := p.methods.map fun m ↦ (memberHeadText m, value m) } := by
  obtain ⟨fields, hfields, hfinds⟩ := finds_classFields (p := p) hclass
  have hinside : ∀ line ∈ fields.map String.toList, decide (line ≠ "  \x7d".toList) = true := by
    intro line hline
    obtain ⟨l, hl, rfl⟩ := List.mem_map.1 hline
    rw [decide_eq_true_eq, ne_eq, String.toList_inj]
    exact hfinds.inside l hl
  have hclosing : decide ("  \x7d".toList ≠ "  \x7d".toList) = false :=
    decide_eq_false fun h ↦ h rfl
  have hquiet : ∀ line ∈ (fields ++ ["  \x7d"] ++ middle).map String.toList,
      readHead? line = none := by
    intro line hline
    obtain ⟨l, hl, rfl⟩ := List.mem_map.1 hline
    rcases List.mem_append.1 hl with hl | hl
    · rcases List.mem_append.1 hl with hl | hl
      · exact hfinds.head l hl
      · obtain rfl := List.mem_singleton.1 hl
        rfl
    · exact hmiddle l hl
  have hend : readMembers? readBody? ((["\x7d"] : Lines).map String.toList ++ [[]]) = some [] := rfl
  have hmembers : readMembers? readBody? ((fields ++ ["  \x7d"] ++ middle ++
      p.methods.flatMap (fun m ↦ "" :: member m) ++ ["\x7d"]).map String.toList ++ [[]]) =
      some (p.methods.map fun m ↦ (memberHeadText m, value m)) := by
    rw [List.map_append, List.map_append, List.append_assoc, List.append_assoc,
      readMembers?_append hquiet, readMembers?_flatMap hp.methods hmember, hend, Option.map_some,
      List.append_nil]
  -- The closing brace of the constructor is the first, so what lies behind it is not searched.
  have htake : ((fields ++ ["  \x7d"] ++ middle ++ p.methods.flatMap (fun m ↦ "" :: member m) ++
      ["\x7d"]).map String.toList ++ [[]]).takeWhile (· ≠ "  \x7d".toList) =
      fields.map String.toList := by
    rw [List.map_append, List.map_append, List.map_append, List.map_append, List.append_assoc,
      List.append_assoc, List.append_assoc, List.append_assoc,
      List.takeWhile_append_of_pos hinside, List.map_singleton, List.singleton_append,
      List.takeWhile_cons, hclosing]
    exact List.append_nil _
  rw [readClass?, hlines, hfields, List.map_cons, List.cons_append]
  simp only [toList_classHead, after?_append, before?_append, Option.bind_eq_bind,
    Option.bind_some, htake, hfinds.constant, hfinds.default, hmembers, String.ofList_toList]
  rfl

theorem readClass?_client {p : Plan} (hp : p.Spelled) :
    readClass? readInvocation? (client p).text = some
      { name := p.className
        hashConstant := hashConstant? p p.className
        hashDefault := hashDefault? p p.className
        members := p.methods.map fun m ↦ (memberHeadText m, memberInvocation m) } := by
  have hlines := classLines_client hp
  rw [← List.append_nil (classFields p p.className)] at hlines
  exact readClass?_text hp hp.className.legal hlines (List.forall_mem_nil _) fun m hm ↦
    ⟨_, clientMember_eq m, readsBody_invocationLines (hp.methods m hm)⟩

/-- The generic method stands between the constructor and the members and is none of them. -/
theorem readClass?_implementation {p : Plan} (hp : p.Spelled) :
    readClass? readCall? (implementation p).text = some
      { name := implementationClass p
        hashConstant := hashConstant? p (implementationClass p)
        hashDefault := hashDefault? p (implementationClass p)
        members := p.methods.map fun m ↦ (memberHeadText m, memberCall m) } := by
  have hgeneric : ∀ line ∈ [""] ++ genericMember, readHead? line.toList = none := by
    have hpair : ∀ {a b : List Char}, readHead? (a ++ b) = none →
        readHead? (String.ofList a ++ String.ofList b).toList = none := by
      intro a b h
      rw [String.toList_append, String.toList_ofList, String.toList_ofList, h]
    refine List.forall_mem_cons.2 ⟨rfl, List.forall_mem_cons.2 ⟨hpair (by decide +kernel), ?_⟩⟩
    refine List.forall_mem_cons.2 ⟨readHead?_of_indented (.append .literal), ?_⟩
    exact List.forall_mem_cons.2 ⟨rfl, List.forall_mem_nil _⟩
  exact readClass?_text hp (isLegal_implementationClass hp) (classLines_implementation hp) hgeneric
    fun m hm ↦ ⟨_, implementationMember_eq m, readsBody_callLines (hp.methods m hm)⟩

theorem readGeneric?_implementation {p : Plan} (hp : p.Spelled) :
    readGeneric? (classLines (implementation p).text) = some genericText := by
  obtain ⟨fields, hfields, hfinds⟩ := finds_classFields (p := p) (isLegal_implementationClass hp)
  have hbefore : ∀ line ∈ (classHead (implementationClass p) :: (fields ++ ["  \x7d"] ++ [""])).map
      String.toList, after? "  protected invokeMethod<".toList line = none := by
    intro line hline
    obtain ⟨l, hl, rfl⟩ := List.mem_map.1 hline
    rcases List.mem_cons.1 hl with rfl | hl
    · rw [toList_classHead]
      exact after?_eq_none (by decide +kernel) (by decide +kernel) _
    rcases List.mem_append.1 hl with hl | hl
    · rcases List.mem_append.1 hl with hl | hl
      · exact hfinds.generic l hl
      · obtain rfl := List.mem_singleton.1 hl
        exact read_literal (by decide +kernel)
    · obtain rfl := List.mem_singleton.1 hl
      rfl
  have hlines : classLines (implementation p).text =
      (classHead (implementationClass p) :: (fields ++ ["  \x7d"] ++ [""])).map String.toList ++
        (genericMember.map String.toList ++
          ((p.methods.flatMap (fun m ↦ "" :: implementationMember m) ++ ["\x7d"]).map
            String.toList ++ [[]])) := by
    rw [classLines_implementation hp, hfields]
    simp only [List.map_append, List.map_cons, List.append_assoc, List.cons_append]
  obtain ⟨head, body, rest, hrest⟩ : ∃ head body rest, genericMember.map String.toList ++
      ((p.methods.flatMap (fun m ↦ "" :: implementationMember m) ++ ["\x7d"]).map
        String.toList ++ [[]]) = head :: body :: rest := ⟨_, _, _, rfl⟩
  rw [hlines, hrest, readGeneric?_append hbefore, ← hrest, readGeneric?_genericMember]

/-! ### Agreement -/

/-- What an expression for a script hash stands for, when `constants` are the classes that declare
one, each with the expression for it. -/
inductive Denotes (constants : List (String × String)) : (expression value : String) → Prop
  | literal (s : String) : Denotes constants (Json.stringLiteral s) s
  | constant {name expression value : String} (hmem : (name, expression) ∈ constants)
    (h : Denotes constants expression value) : Denotes constants (name ++ ".SCRIPT_HASH") value

/-- A client class and an implementation class with the same members: at every index the same
identifier, parameters and result, and a call with the same operation, arguments and decoder. What
the call hands to the generic method `g` is what the client class hands to its invoker. -/
structure SameInvocations (k : ClassText Invocation) (i : ClassText Call) (g : Generic) : Prop where
  members : (k.members.map fun m ↦ (m.1, m.2.call?)) = i.members.map fun m ↦ (m.1, some m.2)
  inlined : (i.members.map fun m ↦ (m.1, g.inline m.2)) = k.members

/-- The classes that declare a script hash, each with the expression for it. -/
def declaredHashes {α β : Type} (k : ClassText α) (i : ClassText β) : List (String × String) :=
  (k.hashConstant.map fun value ↦ (k.name, value)).toList ++
    (i.hashConstant.map fun value ↦ (i.name, value)).toList

/-- A client class that declares a hash literally and an implementation class that declares it by
referring to the client class. Both take it for a missing script hash. -/
structure EmbedsHash {α β : Type} (k : ClassText α) (i : ClassText β) (hash : ScriptHash) :
    Prop where
  literal : k.hashConstant = some (Json.stringLiteral hash.text)
  reference : i.hashConstant = some (k.name ++ ".SCRIPT_HASH")
  client : k.hashDefault = some (k.name ++ ".SCRIPT_HASH")
  implementation : i.hashDefault = some (i.name ++ ".SCRIPT_HASH")
  denotes : ∀ expression ∈ k.hashDefault.toList ++ i.hashDefault.toList,
    Denotes (declaredHashes k i) expression hash.text

/-- What the defaults stand for follows from how they are declared. -/
theorem EmbedsHash.of_constants {α β : Type} {k : ClassText α} {i : ClassText β} {hash : ScriptHash}
    (hliteral : k.hashConstant = some (Json.stringLiteral hash.text))
    (hreference : i.hashConstant = some (k.name ++ ".SCRIPT_HASH"))
    (hclient : k.hashDefault = some (k.name ++ ".SCRIPT_HASH"))
    (himplementation : i.hashDefault = some (i.name ++ ".SCRIPT_HASH")) : EmbedsHash k i hash := by
  refine ⟨hliteral, hreference, hclient, himplementation, fun expression hmem ↦ ?_⟩
  have hconstants : declaredHashes k i = [(k.name, Json.stringLiteral hash.text),
      (i.name, k.name ++ ".SCRIPT_HASH")] := by
    rw [declaredHashes, hliteral, hreference]
    rfl
  have hk : Denotes (declaredHashes k i) (k.name ++ ".SCRIPT_HASH") hash.text := by
    rw [hconstants]
    exact .constant List.mem_cons_self (.literal _)
  have hi : Denotes (declaredHashes k i) (i.name ++ ".SCRIPT_HASH") hash.text := by
    refine .constant ?_ hk
    rw [hconstants]
    exact List.mem_cons_of_mem _ List.mem_cons_self
  rw [hclient, himplementation] at hmem
  rcases List.mem_pair.1 hmem with rfl | rfl
  · exact hk
  · exact hi

section Constants

variable {p : Plan} {hash : ScriptHash}

theorem hashConstant?_eq_none (hembed : p.embedHash = false) (className : String) :
    hashConstant? p className = none := by
  rw [hashConstant?, hembed]
  rfl

theorem hashConstant?_className (hembed : p.embedHash = true) (hhash : p.scriptHash = some hash) :
    hashConstant? p p.className = some (Json.stringLiteral hash.text) := by
  rw [hashConstant?, if_pos hembed, hhash, Option.map_some, if_pos rfl]

theorem hashConstant?_implementationClass (hembed : p.embedHash = true)
    (hhash : p.scriptHash = some hash) :
    hashConstant? p (implementationClass p) = some (p.className ++ ".SCRIPT_HASH") := by
  have hne : implementationClass p ≠ p.className := by
    intro heq
    have hlength := congrArg String.length heq
    rw [implementationClass, implementationName, String.length_append,
      show "Impl".length = 4 from rfl] at hlength
    omega
  rw [hashConstant?, if_pos hembed, hhash, Option.map_some, if_neg hne]

end Constants

/-- **Both modules of a contract describe the same invocations.** Read as classes they have one
member for each method, under the names of the methods; the members agree, and so do the script
hashes that the constructors take when none is given. -/
theorem invocations_agree {options : Options} {c : Contract} {written : List SourceModule}
    (himplementation : options.withImplementation = true)
    (h : generate options c = .ok written) :
    ∃ (m n : SourceModule) (k : ClassText Invocation) (i : ClassText Call) (g : Generic),
      written = [m, n] ∧
      readClass? readInvocation? m.text = some k ∧
      readClass? readCall? n.text = some i ∧
      readGeneric? (classLines n.text) = some g ∧
      (k.members.map fun member ↦ member.1.ident) = methodNames c.methods ∧
      SameInvocations k i g ∧
      (options.embedHash = true → ∃ hash, c.scriptHash = some hash ∧ EmbedsHash k i hash) ∧
      (options.embedHash = false → k.hashDefault = none ∧ i.hashDefault = none) := by
  obtain ⟨p, hplan, rfl, hhash⟩ := exists_plan_of_generate h
  have hp := spelled_of_plan hplan
  obtain ⟨className, hclass, rfl⟩ := eq_sketch_of_plan hplan
  -- Both classes are known by now, so the rest compares what they were read as.
  refine ⟨client (sketch options c className), implementation (sketch options c className), _, _, _,
    ?_, readClass?_client hp, readClass?_implementation hp, readGeneric?_implementation hp, ?_, ?_,
    ?_, ?_⟩
  · rw [modules, himplementation, if_pos rfl]
  · rw [List.map_map, ← map_ident_sketch options c className]
    rfl
  · refine ⟨?_, ?_⟩
    · rw [List.map_map, List.map_map]
      refine List.map_congr_left fun m _ ↦ ?_
      show (memberHeadText m, (memberInvocation m).call?) = (memberHeadText m, some (memberCall m))
      rw [call?_memberInvocation]
    · rw [List.map_map]
      refine List.map_congr_left fun m _ ↦ ?_
      show (memberHeadText m, genericText.inline (memberCall m)) = (memberHeadText m, _)
      rw [inline_memberCall]
  · intro hembed
    obtain ⟨hash, hsome⟩ := Option.isSome_iff_exists.1 (hhash hembed)
    have hliteral := hashConstant?_className (p := sketch options c className) hembed hsome
    have hreference :=
      hashConstant?_implementationClass (p := sketch options c className) hembed hsome
    refine ⟨hash, hsome, .of_constants hliteral hreference ?_ ?_⟩
    · show hashDefault? _ _ = _
      rw [hashDefault?, hliteral, Option.map_some]
    · show hashDefault? _ _ = _
      rw [hashDefault?, hreference, Option.map_some]
  · intro hembed
    refine ⟨?_, ?_⟩
    · show hashDefault? _ _ = _
      rw [hashDefault?, hashConstant?_eq_none hembed, Option.map_none]
    · show hashDefault? _ _ = _
      rw [hashDefault?, hashConstant?_eq_none hembed, Option.map_none]

/-- A contract with two methods of one name, which looks like the end of an operation. -/
def quotingContract : Contract where
  name := "Quoting"
  scriptHash := some ⟨List.replicate ScriptHash.size 0xab, ScriptHash.length_replicate_ab⟩
  supportedStandards := []
  methods :=
    [⟨"x\", args: [", [], .scalar .void, true, none⟩,
      ⟨"x\", args: [", [⟨"pairs", .map (.scalar .string) (.array (.scalar .integer)), 0⟩],
        .scalar .any, false, none⟩]
  events := []

/-- Neither the name of the methods nor their overloading misleads the readers. -/
theorem invocations_agree_quotingContract :
    ∃ (k : ClassText Invocation) (i : ClassText Call) (g : Generic) (hash : ScriptHash),
      (k.members.map fun member ↦ member.1.ident) = methodNames quotingContract.methods ∧
      SameInvocations k i g ∧ EmbedsHash k i hash := by
  let options : Options := { embedHash := true, withImplementation := true }
  let p := sketch options quotingContract "Quoting"
  have hplan : plan options quotingContract = .ok p := by decide +kernel
  have hgenerate : generate options quotingContract = .ok (modules options p) := by
    show (plan options quotingContract >>= fun q ↦ .ok (modules options q)) = _
    rw [hplan]
    rfl
  obtain ⟨m, n, k, i, g, -, -, -, -, hidents, hsame, hembeds, -⟩ := invocations_agree rfl hgenerate
  obtain ⟨hash, -, hhash⟩ := hembeds rfl
  exact ⟨k, i, g, hash, hidents, hsame, hhash⟩

end ContractBindings.Module
