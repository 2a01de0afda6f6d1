import ContractBindings.Module.Implementation
import ContractBindings.Proofs.Binding.Sketch

/-!
# What plans are spelled with

The two kinds of facts about a plan that its modules depend on. Names are legal identifiers, and the
counterparts of types are those of the types: a plan of which this holds is *spelled*
(`PlannedMethod.Spelled` and its companions), and every plan that is made is
(`spelled_of_plan`). From it follows which characters the written pieces of a module consist of:
type expressions, declarations, arguments and decoders each have a small alphabet of their own,
which holds neither a line feed nor a slash, and only decoders hold quotes.
-/

namespace ContractBindings.Binding

open Identifier
open Text (Over)

/-! ### Spelled plans -/

/-- A parameter with a legal name and the counterpart of its type. -/
structure PlannedParameter.Spelled (q : PlannedParameter) : Prop where
  ident : isLegal q.ident = true
  mapped : q.mapped = sketchType q.type

/-- A member with a usable name, whose parameters are spelled. -/
structure PlannedMethod.Spelled (m : PlannedMethod) : Prop where
  ident : Usable .method m.ident
  parameters : ∀ q ∈ m.parameters, q.Spelled
  result : ∃ type, m.result = sketchType type

/-- An event with legal names, whose fields are spelled. -/
structure PlannedEvent.Spelled (e : PlannedEvent) : Prop where
  interfaceName : isLegal e.interfaceName = true
  key : isLegal e.key = true
  fields : ∀ q ∈ e.fields, q.Spelled

/-- A plan with a usable class name, whose members and events are spelled. -/
structure Plan.Spelled (p : Plan) : Prop where
  className : Usable .contract p.className
  methods : ∀ m ∈ p.methods, m.Spelled
  events : ∀ e ∈ p.events, e.Spelled

theorem spelled_sketchParameters (parameters : List Parameter) :
    ∀ q ∈ sketchParameters parameters, q.Spelled := by
  intro q hq
  obtain ⟨⟨p, ident⟩, hmem, rfl⟩ := List.mem_map.1 hq
  exact ⟨(usable_parameterNames _ 0 ident (List.of_mem_zip hmem).2).legal, rfl⟩

theorem spelled_sketchMethod (m : Method) {ident : String} (h : Usable .method ident) :
    (sketchMethod m ident).Spelled :=
  ⟨h, spelled_sketchParameters m.parameters, m.returnType, rfl⟩

/-- Keys and names of interfaces are made from the same bases, with numbers or underscores. -/
theorem isLegal_eventBases (events : List Event) :
    ∀ base ∈ eventBases events, isLegal base = true := by
  intro base hbase
  obtain ⟨e, -, rfl⟩ := List.mem_map.1 hbase
  exact (usable_derive .contract e.name).legal

theorem isLegal_interfaceNames (className : String) (events : List Event) :
    ∀ name ∈ interfaceNames className events, isLegal name = true := by
  refine forall_mem_distinct (p := fun name ↦ isLegal name = true)
    (fun _ k h ↦ isLegal_append h (over_underscores k)) fun name hname ↦ ?_
  obtain ⟨base, hbase, rfl⟩ := List.mem_map.1 hname
  exact isLegal_append (isLegal_eventBases events base hbase) (.literal rfl)

theorem isLegal_eventKeys (events : List Event) :
    ∀ key ∈ eventKeys events, isLegal key = true :=
  forall_mem_distinct (p := fun name ↦ isLegal name = true)
    (fun _ k h ↦ isLegal_numbered h k) (isLegal_eventBases events)

/-- **Every plan that is made is spelled.** -/
theorem spelled_of_plan {options : Options} {c : Contract} {p : Plan}
    (h : plan options c = .ok p) : p.Spelled := by
  obtain ⟨className, hclass, rfl⟩ := eq_sketch_of_plan h
  refine ⟨hclass, fun m hm ↦ ?_, fun e he ↦ ?_⟩
  · obtain ⟨⟨m, ident⟩, hmem, rfl⟩ := List.mem_map.1 hm
    exact spelled_sketchMethod m (usable_methodNames _ ident (List.of_mem_zip hmem).2)
  · obtain ⟨⟨⟨e, interfaceName⟩, key⟩, hmem, rfl⟩ := List.mem_map.1 he
    obtain ⟨hpair, hkey⟩ := List.of_mem_zip hmem
    exact ⟨isLegal_interfaceNames _ _ _ (List.of_mem_zip hpair).2, isLegal_eventKeys _ _ hkey,
      spelled_sketchParameters e.parameters⟩

/-! ### Alphabets of written pieces -/

/-- The characters of type expressions. -/
def isTypeChar (c : Char) : Bool :=
  isPart c || ['<', '>', '[', ']', ',', ' '].contains c

/-- The characters of declarations. -/
def isDeclarationChar (c : Char) : Bool :=
  isTypeChar c || c == ':'

/-- The characters of encoded arguments. -/
def isArgumentChar (c : Char) : Bool :=
  isPart c || ['.', '(', ')', ',', ' ', '=', '>'].contains c

/-- The characters of decoders. -/
def isDecoderChar (c : Char) : Bool :=
  isPart c || ['"', '[', ']', '\x7b', '\x7d', ':', ',', ' '].contains c

/-- A hash is written with letters and digits. -/
theorem over_hash (hash : ScriptHash) : Over isPart hash.text := by
  have hdigit : ∀ n < 16, isPart (Hex.digit n) = true := by decide
  intro c hc
  rw [ScriptHash.text, String.toList_ofList, ScriptHash.toChars] at hc
  rcases List.mem_cons.1 hc with rfl | hc
  · decide
  rcases List.mem_cons.1 hc with rfl | hc
  · decide
  obtain ⟨b, -, hb⟩ := List.mem_flatMap.1 hc
  have hbyte := b.toNat_lt
  rcases List.mem_cons.1 hb with rfl | hb
  · exact hdigit _ (by omega)
  · obtain rfl := List.mem_singleton.1 hb
    exact hdigit _ (by omega)

theorem over_typeExpr (type : AbiType) : Over isTypeChar (typeExpr type).text := by
  induction type with
  | scalar s => cases s <;> exact .literal rfl
  | array element ih => exact .append ih (.literal rfl)
  | map key value ihk ihv =>
    exact .append (.append (.append (.append (.literal rfl) ihk) (.literal rfl)) ihv) (.literal rfl)

theorem over_decoder (type : AbiType) : Over isDecoderChar (decoder type).text := by
  induction type with
  | scalar s =>
    have hname : Over isDecoderChar s.name := by cases s <;> exact .literal rfl
    cases s with
    | void => exact .literal rfl
    | _ => exact .append (.append (.literal rfl) hname) (.literal rfl)
  | array element ih => exact .append (.append (.literal rfl) ih) (.literal rfl)
  | map key value ihk ihv =>
    exact .append (.append (.append (.append (.literal rfl) ihk) (.literal rfl)) ihv) (.literal rfl)

theorem over_arrowVariable (depth : Nat) : Over isPart (arrowVariable depth) :=
  .append (.literal rfl) (over_toString_nat depth)

/-- Encoders and the expressions under their arrows are written with one alphabet. -/
theorem over_encoder (type : AbiType) : ∀ depth : Nat,
    Over isArgumentChar (encoder depth type).text ∧
    ∀ value, Over isPart value → Over isArgumentChar (encodeExpr value depth type).text := by
  have hpart : ∀ {s}, Over isPart s → Over isArgumentChar s :=
    fun h ↦ h.mono fun c hc ↦ by simp [isArgumentChar, hc]
  have hscalar : ∀ s, Over isArgumentChar (scalarEncoder s) := by
    intro s
    cases s <;> exact .literal rfl
  refine encoder_induction (F := fun _ f ↦ Over isArgumentChar f.text)
    (E := fun _ value e ↦ Over isPart value → Over isArgumentChar e.text)
    ?function ?arrow ?scalar ?array ?map type
  case function =>
    intro s
    exact .append (.literal rfl) (hscalar s)
  case arrow =>
    intro type depth body hbody
    exact .append (.append (.append (.literal rfl) (hpart (over_arrowVariable depth)))
      (.literal rfl)) (hbody (over_arrowVariable depth))
  case scalar =>
    intro s value hvalue
    exact .append (.append (.append (.append (.literal rfl) (hscalar s)) (.literal rfl))
      (hpart hvalue)) (.literal rfl)
  case array =>
    intro element value f hf hvalue
    exact .append (.append (.append (.append (.literal rfl) (hpart hvalue)) (.literal rfl)) hf)
      (.literal rfl)
  case map =>
    intro key entry value f g hf hg hvalue
    exact .append (.append (.append (.append (.append (.append (.literal rfl) (hpart hvalue))
      (.literal rfl)) hf) (.literal rfl)) hg) (.literal rfl)

/-! ### Alphabets of members -/

theorem isTypeChar_of_isPart {c : Char} (h : isPart c = true) : isTypeChar c = true := by
  rw [isTypeChar, h, Bool.true_or]

theorem isDeclarationChar_of_isTypeChar {c : Char} (h : isTypeChar c = true) :
    isDeclarationChar c = true := by
  rw [isDeclarationChar, h, Bool.true_or]

theorem PlannedParameter.Spelled.over_declaration {q : PlannedParameter} (h : q.Spelled) :
    Over isDeclarationChar q.declaration := by
  have hident : Over isDeclarationChar q.ident := (over_of_isLegal h.ident).mono fun _ hc ↦
    isDeclarationChar_of_isTypeChar (isTypeChar_of_isPart hc)
  have htype : Over isDeclarationChar q.mapped.typeExpr.text := by
    rw [h.mapped]
    exact (over_typeExpr q.type).mono fun _ hc ↦ isDeclarationChar_of_isTypeChar hc
  exact .append (.append hident (.literal rfl)) htype

theorem PlannedParameter.Spelled.over_argument {q : PlannedParameter} (h : q.Spelled) :
    Over isArgumentChar q.argument :=
  (over_encoder q.type 1).2 q.ident (over_of_isLegal h.ident)

namespace PlannedMethod.Spelled

variable {m : PlannedMethod}

theorem over_declarations (h : m.Spelled) : Over isDeclarationChar m.declarations := by
  refine .intercalate (.literal rfl) fun t ht ↦ ?_
  obtain ⟨q, hq, rfl⟩ := List.mem_map.1 ht
  exact (h.parameters q hq).over_declaration

/-- Between its brackets a list of arguments holds none. -/
theorem over_arguments (h : m.Spelled) :
    Over isArgumentChar (", ".intercalate (m.parameters.map (·.argument))) := by
  refine .intercalate (.literal rfl) fun t ht ↦ ?_
  obtain ⟨q, hq, rfl⟩ := List.mem_map.1 ht
  exact (h.parameters q hq).over_argument

theorem over_result (h : m.Spelled) : Over isTypeChar m.result.typeExpr.text := by
  obtain ⟨type, htype⟩ := h.result
  rw [htype]
  exact over_typeExpr type

theorem over_decoder (h : m.Spelled) : Over isDecoderChar m.result.decoder.text := by
  obtain ⟨type, htype⟩ := h.result
  rw [htype]
  exact Binding.over_decoder type

end PlannedMethod.Spelled

/-! ### Alphabets of imports -/

theorem Plan.Spelled.over_importedValues {p : Plan} (h : p.Spelled) :
    Over isDeclarationChar (", ".intercalate (Module.importedValues p)) := by
  have hclass : Over isDeclarationChar p.className :=
    (over_of_isLegal h.className.legal).mono fun _ hc ↦
      isDeclarationChar_of_isTypeChar (isTypeChar_of_isPart hc)
  refine .intercalate (.literal rfl) fun name hname ↦ ?_
  rcases List.mem_append.1 hname with hname | hname
  · split at hname
    · obtain rfl := List.mem_singleton.1 hname
      exact .literal rfl
    · exact absurd hname List.not_mem_nil
  · split at hname
    · obtain rfl := List.mem_singleton.1 hname
      exact hclass
    · exact absurd hname List.not_mem_nil

theorem over_importedTypes (p : Plan) :
    Over isDeclarationChar (", ".intercalate (Module.importedTypes p)) := by
  refine .intercalate (.literal rfl) fun name hname ↦ ?_
  rcases List.mem_append.1 hname with hname | hname
  · rcases List.mem_append.1 hname with hname | hname
    · rcases List.mem_pair.1 hname with rfl | rfl
      · exact .literal rfl
      · exact .literal rfl
    · obtain ⟨s, -, rfl⟩ := List.mem_map.1 hname
      cases s <;> exact .literal rfl
  · obtain rfl := List.mem_singleton.1 hname
    exact .literal rfl

end ContractBindings.Binding
