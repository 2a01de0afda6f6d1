import ContractBindings.Proofs.Encoding.Definitions

/-!
# Types of argument expressions

Which expressions are well typed, given the signatures that the prelude writes down, and which
identifiers are free in them. The name `Encode` is looked up like any other, so a variable of that
name hides the prelude; type parameters are chosen anew at each call.

The expression that encodes a variable is well typed where the variable has the type that values of
its type are declared with (`typed_of_type`), and besides `Encode` the variable is all that it
mentions (`mem_free`). The variables of arrows neither hide `Encode` nor escape, and that
they hide each other does no harm: the expression under an arrow mentions its own variable only.
-/

namespace ContractBindings.Encoding

open Binding

/-! ### Scopes -/

/-- What an identifier stands for. -/
inductive Meaning (α : Type) where
  /-- The table of the prelude. -/
  | prelude
  | value (a : α)

/-- Identifiers with what they stand for, the innermost first. -/
abbrev Scope (α : Type) :=
  List (String × Meaning α)

namespace Scope

variable {α : Type}

/-- Whether the table of the prelude can be reached. -/
def HasPrelude (scope : Scope α) : Prop :=
  scope.lookup "Encode" = some .prelude

/-- Whether an identifier stands for a value. -/
def Holds (scope : Scope α) (name : String) (a : α) : Prop :=
  scope.lookup name = some (.value a)

/-- The scope of a module with one variable. -/
def ofVariable (name : String) (a : α) : Scope α :=
  [(name, .value a), ("Encode", .prelude)]

variable {scope : Scope α} {name : String} {a : α}

theorem holds_cons (scope : Scope α) (name : String) (a : α) :
    Holds ((name, .value a) :: scope) name a :=
  List.lookup_cons_self

theorem HasPrelude.cons (h : scope.HasPrelude) (hname : name ≠ "Encode") (a : α) :
    HasPrelude ((name, .value a) :: scope) := by
  rw [HasPrelude, List.lookup_cons, beq_false_of_ne (Ne.symm hname)]
  exact h

theorem hasPrelude_ofVariable (hname : name ≠ "Encode") (a : α) :
    (ofVariable name a).HasPrelude :=
  HasPrelude.cons List.lookup_cons_self hname a

end Scope

/-- No arrow hides the prelude. -/
theorem arrowVariable_ne_encode (depth : Nat) : arrowVariable depth ≠ "Encode" := by
  intro h
  have hhead := congrArg (fun s ↦ s.toList.head?) h
  simp [arrowVariable] at hhead

/-! ### Free identifiers -/

mutual

/-- The identifiers that an encoder mentions and does not bind. -/
def freeInEncoder : Encoder → List String
  | .function _ => ["Encode"]
  | .arrow binder body => (free body).filter (· != binder)

/-- The identifiers that an expression mentions and does not bind. -/
def free : EncodeExpr → List String
  | .scalar _ value => ["Encode", value]
  | .array value element => "Encode" :: value :: freeInEncoder element
  | .map value key entry => "Encode" :: value :: (freeInEncoder key ++ freeInEncoder entry)

end

/-- Under an arrow its own variable is free, and then it is the one that is bound. -/
theorem mem_freeInEncoder_arrow {body : EncodeExpr} {depth : Nat} {name : String}
    (hbody : name ∈ free body ↔ name = "Encode" ∨ name = arrowVariable depth) :
    name ∈ freeInEncoder (.arrow (arrowVariable depth) body) ↔ name = "Encode" := by
  rw [freeInEncoder, List.mem_filter, hbody, bne_iff_ne]
  constructor
  · rintro ⟨h | h, hbound⟩
    · exact h
    · exact absurd h hbound
  · rintro rfl
    exact ⟨.inl rfl, (arrowVariable_ne_encode depth).symm⟩

/-- **Only `Encode` and the variable itself are free** in the expression that encodes a variable. -/
theorem mem_free (type : AbiType) (depth : Nat) (name : String) :
    (name ∈ freeInEncoder (encoder depth type) ↔ name = "Encode") ∧
      ∀ value, name ∈ free (encodeExpr value depth type) ↔ name = "Encode" ∨ name = value := by
  refine encoder_induction (F := fun _ f ↦ name ∈ freeInEncoder f ↔ name = "Encode")
    (E := fun _ value e ↦ name ∈ free e ↔ name = "Encode" ∨ name = value)
    ?function ?arrow ?scalar ?array ?map type depth
  case function =>
    intro s
    rw [freeInEncoder, List.mem_singleton]
  case arrow =>
    intro type depth body hbody
    exact mem_freeInEncoder_arrow hbody
  case scalar =>
    intro s value
    rw [free, List.mem_pair]
  case array =>
    intro element value f hf
    rw [free, List.mem_cons, List.mem_cons, hf]
    tauto
  case map =>
    intro key entry value f g hf hg
    rw [free, List.mem_cons, List.mem_cons, List.mem_append, hf, hg]
    tauto

/-! ### Signatures -/

/-- A type expression with types in place of type parameters. -/
def instantiate (types : List (String × TypeExpr)) : TypeExpr → TypeExpr
  | .named name => (types.lookup name).getD (.named name)
  | .list element => .list (instantiate types element)
  | .map key value => .map (instantiate types key) (instantiate types value)

/-- The type of a parameter with types in place of type parameters. -/
def ParameterType.instantiate (types : List (String × TypeExpr)) : ParameterType → ParameterType
  | value type => value (Encoding.instantiate types type)
  | function parameter result =>
    function (Encoding.instantiate types parameter) (Encoding.instantiate types result)

/-- A function of the prelude can be reached and, for some choice of its type parameters, takes
arguments of certain types to a result of a certain type. -/
def Takes (scope : Scope TypeExpr) (name : String) (arguments : List ParameterType)
    (result : TypeExpr) : Prop :=
  scope.HasPrelude ∧ ∃ d types, definition? name = some d ∧
    types.map Prod.fst = d.typeParameters ∧
    d.parameters.map (fun p ↦ p.2.instantiate types) = arguments ∧
    instantiate types d.result = result

variable {scope : Scope TypeExpr} {key value : AbiType}

theorem takes_scalar (h : scope.HasPrelude) {s : Scalar} (hs : s ≠ .void) :
    Takes scope (scalarEncoder s) [.value (typeExpr (.scalar s))] argumentType :=
  ⟨h, _, [], definition?_scalar hs, rfl, rfl, rfl⟩

theorem takes_array (h : scope.HasPrelude) (element : TypeExpr) :
    Takes scope "array" [.value (.list element), .function element argumentType]
      argumentType := by
  refine ⟨h, _, [("T", element)], definition?_array, rfl, ?_, ?_⟩
  · simp [arrayDefinition, ParameterType.instantiate, instantiate, argumentType, List.lookup_cons]
  · simp [arrayDefinition, instantiate, argumentType, List.lookup_cons]

theorem takes_map (h : scope.HasPrelude) (key value : TypeExpr) :
    Takes scope "map"
      [.value (.map key value), .function key argumentType, .function value argumentType]
      argumentType := by
  refine ⟨h, _, [("K", key), ("V", value)], definition?_map, rfl, ?_, ?_⟩
  · simp [mapDefinition, ParameterType.instantiate, instantiate, argumentType, List.lookup_cons]
  · simp [mapDefinition, instantiate, argumentType, List.lookup_cons]

/-! ### Types -/

mutual

/-- The types that an encoder takes values from and gives arguments of. -/
inductive EncoderHasType : Scope TypeExpr → Encoder → TypeExpr → TypeExpr → Prop where
  | function {scope : Scope TypeExpr} {name : String} {parameter result : TypeExpr}
      (htakes : Takes scope name [.value parameter] result) :
      EncoderHasType scope (.function name) parameter result
  | arrow {scope : Scope TypeExpr} {binder : String} {body : EncodeExpr}
      {parameter result : TypeExpr}
      (hbody : HasType ((binder, .value parameter) :: scope) body result) :
      EncoderHasType scope (.arrow binder body) parameter result

/-- The type of an expression for an argument. -/
inductive HasType : Scope TypeExpr → EncodeExpr → TypeExpr → Prop where
  | scalar {scope : Scope TypeExpr} {name value : String} {type result : TypeExpr}
      (hvalue : scope.Holds value type) (htakes : Takes scope name [.value type] result) :
      HasType scope (.scalar name value) result
  | array {scope : Scope TypeExpr} {value : String} {element : Encoder}
      {type parameter argument result : TypeExpr} (hvalue : scope.Holds value type)
      (helement : EncoderHasType scope element parameter argument)
      (htakes : Takes scope "array" [.value type, .function parameter argument] result) :
      HasType scope (.array value element) result
  | map {scope : Scope TypeExpr} {value : String} {key entry : Encoder}
      {type keyParameter keyArgument parameter argument result : TypeExpr}
      (hvalue : scope.Holds value type)
      (hkey : EncoderHasType scope key keyParameter keyArgument)
      (hentry : EncoderHasType scope entry parameter argument)
      (htakes : Takes scope "map"
        [.value type, .function keyParameter keyArgument, .function parameter argument] result) :
      HasType scope (.map value key entry) result

end

/-- The contents of a map stand for values if the map does. -/
theorem unsupported?_map (h : unsupported? (.map key value) = none) :
    unsupported? key = none ∧ unsupported? value = none := by
  rw [unsupported?] at h
  split at h
  case isTrue => exact Option.or_eq_none_iff.1 h
  case isFalse => cases h

/-- **What encodes a variable is well typed** where the variable has the type of its values, if
the type has values. -/
theorem typed_of_type (type : AbiType) (depth : Nat) :
    (unsupported? type = none → ∀ scope : Scope TypeExpr, scope.HasPrelude →
      EncoderHasType scope (encoder depth type) (typeExpr type) argumentType) ∧
    ∀ value, unsupported? type = none → ∀ scope : Scope TypeExpr, scope.HasPrelude →
      scope.Holds value (typeExpr type) →
        HasType scope (encodeExpr value depth type) argumentType := by
  refine encoder_induction
    (F := fun type f ↦ unsupported? type = none → ∀ scope : Scope TypeExpr, scope.HasPrelude →
      EncoderHasType scope f (typeExpr type) argumentType)
    (E := fun type value e ↦ unsupported? type = none → ∀ scope : Scope TypeExpr,
      scope.HasPrelude → scope.Holds value (typeExpr type) → HasType scope e argumentType)
    ?function ?arrow ?scalar ?array ?map type depth
  case function =>
    intro s hs scope hscope
    exact .function (takes_scalar hscope (by rintro rfl; cases hs))
  case arrow =>
    intro type depth body hbody htype scope hscope
    exact .arrow (hbody htype _ (hscope.cons (arrowVariable_ne_encode depth) _)
      (Scope.holds_cons ..))
  case scalar =>
    intro s value hs scope hscope hvalue
    exact .scalar hvalue (takes_scalar hscope (by rintro rfl; cases hs))
  case array =>
    intro element value f hf htype scope hscope hvalue
    exact .array hvalue (hf htype scope hscope) (takes_array hscope (typeExpr element))
  case map =>
    intro key entry value f g hf hg htype scope hscope hvalue
    obtain ⟨hkey, hentry⟩ := unsupported?_map htype
    exact .map hvalue (hf hkey scope hscope) (hg hentry scope hscope)
      (takes_map hscope (typeExpr key) (typeExpr entry))

end ContractBindings.Encoding
