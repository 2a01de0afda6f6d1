import ContractBindings.Binding.Encoding
import ContractBindings.Binding.TypeMap
import ContractBindings.Identifier.Members
import ContractBindings.Options

/-!
# Binding plans

A plan holds everything that the modules of a contract are written from: every identifier is
chosen and every type mapped. Both modules are written from one plan, which is why they agree.
-/

namespace ContractBindings.Binding

/-- A parameter of a member, or a field of an event. -/
structure PlannedParameter where
  ident : String
  type : AbiType
  mapped : MappedType
  deriving DecidableEq

/-- The declaration of a parameter. -/
def PlannedParameter.declaration (p : PlannedParameter) : String :=
  p.ident ++ ": " ++ p.mapped.typeExpr.text

/-- The expression that encodes a parameter. -/
def PlannedParameter.argument (p : PlannedParameter) : String :=
  (encode p.ident p.type).text

/-- A member for a method of the contract. -/
structure PlannedMethod where
  ident : String
  /-- The method's name in the manifest, which is what a call names. -/
  operation : String
  signature : String
  safe : Bool
  offset : Option UInt32
  parameters : List PlannedParameter
  result : MappedType
  deriving DecidableEq

/-- The declarations of the parameters of a member. -/
def PlannedMethod.declarations (m : PlannedMethod) : String :=
  ", ".intercalate (m.parameters.map (·.declaration))

/-- The list of the encoded parameters of a member. -/
def PlannedMethod.arguments (m : PlannedMethod) : String :=
  "[" ++ ", ".intercalate (m.parameters.map (·.argument)) ++ "]"

/-- The description of a member: its signature, whether it is safe, and where it starts. -/
def PlannedMethod.description (m : PlannedMethod) : List String :=
  m.signature ::
    (if m.safe then ["Safe: does not modify contract state."] else []) ++
    (m.offset.map fun offset ↦ s!"Script offset: {offset}").toList

/-- An interface for the payload of an event, and its entry in the table of events. -/
structure PlannedEvent where
  interfaceName : String
  key : String
  rawName : String
  fields : List PlannedParameter
  deriving DecidableEq

/-- Everything that the modules of a contract are written from. -/
structure Plan where
  className : String
  manifestName : String
  scriptHash : Option ScriptHash
  embedHash : Bool
  supportedStandards : List String
  methods : List PlannedMethod
  events : List PlannedEvent
  /-- The hexadecimal types that the members refer to, in the order of their names. -/
  aliases : List Scalar
  deriving DecidableEq

/-- The name of the implementation class that belongs to a client class. -/
def implementationName (className : String) : String :=
  className ++ "Impl"

/-- The name of the table of events that belongs to a client class. -/
def eventTableName (className : String) : String :=
  className ++ "Events"

/-! ### Aliases -/

/-- Whether a scalar occurs in a type. -/
def mentions (scalar : Scalar) : AbiType → Bool
  | .scalar s => s == scalar
  | .array element => mentions scalar element
  | .map key value => mentions scalar key || mentions scalar value

/-- The scalars whose values have an alias in the prelude, in the order of their names. -/
def aliased : List Scalar :=
  [.hash160, .hash256, .publicKey]

/-- The aliases that occur in types. -/
def aliasesOf (types : List AbiType) : List Scalar :=
  aliased.filter fun s ↦ types.any (mentions s)

/-- The types that occur in the declaration of a method. -/
def declaredTypes (m : Method) : List AbiType :=
  m.parameterTypes ++ [m.returnType]

/-! ### Making a plan -/

/-- The counterpart of a type that values have. -/
def mapValueType (place : TypePlace) (type : AbiType) : Except GenerationError MappedType :=
  if type = .scalar .void then .error (.unsupportedType place type.text .voidValue)
  else (mapType type).mapError (·.located place)

/-- Plans parameters; `place` says where the type of each stands. -/
def planParameters (place : Nat → String → TypePlace) (parameters : List Parameter) :
    Except GenerationError (List PlannedParameter) :=
  (parameters.zip (Identifier.parameterNames (parameters.map (·.name)))).mapM
    fun (p, ident) ↦ do
      return ⟨ident, p.type, ← mapValueType (place p.position p.name) p.type⟩

/-- Plans the member with the name `ident` for a method. -/
def planMethod (m : Method) (ident : String) : Except GenerationError PlannedMethod := do
  let parameters ← planParameters (.parameter m.name) m.parameters
  let result ← (mapType m.returnType).mapError (·.located (.returnValue m.name))
  return { ident, operation := m.name, signature := m.signature, safe := m.safe,
           offset := m.offset, parameters, result }

/-- The keys that the names of events give. -/
def eventBases (events : List Event) : List String :=
  events.map fun e ↦ Identifier.derive .contract e.name

/-- The names that the interfaces of events may not have. -/
def moduleNames (className : String) : List String :=
  [className, implementationName className, eventTableName className] ++ Module.preludeExports

/-- The names of the interfaces of events. -/
def interfaceNames (className : String) (events : List Event) : List String :=
  Identifier.distinct Identifier.underscored (moduleNames className)
    ((eventBases events).map (· ++ "Event"))

/-- The keys of events in the table of events. -/
def eventKeys (events : List Event) : List String :=
  Identifier.distinct Identifier.numbered [] (eventBases events)

/-- Plans the interface and the table entry of an event. -/
def planEvent (e : Event) (interfaceName key : String) : Except GenerationError PlannedEvent :=
  do return ⟨interfaceName, key, e.name, ← planParameters (.eventParameter e.name) e.parameters⟩

/-- The plan for the modules of a contract. -/
def plan (options : Options) (c : Contract) : Except GenerationError Plan := do
  let className ← Identifier.resolve .contract c.name options.nameOverride
  let methods ← (c.methods.zip (Identifier.methodNames c.methods)).mapM
    fun (m, ident) ↦ planMethod m ident
  let events ← ((c.events.zip (interfaceNames className c.events)).zip (eventKeys c.events)).mapM
    fun ((e, interfaceName), key) ↦ planEvent e interfaceName key
  return {
    className
    manifestName := c.name
    scriptHash := c.scriptHash
    embedHash := options.embedHash
    supportedStandards := c.supportedStandards
    methods
    events
    aliases := aliasesOf (c.methods.flatMap declaredTypes) }

end ContractBindings.Binding
