import ContractBindings.AbiType
import ContractBindings.ScriptHash

/-!
# The interface of a contract

What a manifest says of a contract's methods and events once its types are read.
-/

namespace ContractBindings

/-- A parameter of a method or an event. -/
structure Parameter where
  name : String
  type : AbiType
  /-- The index of the parameter among the arguments of a call. -/
  position : Nat
  deriving DecidableEq, Repr

/-- A method of a contract. -/
structure Method where
  name : String
  parameters : List Parameter
  returnType : AbiType
  /-- Safe methods only read the state of the contract. -/
  safe : Bool
  /-- Where the method starts in the contract's script. -/
  offset : Option UInt32
  deriving DecidableEq, Repr

namespace Method

/-- The number of parameters. -/
def arity (m : Method) : Nat := m.parameters.length

/-- The types of the parameters in order. -/
def parameterTypes (m : Method) : List AbiType := m.parameters.map (·.type)

/-- The signature of a method, such as `transfer(Hash160 to, Integer amount) -> Boolean`. -/
def signature (m : Method) : String :=
  m.name ++ "(" ++ ", ".intercalate (m.parameters.map fun p ↦ p.type.text ++ " " ++ p.name) ++
    ") -> " ++ m.returnType.text

end Method

/-- An event that a contract raises. -/
structure Event where
  name : String
  parameters : List Parameter
  deriving DecidableEq, Repr

/-- The interface of a contract. -/
structure Contract where
  name : String
  scriptHash : Option ScriptHash
  supportedStandards : List String
  methods : List Method
  events : List Event
  deriving DecidableEq

/-- The methods that only read the state of the contract. -/
def Contract.safeMethods (c : Contract) : List Method :=
  c.methods.filter (·.safe)

end ContractBindings
