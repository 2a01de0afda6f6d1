import ContractBindings.Contract
import ContractBindings.Identifier.Distinct
import ContractBindings.Identifier.Resolve

/-!
# Names of methods and parameters

Methods may share a name in a manifest, members of a class may not. Methods whose identifiers
collide all get a suffix made from the types of their parameters; of methods with the same types
the later ones are numbered; and a name that still meets that of an unrelated method gets
underscores. Parameters of one method are only numbered.
-/

namespace ContractBindings.Identifier

/-- The part of a suffix that stands for a type, such as `ArrayHash160`. -/
def typeTag : AbiType → String
  | .scalar s => s.name
  | .array element => "Array" ++ typeTag element
  | .map key value => "Map" ++ typeTag key ++ typeTag value

/-- The suffix that tells overloads apart by the types of their parameters. -/
def overloadSuffix : List AbiType → String
  | [] => "WithNoArgs"
  | types => "With" ++ String.join (types.map typeTag)

/-- The identifiers that the names of methods give. -/
def methodBases (methods : List Method) : List String :=
  methods.map fun m ↦ derive .method m.name

/-- The identifiers, with the overload suffix where one occurs more than once among `bases`. -/
def suffixed (bases : List String) (methods : List Method) : List String :=
  methods.map fun m ↦
    let base := derive .method m.name
    if 1 < bases.count base then base ++ overloadSuffix m.parameterTypes else base

/-- The names, numbered where the same name with the same types was seen before. -/
def numberRepeats : (seen : List (String × List AbiType)) → List (String × List AbiType) →
    List String
  | _, [] => []
  | seen, key :: rest =>
    numbered key.1 (seen.count key) :: numberRepeats (key :: seen) rest

/-- The names of the members for a list of methods, in order. -/
def methodNames (methods : List Method) : List String :=
  let names := suffixed (methodBases methods) methods
  let keys := names.zip (methods.map (·.parameterTypes))
  distinct underscored [] (numberRepeats [] keys)

/-- The identifiers that the names of parameters give, each at its index. -/
def parameterBases (names : List String) : List String :=
  names.zipIdx.map fun (name, position) ↦ derive (.parameter position) name

/-- The identifiers for the names of the parameters of one method, in order. -/
def parameterNames (names : List String) : List String :=
  distinct numbered [] (parameterBases names)

end ContractBindings.Identifier
