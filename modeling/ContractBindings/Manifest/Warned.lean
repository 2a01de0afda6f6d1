import ContractBindings.Error

/-!
# Results with warnings

Loading a manifest may replace a type that is not known, and warns of it. Warnings that were given
before an error stay given, so a result with warnings is a list of them beside an ordinary
result; `result_bind` and its companions say that the result itself does not see them.
-/

namespace ContractBindings

/-- A type name that was taken to stand for any type. -/
structure UnknownType where
  place : TypePlace
  name : String
  deriving DecidableEq, Repr

/-- The wording of a warning. -/
def UnknownType.message (w : UnknownType) : String :=
  w.place.text ++ ": unknown type '" ++ w.name ++ "' mapped to Any"

/-- A result and the warnings given on the way to it. -/
structure Warned (α : Type) where
  warnings : List UnknownType
  result : Except GenerationError α

namespace Warned

variable {α β : Type}

/-- A result without warnings. -/
def ofResult (result : Except GenerationError α) : Warned α :=
  ⟨[], result⟩

/-- A value, and one warning. -/
def warn (warning : UnknownType) (value : α) : Warned α :=
  ⟨[warning], .ok value⟩

/-- An error without warnings. -/
def fail (error : GenerationError) : Warned α :=
  ofResult (.error error)

/-- Goes on with the value of a result, if it has one. -/
def andThen (x : Warned α) (f : α → Warned β) : Warned β :=
  match x.result with
  | .error e => ⟨x.warnings, .error e⟩
  | .ok a => ⟨x.warnings ++ (f a).warnings, (f a).result⟩

instance : Monad Warned where
  pure a := ofResult (.ok a)
  bind := andThen

@[simp]
theorem result_bind (x : Warned α) (f : α → Warned β) :
    (x >>= f).result = x.result >>= fun a ↦ (f a).result := by
  show (andThen x f).result = _
  unfold andThen
  cases x.result <;> rfl

end Warned

end ContractBindings
