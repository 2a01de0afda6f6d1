/-!
# Members in order

Named values, in ascending order of their names and each name once. Inserting a value under a
name that is there already replaces the old one.
-/

namespace ContractBindings

/-- Named values. -/
abbrev Members (α : Type) := List (String × α)

namespace Members

variable {α : Type}

/-- Puts a value in its place among ascending members, or in the place of its namesake. -/
def insert (name : String) (value : α) : Members α → Members α
  | [] => [(name, value)]
  | (other, old) :: rest =>
    if name < other then (name, value) :: (other, old) :: rest
    else if name = other then (name, value) :: rest
    else (other, old) :: insert name value rest

/-- Members in ascending order, the last of equal names winning. -/
def ofList (members : List (String × α)) : Members α :=
  members.foldl (fun sorted member ↦ insert member.1 member.2 sorted) []

/-- The value under a name. -/
def get? (name : String) (members : Members α) : Option α :=
  members.lookup name

end Members

end ContractBindings
