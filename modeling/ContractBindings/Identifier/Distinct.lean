/-!
# Distinct names

Names of one scope are made distinct from left to right: each gets the first of its candidates
that is not taken yet, and is taken from then on. Among as many candidates as there are taken
names and one more, one is free, which bounds the search.
-/

namespace ContractBindings.Identifier

/-- The first candidate from the `k`-th on that is not taken, after `tries` failures the next. -/
def firstFree (taken : List String) (candidate : Nat → String) : (tries : Nat) → Nat → String
  | 0, k => candidate k
  | tries + 1, k =>
    if candidate k ∈ taken then firstFree taken candidate tries (k + 1) else candidate k

/-- The first candidate that is not taken. -/
def fresh (taken : List String) (candidate : Nat → String) : String :=
  firstFree taken candidate taken.length 0

/-- A name, and the name with one, two, … underscores behind it. -/
def underscored (name : String) (k : Nat) : String :=
  name ++ String.ofList (List.replicate k '_')

/-- A name, and the name with `_2`, `_3`, … behind it. -/
def numbered (name : String) (k : Nat) : String :=
  if k = 0 then name else name ++ "_" ++ toString (k + 1)

/-- The names, each replaced by its first candidate that is free. -/
def distinct (candidates : String → Nat → String) :
    (taken : List String) → List String → List String
  | _, [] => []
  | taken, name :: rest =>
    let chosen := fresh taken (candidates name)
    chosen :: distinct candidates (chosen :: taken) rest

/-- One name comes out for each that goes in. -/
@[simp]
theorem length_distinct (candidates : String → Nat → String) (taken names : List String) :
    (distinct candidates taken names).length = names.length := by
  induction names generalizing taken with
  | nil => rfl
  | cons name rest ih => simp [distinct, ih]

end ContractBindings.Identifier
