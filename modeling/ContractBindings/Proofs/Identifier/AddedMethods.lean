import ContractBindings.Proofs.Identifier.MethodNames

/-!
# Names when methods are added

A contract that gains methods at its end keeps the names of the members it had, as long as no method
is added whose identifier is already there (`take_methodNames_append`).

Only the first stage looks at all methods at once, and it only counts how often an identifier occurs
among them, which other identifiers do not change (`suffixed_append_left`). The two stages after it
run from left to right, each with a record of what it has met so far, so what comes later is of no
account (`numberRepeats_append`, `distinct_append`): a later method that is given the suffixed or
numbered name of an earlier one is the one that has to give way.
-/

namespace ContractBindings.Identifier

variable {xs ys : List Method}

/-! ### Stages from left to right -/

/-- Numbering goes on behind a list with all its entries seen. -/
theorem numberRepeats_append (seen keys more : List (String × List AbiType)) :
    numberRepeats seen (keys ++ more) =
      numberRepeats seen keys ++ numberRepeats (keys.reverse ++ seen) more := by
  induction keys generalizing seen with
  | nil => rfl
  | cons key keys ih =>
    rw [List.cons_append, numberRepeats, numberRepeats, ih, List.reverse_cons, List.append_assoc]
    rfl

/-- Names are made distinct behind a list with all that it was given taken. -/
theorem distinct_append (candidates : String → Nat → String) (taken names more : List String) :
    distinct candidates taken (names ++ more) =
      distinct candidates taken names ++
        distinct candidates ((distinct candidates taken names).reverse ++ taken) more := by
  induction names generalizing taken with
  | nil => rfl
  | cons name names ih =>
    rw [List.cons_append, distinct, distinct, ih, List.reverse_cons, List.append_assoc]
    rfl

/-! ### The first stage -/

theorem suffixed_append (bases : List String) (xs ys : List Method) :
    suffixed bases (xs ++ ys) = suffixed bases xs ++ suffixed bases ys :=
  List.map_append

/-- Suffixes are given as before when only other identifiers are added. -/
theorem suffixed_append_left
    (h : ∀ x ∈ xs, ∀ y ∈ ys, derive .method y.name ≠ derive .method x.name) :
    suffixed (methodBases (xs ++ ys)) xs = suffixed (methodBases xs) xs := by
  refine List.map_congr_left fun x hx ↦ ?_
  have hadded : (methodBases ys).count (derive .method x.name) = 0 := by
    refine List.count_eq_zero.2 fun hmem ↦ ?_
    obtain ⟨y, hy, heq⟩ := List.mem_map.1 hmem
    exact h x hx y hy heq
  have happend : methodBases (xs ++ ys) = methodBases xs ++ methodBases ys := List.map_append
  dsimp only
  rw [happend, List.count_append, hadded, Nat.add_zero]

/-! ### Members -/

/-- **Methods that are added at the end rename no member**, if none has the identifier of a method
that was there. -/
theorem take_methodNames_append
    (h : ∀ x ∈ xs, ∀ y ∈ ys, derive .method y.name ≠ derive .method x.name) :
    (methodNames (xs ++ ys)).take xs.length = methodNames xs := by
  have hlength : (suffixed (methodBases (xs ++ ys)) xs).length =
      (xs.map (·.parameterTypes)).length := by
    rw [suffixed, List.length_map, List.length_map]
  have hnames : ∃ added, methodNames (xs ++ ys) = methodNames xs ++ added := by
    dsimp only [methodNames]
    rw [suffixed_append, List.map_append, List.zip_append hlength, numberRepeats_append,
      distinct_append, suffixed_append_left h]
    exact ⟨_, rfl⟩
  obtain ⟨added, hadded⟩ := hnames
  rw [hadded, ← length_methodNames xs, List.take_left]

/-- Methods are added whose suffixed name is that of a method which was there, and keep out of its
way. -/
theorem take_methodNames_append_overloads :
    let plain : Method := ⟨"burnWithInteger", [], .scalar .void, false, none⟩
    let twice : Method := ⟨"mint", [⟨"to", .scalar .hash160, 0⟩], .scalar .void, false, none⟩
    let burn : Method := ⟨"burn", [⟨"amount", .scalar .integer, 0⟩], .scalar .void, false, none⟩
    let burnAll : Method := ⟨"Burn", [], .scalar .void, false, none⟩
    (∀ x ∈ [plain, twice, twice], ∀ y ∈ [burn, burnAll],
      derive .method y.name ≠ derive .method x.name) ∧
    (methodNames ([plain, twice, twice] ++ [burn, burnAll])).take 3 =
      methodNames [plain, twice, twice] ∧
    methodNames ([plain, twice, twice] ++ [burn, burnAll]) =
      ["burnWithInteger", "mintWithHash160", "mintWithHash160_2", "burnWithInteger_",
        "burnWithNoArgs"] := by
  intro plain twice burn burnAll
  have h : ∀ x ∈ [plain, twice, twice], ∀ y ∈ [burn, burnAll],
      derive .method y.name ≠ derive .method x.name := by decide +kernel
  exact ⟨h, take_methodNames_append h, by decide +kernel⟩

end ContractBindings.Identifier
