import ContractBindings.Proofs.AbiType.Grammar

/-!
# Beginnings of descriptors

A text that goes on to a whole descriptor, perhaps with something that comes next for certain. The
rules follow the grammar: spaces go on with a name, and a container that has been opened goes on as
what stands in its brackets does, for the rest of the contents and the bracket can be supplied. The
contents that are supplied are names on a level that already holds one, so the bound on levels is
never passed.
-/

namespace ContractBindings.AbiType

variable {s before between inner word first next : List Char} {type : AbiType} {level : Nat}

/-- With `next` behind it, a text is the beginning of one that writes a type, if the outermost name
stands `level` names deep. -/
def GoesOn (level : Nat) (used next : List Char) : Prop :=
  ∃ rest type, Derives level (used ++ (next ++ rest)) type

theorem names_any : Names "Any".toList (scalar .any) :=
  ofName?_eq_some_iff.1 rfl

theorem Derives.level_le (h : Derives level s type) : level ≤ maxDepth := by
  cases h <;> assumption

theorem Derives.goesOn (h : Derives level s type) : GoesOn level s [] :=
  ⟨[], type, by rwa [List.append_nil, List.append_nil]⟩

namespace GoesOn

theorem level_le (h : GoesOn level s next) : level ≤ maxDepth := by
  obtain ⟨rest, type, h⟩ := h
  exact h.level_le

theorem nil (h : GoesOn level s next) : GoesOn level s [] := by
  obtain ⟨rest, type, h⟩ := h
  exact ⟨next ++ rest, type, h⟩

theorem blank (hlevel : level ≤ maxDepth) (hbefore : Blank before) :
    GoesOn level before "Any".toList :=
  ⟨[], _, .name hlevel hbefore names_any blank_nil⟩

theorem array (hlevel : level ≤ maxDepth) (hbefore : Blank before)
    (hword : SameLetters word "Array".toList) (hbetween : Blank between)
    (hinner : GoesOn (level + 1) inner next) :
    GoesOn level (before ++ (word ++ (between ++ '<' :: inner))) next := by
  obtain ⟨rest, element, hinner⟩ := hinner
  have hwhole := Derives.array hlevel hbefore hword hbetween hinner blank_nil
  refine ⟨rest ++ ['>'], .array element, ?_⟩
  simpa only [List.append_assoc, List.cons_append, List.nil_append] using hwhole

theorem key (hlevel : level ≤ maxDepth) (hbefore : Blank before)
    (hword : SameLetters word "Map".toList) (hbetween : Blank between)
    (hfirst : GoesOn (level + 1) first next) :
    GoesOn level (before ++ (word ++ (between ++ '<' :: first))) next := by
  have hdeeper := hfirst.level_le
  obtain ⟨rest, key, hfirst⟩ := hfirst
  have hwhole := Derives.map hlevel hbefore hword hbetween hfirst
    (.name hdeeper blank_nil names_any blank_nil) blank_nil
  refine ⟨rest ++ ',' :: ("Any".toList ++ ['>']), .map key (scalar .any), ?_⟩
  simpa only [List.append_assoc, List.cons_append, List.nil_append, List.append_nil] using hwhole

theorem value {second : List Char} {key : AbiType} (hlevel : level ≤ maxDepth)
    (hbefore : Blank before) (hword : SameLetters word "Map".toList) (hbetween : Blank between)
    (hfirst : Derives (level + 1) first key) (hsecond : GoesOn (level + 1) second next) :
    GoesOn level (before ++ (word ++ (between ++ '<' :: (first ++ ',' :: second)))) next := by
  obtain ⟨rest, value, hsecond⟩ := hsecond
  have hwhole := Derives.map hlevel hbefore hword hbetween hfirst hsecond blank_nil
  refine ⟨rest ++ ['>'], .map key value, ?_⟩
  simpa only [List.append_assoc, List.cons_append, List.nil_append] using hwhole

end GoesOn

end ContractBindings.AbiType
