import ContractBindings.Identifier.Members
import ContractBindings.Proofs.Identifier.Distinct
import ContractBindings.Proofs.Identifier.Usable

/-!
# Names of members

The names for a list of methods pass through three stages, and each stage may meet a name that an
earlier one had ruled out: a suffix can spell another method's own name, a number can spell a
suffixed name, and an underscore can spell a numbered one. Distinctness is therefore not carried
through the stages at all; only the last one gives it, over whatever names come in
(`nodup_distinct`).

What each stage does carry is usability. Every stage appends to the name it is given, and what it
appends holds an underscore or a capital `W`, so `Usable.append` applies to each of them
(`usable_suffixed`, `usable_numberRepeats`, `usable_underscored`), and once more to the parameters
of one method.
-/

namespace ContractBindings.Identifier

open Text (Over)

/-! ### Suffixes -/

/-- Tags are letters and digits, and no tag holds a capital `W`. -/
theorem over_typeTag (type : AbiType) :
    Over (fun c ↦ c.isAlphanum && c != 'W') (typeTag type) := by
  induction type with
  | scalar s => cases s <;> exact .literal rfl
  | array element ih => exact .append (.literal rfl) ih
  | map key value ihk ihv => exact .append (.append (.literal rfl) ihk) ihv

theorem over_overloadSuffix (types : List AbiType) :
    Over Char.isAlphanum (overloadSuffix types) := by
  cases types with
  | nil => exact .literal rfl
  | cons type types =>
    refine .append (.literal rfl) (.join fun tag htag ↦ ?_)
    obtain ⟨t, -, rfl⟩ := List.mem_map.1 htag
    exact (over_typeTag t).mono fun c hc ↦ (Bool.and_eq_true_iff.1 hc).1

/-- Every overload suffix starts with a capital `W`. -/
theorem mem_overloadSuffix (types : List AbiType) : 'W' ∈ (overloadSuffix types).toList := by
  cases types with
  | nil => decide
  | cons type types =>
    show 'W' ∈ ("With" ++ _ : String).toList
    rw [String.toList_append]
    exact List.mem_append_left _ (by decide)

/-! ### What the stages keep -/

variable {kind : Kind} {name : String}

theorem over_underscores (k : Nat) : Over isPart (String.ofList (List.replicate k '_')) :=
  .literal <| List.all_eq_true.2 fun c hc ↦ List.eq_of_mem_replicate hc ▸ (by decide)

theorem over_numberMark (n : Nat) : Over isPart ("_" ++ toString n) :=
  .append (.literal rfl) (over_toString_nat n)

theorem isLegal_numbered (h : isLegal name = true) (k : Nat) :
    isLegal (numbered name k) = true := by
  cases k with
  | zero => exact h
  | succ k =>
    rw [numbered_succ, String.append_assoc]
    exact isLegal_append h (over_numberMark _)

theorem usable_numbered (h : Usable kind name) (k : Nat) : Usable kind (numbered name k) := by
  cases k with
  | zero => exact h
  | succ k =>
    rw [numbered_succ, String.append_assoc]
    refine h.append (over_numberMark _) (.inl ?_)
    rw [String.toList_append]
    exact List.mem_append_left _ (by decide)

theorem usable_underscored (h : Usable kind name) (k : Nat) : Usable kind (underscored name k) := by
  cases k with
  | zero => simpa [underscored] using h
  | succ k =>
    refine h.append (over_underscores _) (.inl ?_)
    rw [String.toList_ofList]
    exact List.mem_replicate.2 ⟨k.succ_ne_zero, rfl⟩

/-- The first stage: a base, alone or with an overload suffix. -/
theorem usable_suffixed (bases : List String) (methods : List Method) :
    ∀ name ∈ suffixed bases methods, Usable .method name := by
  intro name hname
  obtain ⟨m, -, rfl⟩ := List.mem_map.1 hname
  have hbase := usable_derive .method m.name
  dsimp only
  split
  · exact hbase.append ((over_overloadSuffix _).mono fun _ ↦ isPart_of_isAlphanum)
      (.inr (mem_overloadSuffix _))
  · exact hbase

/-- The second stage: a name, alone or with a number. -/
theorem usable_numberRepeats (seen keys : List (String × List AbiType))
    (h : ∀ key ∈ keys, Usable kind key.1) : ∀ name ∈ numberRepeats seen keys, Usable kind name := by
  induction keys generalizing seen with
  | nil => exact fun name hname ↦ absurd hname List.not_mem_nil
  | cons key rest ih =>
    intro name hname
    rcases List.mem_cons.1 hname with rfl | hname
    · exact usable_numbered (h key List.mem_cons_self) _
    · exact ih _ (fun k hk ↦ h k (List.mem_cons_of_mem _ hk)) name hname

@[simp]
theorem length_numberRepeats (seen keys : List (String × List AbiType)) :
    (numberRepeats seen keys).length = keys.length := by
  induction keys generalizing seen with
  | nil => rfl
  | cons key rest ih => simp [numberRepeats, ih]

/-- The last stage keeps what all candidates of a name share with it. -/
theorem forall_mem_distinct {p : String → Prop} {candidates : String → Nat → String}
    (hkeep : ∀ name k, p name → p (candidates name k))
    {taken names : List String} (h : ∀ name ∈ names, p name) :
    ∀ name ∈ distinct candidates taken names, p name := by
  intro name hname
  obtain ⟨source, hsource, k, rfl⟩ := exists_candidate_of_mem_distinct hname
  exact hkeep source k (h source hsource)

/-! ### Methods -/

@[simp]
theorem length_methodNames (methods : List Method) :
    (methodNames methods).length = methods.length := by
  simp [methodNames, suffixed]

theorem nodup_methodNames (methods : List Method) : (methodNames methods).Nodup :=
  nodup_distinct underscored_injective [] _

theorem usable_methodNames (methods : List Method) :
    ∀ name ∈ methodNames methods, Usable .method name := by
  refine forall_mem_distinct (fun _ k h ↦ usable_underscored h k) ?_
  refine usable_numberRepeats [] _ fun key hkey ↦ ?_
  exact usable_suffixed _ methods key.1 (List.of_mem_zip hkey).1

/-- **Members can all be declared in one class.** There is one name for each method; no two of
them are equal, each is a letter, an underscore or a dollar sign followed by such characters and
digits, and none is a word of the language or a member that every class has. -/
theorem methodNames_declarable (methods : List Method) :
    (methodNames methods).length = methods.length ∧
    (methodNames methods).Nodup ∧
    ∀ name ∈ methodNames methods,
      (∃ c rest, name.toList = c :: rest ∧
        (c.isAlpha = true ∨ c = '_' ∨ c = '$') ∧
        ∀ d ∈ rest, d.isAlphanum = true ∨ d = '_' ∨ d = '$') ∧
      name ∉ reservedWords ∧ name ∉ classMembers := by
  refine ⟨length_methodNames methods, nodup_methodNames methods, fun name hname ↦ ?_⟩
  obtain ⟨hlegal, hfree⟩ := usable_methodNames methods name hname
  refine ⟨?_, ?_⟩
  · obtain ⟨c, rest, heq, hc, hrest⟩ := exists_cons_of_isLegalChars hlegal
    refine ⟨c, rest, heq, ?_, fun d hd ↦ ?_⟩
    · simpa [isStart, or_assoc] using hc
    · simpa [isPart, or_assoc] using hrest d hd
  · simpa [isReserved, Kind.reserved] using hfree

/-- Three stages at work: two equal methods, a method that is named like their suffixed name, and
one that is named like a member of every class. -/
example :
    let mint : Method := ⟨"mint", [⟨"amount", .scalar .integer, 0⟩], .scalar .void, false, none⟩
    let other : Method := ⟨"mintWithInteger", [], .scalar .void, false, none⟩
    let field : Method := ⟨"invoker", [], .scalar .void, false, none⟩
    methodNames [mint, mint, other, field] =
      ["mintWithInteger", "mintWithInteger_2", "mintWithInteger_", "invoker_"] := by
  decide +kernel

/-! ### Parameters -/

theorem length_parameterNames (names : List String) :
    (parameterNames names).length = names.length := by
  simp [parameterNames, parameterBases]

theorem nodup_parameterNames (names : List String) : (parameterNames names).Nodup :=
  nodup_distinct numbered_injective [] _

/-- Which position a parameter has decides its stand-in, not what it may be. -/
theorem usable_parameterNames (names : List String) (position : Nat) :
    ∀ name ∈ parameterNames names, Usable (.parameter position) name := by
  refine forall_mem_distinct (fun _ k h ↦ usable_numbered h k) fun base hbase ↦ ?_
  obtain ⟨⟨raw, index⟩, -, rfl⟩ := List.mem_map.1 hbase
  exact ⟨(usable_derive (.parameter index) raw).legal, (usable_derive (.parameter index) raw).free⟩

theorem beginsSmall_parameterNames (names : List String) :
    ∀ name ∈ parameterNames names, BeginsSmall name.toList := by
  refine forall_mem_distinct (fun name k h ↦ ?_) fun base hbase ↦ ?_
  · cases k with
    | zero => exact h
    | succ k =>
      rw [numbered_succ, String.append_assoc, String.toList_append]
      exact h.append _
  · obtain ⟨⟨raw, position⟩, -, rfl⟩ := List.mem_map.1 hbase
    exact beginsSmall_derive_parameter position raw

end ContractBindings.Identifier
