import ContractBindings.Proofs.Identifier.Stems

/-!
# Copies and strangers

Methods with the same identifier and the same types are copies, and copies are numbered. A method is
counted with all that have its stem and its types, though, and a stem does not tell the identifier
that it is made from: a method may have for its identifier what another has with a suffix. If its
types are those that the suffix stands for, it is a stranger among the copies, and counted with them
(`methodNames_number_stranger`).

Where no stranger is met, numbers count copies, and a stem that a method with another identifier has
too is told apart by an underscore (`methodNames_count_copies`).
-/

namespace ContractBindings.Identifier

variable {methods : List Method} {i : Nat} {m e : Method}

/-- How many of the methods in front of a method have its identifier and its types. -/
def copies (earlier : List Method) (m : Method) : Nat :=
  earlier.countP fun e ↦
    derive .method e.name = derive .method m.name ∧ e.parameterTypes = m.parameterTypes

/-- How many of the methods in front of a method have its stem and its types, and another
identifier. -/
def strangers (methods earlier : List Method) (m : Method) : Nat :=
  earlier.countP fun e ↦
    derive .method e.name ≠ derive .method m.name ∧ key methods e = key methods m

theorem stem_congr (hbase : derive .method e.name = derive .method m.name)
    (htypes : e.parameterTypes = m.parameterTypes) : stem methods e = stem methods m := by
  have hshared : Shared methods e ↔ Shared methods m := by
    unfold Shared
    rw [hbase]
  by_cases hm : Shared methods m
  · rw [stem_of_shared hm, stem_of_shared (hshared.2 hm), hbase, htypes]
  · rw [stem_of_not_shared hm, stem_of_not_shared fun he ↦ hm (hshared.1 he), hbase]

/-- Copies are counted together. -/
theorem key_eq_of_copy (hbase : derive .method e.name = derive .method m.name) :
    key methods e = key methods m ↔ e.parameterTypes = m.parameterTypes := by
  rw [key, key, Prod.mk.injEq]
  exact and_iff_right_of_imp (stem_congr hbase)

/-- **A method is counted with its copies and with strangers.** -/
theorem repeats_eq (methods earlier : List Method) (m : Method) :
    repeats methods earlier m = copies earlier m + strangers methods earlier m := by
  rw [repeats, List.count, List.countP_map,
    List.countP_eq_countP_filter_add _ _ fun e ↦ derive .method e.name = derive .method m.name,
    List.countP_filter, List.countP_filter, copies, strangers]
  congr 1
  · refine List.countP_congr fun e _ ↦ ?_
    simp only [Function.comp_apply, Bool.and_eq_true, beq_iff_eq, decide_eq_true_eq]
    rw [and_comm]
    exact and_congr_right key_eq_of_copy
  · refine List.countP_congr fun e _ ↦ ?_
    simp only [Function.comp_apply, Bool.and_eq_true, beq_iff_eq, Bool.not_eq_true',
      decide_eq_false_iff_not, decide_eq_true_eq]
    exact and_comm

/-- Of two identifiers that give the same name one is the other with the suffix of types. -/
theorem append_overloadSuffix_of_stranger (hbase : derive .method e.name ≠ derive .method m.name)
    (hkey : key methods e = key methods m) :
    derive .method m.name = derive .method e.name ++ overloadSuffix m.parameterTypes ∨
      derive .method e.name = derive .method m.name ++ overloadSuffix m.parameterTypes := by
  obtain ⟨hstem, htypes⟩ := Prod.mk.inj hkey
  by_cases he : Shared methods e <;> by_cases hm : Shared methods m
  · rw [stem_of_shared he, stem_of_shared hm, append_overloadSuffix_inj] at hstem
    exact absurd hstem.1 hbase
  · rw [stem_of_shared he, stem_of_not_shared hm, htypes] at hstem
    exact .inl hstem.symm
  · rw [stem_of_not_shared he, stem_of_shared hm] at hstem
    exact .inr hstem
  · rw [stem_of_not_shared he, stem_of_not_shared hm] at hstem
    exact absurd hstem hbase

/-- In front of the first of all copies only methods with other identifiers have its stem. -/
theorem exists_stem_iff_of_copies_eq_zero (hm : methods[i]? = some m)
    (h : copies (methods.take i) m = 0) :
    (∃ e ∈ methods.take i, stem methods e = stem methods m) ↔
      ∃ e ∈ methods.take i, derive .method e.name ≠ derive .method m.name ∧
        stem methods e = stem methods m := by
  constructor
  · rintro ⟨e, he, hstem⟩
    refine ⟨e, he, fun hbase ↦ ?_, hstem⟩
    obtain ⟨j, hji, hj⟩ := mem_take_iff.1 he
    have hkey := key_eq_of_shared (shared_of_ne hji.ne hj hm hbase)
      (shared_of_ne hji.ne' hm hj hbase.symm) hstem
    exact List.countP_eq_zero.1 h e he (decide_eq_true ⟨hbase, (key_eq_of_copy hbase).1 hkey⟩)
  · rintro ⟨e, he, -, hstem⟩
    exact ⟨e, he, hstem⟩

/-- **Numbers count copies, and underscores tell other methods apart**, as long as no stranger is in
front of a method: the `n`-th of all copies gets the number `n`, from the second on, and no method
else gets one; the later of two methods with the same stem and different identifiers gets an
underscore. A stranger has for its identifier what another method has with the suffix for the types
of both, and is counted like a copy. -/
theorem methodNames_count_copies (hm : methods[i]? = some m) :
    (strangers methods (methods.take i) m = 0 →
      (methodNames methods)[i]? = some
        (if 0 < copies (methods.take i) m then
          stem methods m ++ "_" ++ toString (copies (methods.take i) m + 1)
        else if ∃ e ∈ methods.take i, derive .method e.name ≠ derive .method m.name ∧
            stem methods e = stem methods m then stem methods m ++ "_"
        else stem methods m)) ∧
    (0 < strangers methods (methods.take i) m →
      (methodNames methods)[i]? = some (stem methods m ++ "_" ++
        toString (copies (methods.take i) m + strangers methods (methods.take i) m + 1)) ∧
      ∃ e ∈ methods.take i, e.parameterTypes = m.parameterTypes ∧
        (derive .method m.name = derive .method e.name ++ overloadSuffix m.parameterTypes ∨
          derive .method e.name = derive .method m.name ++ overloadSuffix m.parameterTypes)) := by
  have hname := getElem?_methodNames hm
  rw [repeats_eq] at hname
  constructor
  · intro hzero
    rw [hname, hzero, Nat.add_zero]
    rcases Nat.eq_zero_or_pos (copies (methods.take i) m) with hfirst | hpos
    · rw [hfirst, if_pos rfl, if_neg (Nat.lt_irrefl 0)]
      exact congrArg some (if_congr (exists_stem_iff_of_copies_eq_zero hm hfirst) rfl rfl)
    · rw [if_neg hpos.ne', if_pos hpos, numbered, if_neg hpos.ne']
  · intro hpos
    obtain ⟨e, he, hstranger⟩ := List.countP_pos_iff.1 hpos
    obtain ⟨hbase, hkey⟩ := of_decide_eq_true hstranger
    refine ⟨?_, e, he, congrArg Prod.snd hkey, append_overloadSuffix_of_stranger hbase hkey⟩
    rw [hname, if_neg (by omega), numbered, if_neg (by omega)]

/-- A copy behind a method that is named like it and has other types, and a stranger in front of
which there is what it is counted with. -/
theorem methodNames_count_copies_mint :
    let mint : Method := ⟨"mint", [⟨"amount", .scalar .integer, 0⟩], .scalar .void, false, none⟩
    let plain : Method := ⟨"mintWithInteger", [], .scalar .void, false, none⟩
    let stranger : Method := { mint with name := "mintWithInteger" }
    let told := [mint, plain, mint]
    let mixed := [mint, mint, stranger]
    (told[1]? = some plain ∧ strangers told (told.take 1) plain = 0 ∧
      (methodNames told)[1]? = some "mintWithInteger_") ∧
    (told[2]? = some mint ∧ strangers told (told.take 2) mint = 0 ∧
      (methodNames told)[2]? = some "mintWithInteger_2") ∧
    (mixed[2]? = some stranger ∧ 0 < strangers mixed (mixed.take 2) stranger ∧
      (methodNames mixed)[2]? = some "mintWithInteger_3") := by
  intro mint plain stranger told mixed
  have hplain : strangers told (told.take 1) plain = 0 := by decide +kernel
  have hmint : strangers told (told.take 2) mint = 0 := by decide +kernel
  have hstranger : 0 < strangers mixed (mixed.take 2) stranger := by decide +kernel
  refine ⟨⟨rfl, hplain, ?_⟩, ⟨rfl, hmint, ?_⟩, rfl, hstranger, ?_⟩
  · exact ((@methodNames_count_copies told 1 plain rfl).1 hplain).trans (by decide +kernel)
  · exact ((@methodNames_count_copies told 2 mint rfl).1 hmint).trans (by decide +kernel)
  · exact ((@methodNames_count_copies mixed 2 stranger rfl).2 hstranger).1.trans (by decide +kernel)

/-- A method without copies is numbered behind a method with another identifier. -/
theorem methodNames_number_stranger :
    let mint : Method := ⟨"mint", [⟨"amount", .scalar .integer, 0⟩], .scalar .void, false, none⟩
    let all : Method := ⟨"mint", [], .scalar .void, false, none⟩
    let stranger : Method := { mint with name := "mintWithInteger" }
    derive .method stranger.name ≠ derive .method mint.name ∧
      copies [mint, all] stranger = 0 ∧
      methodNames [mint, all, stranger] =
        ["mintWithInteger", "mintWithNoArgs", "mintWithInteger_2"] := by
  decide +kernel

end ContractBindings.Identifier
