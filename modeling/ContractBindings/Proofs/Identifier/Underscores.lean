import ContractBindings.Proofs.Identifier.Stems

/-!
# Underscores behind names

How far the last stage has to go to tell methods apart. Behind the second stage a name occurs twice
at most, so the search for a free name is over after one underscore, and it needs that one only
where the name occurred before (`getElem?_methodNames_eq_append_iff`).

The names that occur twice are those of two methods which have nothing in common but the spelling:
one has an identifier of its own, and the other shares its identifier and spells the first one's
with the suffix for its types (`Clash.meets`). What stands in front keeps the name, so of the two it
is the later that gets the underscore. An identifier that no other method has is therefore given as
it is, unless an overload in front of it spells it (`getElem?_methodNames_eq_ident_iff`).
-/

namespace ContractBindings.Identifier

variable {methods : List Method} {i j : Nat} {m e : Method} {name : String}

/-! ### Methods that are spelled alike -/

/-- A method whose identifier no other has, and an overload that spells this identifier with the
suffix for its types. -/
structure Meets (methods : List Method) (lone overload : Method) : Prop where
  unique : (methodBases methods).count (derive .method lone.name) = 1
  overloaded : 1 < (methodBases methods).count (derive .method overload.name)
  ident_eq : derive .method lone.name =
    derive .method overload.name ++ overloadSuffix overload.parameterTypes

theorem not_shared_of_count_eq_one (h : (methodBases methods).count (derive .method m.name) = 1) :
    ¬ Shared methods m := by
  rw [Shared, h]
  exact Nat.lt_irrefl 1

theorem Meets.stem_eq (h : Meets methods m e) : stem methods e = stem methods m := by
  rw [stem_of_shared h.overloaded, stem_of_not_shared (not_shared_of_count_eq_one h.unique),
    h.ident_eq]

theorem meets_of_stem_eq (hm : m ∈ methods) (hlone : ¬ Shared methods m) (he : Shared methods e)
    (h : stem methods e = stem methods m) : Meets methods m e where
  unique := (count_methodBases_eq_one_iff hm).2 hlone
  overloaded := he
  ident_eq := by rw [← stem_of_not_shared hlone, ← stem_of_shared he, h]

/-- Names that occur twice are those of a method with an identifier of its own and of an
overload. -/
theorem Clash.meets (h : Clash methods j i e m) : Meets methods e m ∨ Meets methods m e := by
  by_cases hm : Shared methods m
  · have he : ¬ Shared methods e := fun he ↦ h.shared_iff.1 he hm
    exact .inl (meets_of_stem_eq (List.mem_of_getElem? h.earlier) he hm h.stem_eq.symm)
  · exact .inr (meets_of_stem_eq (List.mem_of_getElem? h.later) hm (h.shared_iff.2 hm) h.stem_eq)

/-! ### The last stage -/

theorem getElem?_methodNames_eq_append_iff (h : (numberedStems methods)[i]? = some name) :
    (methodNames methods)[i]? = some (name ++ "_") ↔ name ∈ (numberedStems methods).take i := by
  refine ⟨fun heq ↦ ?_, getElem?_methodNames_of_mem h⟩
  by_contra hnew
  rw [getElem?_methodNames_of_not_mem h hnew] at heq
  exact append_underscore_ne name (Option.some.inj heq).symm

/-- The earlier of two methods with the same name keeps it: behind the later it would be a third
one. -/
theorem getElem?_methodNames_of_lt (hji : j < i) (hj : (numberedStems methods)[j]? = some name)
    (hi : (numberedStems methods)[i]? = some name) : (methodNames methods)[j]? = some name := by
  refine getElem?_methodNames_of_not_mem hj (List.count_eq_zero.1 ?_)
  have hlt := count_take_lt hji hj
  have hle := count_numberedStems_le_one hi
  omega

theorem Clash.getElem?_numberedStems_eq (h : Clash methods j i e m) :
    (numberedStems methods)[j]? = (numberedStems methods)[i]? := by
  rw [getElem?_numberedStems h.earlier, getElem?_numberedStems h.later, h.stem_eq, h.repeats_eq]

/-- A name gets an underscore exactly where a method in front has the name and is spelled alike. -/
theorem mem_take_numberedStems_iff (hm : methods[i]? = some m)
    (hi : (numberedStems methods)[i]? = some name) :
    name ∈ (numberedStems methods).take i ↔
      ∃ j < i, ∃ e, methods[j]? = some e ∧ (methodNames methods)[j]? = some name ∧
        (Meets methods e m ∨ Meets methods m e) := by
  constructor
  · intro hmem
    rw [getElem?_numberedStems hm] at hi
    obtain rfl := Option.some.inj hi
    obtain ⟨j, e, hclash⟩ := exists_clash_of_mem hm hmem
    have hi := getElem?_numberedStems hm
    exact ⟨j, hclash.lt, e, hclash.earlier, getElem?_methodNames_of_lt hclash.lt
      (hclash.getElem?_numberedStems_eq.trans hi) hi, hclash.meets⟩
  · rintro ⟨j, hji, e, -, hj, -⟩
    -- A name that is new would be given twice.
    by_contra hnew
    exact not_mem_take_of_nodup (nodup_methodNames methods)
      (getElem?_methodNames_of_not_mem hi hnew) (mem_take_iff.2 ⟨j, hji, hj⟩)

/-- **An identifier that no other method has is given as it is**, unless an overload in front of the
method spells it. -/
theorem getElem?_methodNames_eq_ident_iff (hm : methods[i]? = some m) (hlone : ¬ Shared methods m) :
    (methodNames methods)[i]? = some (derive .method m.name) ↔
      ∀ e ∈ methods.take i, ¬ Meets methods m e := by
  rw [← stem_of_not_shared hlone, getElem?_methodNames_eq_stem_iff hm]
  refine forall₂_congr fun e he ↦ not_congr ⟨fun hstem ↦ ?_, Meets.stem_eq⟩
  obtain ⟨j, hji, hj⟩ := mem_take_iff.1 he
  have hshared := (shared_or_shared hji.ne' hm hj hstem).resolve_right hlone
  exact meets_of_stem_eq (List.mem_of_getElem? hm) hlone hshared hstem

/-- **One underscore is enough.** The last stage puts at most one underscore behind a name, and it
does so exactly where a method in front is given that name, of which two methods one has an
identifier of its own and the other is an overload that spells it with its suffix. A method with an
identifier of its own keeps it exactly if no overload in front of it spells it. -/
theorem methodNames_underscored_once (hm : methods[i]? = some m)
    (hname : (numberedStems methods)[i]? = some name) :
    methodNames methods = distinct underscored [] (numberedStems methods) ∧
    ((methodNames methods)[i]? = some name ∨ (methodNames methods)[i]? = some (name ++ "_")) ∧
    ((methodNames methods)[i]? = some (name ++ "_") ↔
      ∃ j < i, ∃ e, methods[j]? = some e ∧ (methodNames methods)[j]? = some name ∧
        (Meets methods e m ∨ Meets methods m e)) ∧
    ((methodBases methods).count (derive .method m.name) = 1 →
      ((methodNames methods)[i]? = some (derive .method m.name) ↔
        ∀ e ∈ methods.take i, ¬ Meets methods m e)) := by
  refine ⟨methodNames_eq methods, ?_, ?_, fun hunique ↦ ?_⟩
  · by_cases hmem : name ∈ (numberedStems methods).take i
    · exact .inr (getElem?_methodNames_of_mem hname hmem)
    · exact .inl (getElem?_methodNames_of_not_mem hname hmem)
  · rw [getElem?_methodNames_eq_append_iff hname, mem_take_numberedStems_iff hm hname]
  · exact getElem?_methodNames_eq_ident_iff hm (not_shared_of_count_eq_one hunique)

/-- The same two methods in both orders, with a copy of the overload. -/
theorem methodNames_underscored_once_mint :
    let mint : Method := ⟨"mint", [⟨"amount", .scalar .integer, 0⟩], .scalar .void, false, none⟩
    let plain : Method := ⟨"mintWithInteger", [], .scalar .void, false, none⟩
    let late := [mint, mint, plain]
    let early := [plain, mint, mint]
    (late[2]? = some plain ∧ (numberedStems late)[2]? = some "mintWithInteger" ∧
      (methodNames late)[2]? = some ("mintWithInteger" ++ "_") ∧
      ∃ j < 2, ∃ e, late[j]? = some e ∧ (methodNames late)[j]? = some "mintWithInteger" ∧
        (Meets late e plain ∨ Meets late plain e)) ∧
    (early[0]? = some plain ∧ (numberedStems early)[0]? = some "mintWithInteger" ∧
      (methodBases early).count (derive .method plain.name) = 1 ∧
      (methodNames early)[0]? = some (derive .method plain.name)) ∧
    (early[1]? = some mint ∧ (numberedStems early)[1]? = some "mintWithInteger" ∧
      (methodNames early)[1]? = some ("mintWithInteger" ++ "_")) := by
  intro mint plain late early
  have hlate : (numberedStems late)[2]? = some "mintWithInteger" := by decide +kernel
  have hlast : (methodNames late)[2]? = some ("mintWithInteger" ++ "_") := by decide +kernel
  have hfirst : (numberedStems early)[0]? = some "mintWithInteger" := by decide +kernel
  have hunique : (methodBases early).count (derive .method plain.name) = 1 := by decide +kernel
  have hsecond : (numberedStems early)[1]? = some "mintWithInteger" := by decide +kernel
  have hmeets : Meets early plain mint := ⟨hunique, by decide +kernel, by decide +kernel⟩
  obtain ⟨-, -, hiff, -⟩ := @methodNames_underscored_once late 2 plain _ rfl hlate
  obtain ⟨-, -, -, hkept⟩ := @methodNames_underscored_once early 0 plain _ rfl hfirst
  obtain ⟨-, -, hnext, -⟩ := @methodNames_underscored_once early 1 mint _ rfl hsecond
  have hplain := (hkept hunique).2 (by simp)
  exact ⟨⟨rfl, hlate, hlast, hiff.1 hlast⟩, ⟨rfl, hfirst, hunique, hplain⟩, rfl, hsecond,
    hnext.2 ⟨0, Nat.zero_lt_one, plain, rfl, by decide +kernel, .inl hmeets⟩⟩

end ContractBindings.Identifier
