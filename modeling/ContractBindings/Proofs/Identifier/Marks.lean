import ContractBindings.Proofs.Identifier.Casing
import ContractBindings.Proofs.Identifier.Overloads

/-!
# Identifiers without numbers

Where an identifier has an underscore, it stands first or last (`eq_nil_of_toList_derive`), and an
overload suffix has none. So a number behind an underscore, behind something else, is never part of
an identifier or of its suffix: it was put there to tell names apart, and it can be read off
(`numbered_inj`). In the same way an underscore at the end of an identifier stands behind a reserved
name (`unmarked_derive`), and none that is put behind an identifier makes another one
(`underscored_inj`).
-/

namespace ContractBindings.Identifier

open Text (Over)

variable {kind : Kind} {raw name : String} {before after : List Char}

theorem underscore_not_mem_core (kind : Kind) (raw : String) : '_' ∉ core kind raw :=
  fun hmem ↦ absurd (isAlphanum_core kind raw '_' hmem) (by decide)

theorem underscore_not_mem_overloadSuffix (types : List AbiType) :
    '_' ∉ (overloadSuffix types).toList :=
  (over_overloadSuffix types).not_mem (by decide)

/-! ### Numbers -/

theorem toList_toString_ne_nil (n : Nat) : (toString n).toList ≠ [] := by
  rw [Nat.toString_eq_ofList_toDigits, String.toList_ofList]
  exact Nat.toDigits_ne_nil

/-- A name that is not another one with a number behind it. -/
structure Unnumbered (name : String) : Prop where
  ne_empty : name ≠ ""
  ne_numbered : ∀ other k, other ≠ "" → name ≠ numbered other (k + 1)

theorem toList_numbered_succ (name : String) (k : Nat) :
    (numbered name (k + 1)).toList = name.toList ++ '_' :: (toString (k + 2)).toList := by
  rw [numbered_succ, String.toList_append, String.toList_append, List.append_assoc]
  rfl

/-- **A number can be read off** if it stands behind a name without one. -/
theorem numbered_inj {other : String} (hname : Unnumbered name) (hother : Unnumbered other)
    {j k : Nat} (h : numbered name j = numbered other k) : name = other ∧ j = k := by
  have hdigits (n : Nat) : '_' ∉ (toString n).toList :=
    (over_isDigit_toString n).not_mem (by decide)
  cases j with
  | zero =>
    cases k with
    | zero => exact ⟨h, rfl⟩
    | succ k => exact absurd h (hname.ne_numbered other k hother.ne_empty)
  | succ j =>
    cases k with
    | zero => exact absurd h.symm (hother.ne_numbered name j hname.ne_empty)
    | succ k =>
      have hlist := congrArg String.toList h
      rw [toList_numbered_succ, toList_numbered_succ] at hlist
      obtain ⟨hfront, hnumber⟩ := append_cons_inj_of_not_mem (hdigits _) (hdigits _) hlist
      have hk := toString_nat_injective (String.toList_injective hnumber)
      exact ⟨String.toList_injective hfront, by omega⟩

/-- An underscore stands at an end of an identifier. -/
theorem eq_nil_of_toList_derive (h : (derive kind raw).toList = before ++ '_' :: after) :
    before = [] ∨ after = [] := by
  have hcore : '_' ∉ core kind raw := underscore_not_mem_core kind raw
  rcases toList_derive kind raw with heq | heq | ⟨heq, -⟩ <;> rw [heq] at h
  · rw [h] at hcore
    exact absurd (List.mem_append_right before List.mem_cons_self) hcore
  · cases before with
    | nil => exact .inl rfl
    | cons c before =>
      rw [(List.cons.inj h).2] at hcore
      exact absurd (List.mem_append_right before List.mem_cons_self) hcore
  · rcases List.eq_nil_or_concat after with hnil | ⟨middle, last, rfl⟩
    · exact .inr hnil
    · rw [List.concat_eq_append, ← List.cons_append, ← List.append_assoc] at h
      rw [(List.append_inj' h rfl).1] at hcore
      exact absurd (List.mem_append_right before List.mem_cons_self) hcore

theorem unnumbered_derive (kind : Kind) (raw : String) : Unnumbered (derive kind raw) where
  ne_empty h := by
    have hlegal := (usable_derive kind raw).legal
    rw [h] at hlegal
    exact absurd hlegal (by decide)
  ne_numbered other k hother h := by
    have hlist := congrArg String.toList h
    rw [toList_numbered_succ] at hlist
    rcases eq_nil_of_toList_derive hlist with hnil | hnil
    · exact hother (String.toList_injective hnil)
    · exact toList_toString_ne_nil _ hnil

/-- A number does not end in an overload suffix. -/
theorem unnumbered_append_overloadSuffix (base : String) (types : List AbiType) :
    Unnumbered (base ++ overloadSuffix types) where
  ne_empty h := by
    have hmem := List.mem_append_right base.toList (mem_overloadSuffix types)
    rw [← String.toList_append, h] at hmem
    exact List.not_mem_nil hmem
  ne_numbered other k hother h := by
    have hlist := congrArg String.toList h
    rw [toList_numbered_succ, String.toList_append] at hlist
    have hdigit : 'W' ∉ '_' :: (toString (k + 2)).toList := by
      rw [List.mem_cons, not_or]
      exact ⟨by decide, (over_isDigit_toString _).not_mem (by decide)⟩
    rcases List.append_eq_append_iff.1 hlist with ⟨middle, -, hsuffix⟩ | ⟨middle, -, hnumber⟩
    · refine underscore_not_mem_overloadSuffix types ?_
      rw [hsuffix]
      exact List.mem_append_right middle List.mem_cons_self
    · rw [hnumber] at hdigit
      exact hdigit (List.mem_append_right middle (mem_overloadSuffix types))

/-! ### Underscores at the end -/

/-- A name that has an underscore at its end only behind a name that is reserved. -/
def Unmarked (kind : Kind) (name : String) : Prop :=
  ∀ front : List Char, name.toList = front ++ ['_'] →
    isReserved kind (String.ofList front) = true

theorem unmarked_derive (kind : Kind) (raw : String) : Unmarked kind (derive kind raw) := by
  intro front h
  have hcore : '_' ∉ core kind raw := underscore_not_mem_core kind raw
  rcases toList_derive kind raw with heq | heq | ⟨heq, hreserved⟩ <;> rw [heq] at h
  · rw [h] at hcore
    exact absurd (List.mem_append_right front List.mem_cons_self) hcore
  · cases front with
    | nil => exact absurd (List.cons.inj h).2 (core_ne_nil kind raw)
    | cons c front =>
      rw [(List.cons.inj h).2] at hcore
      exact absurd (List.mem_append_right front List.mem_cons_self) hcore
  · rwa [(List.append_inj' h rfl).1] at hreserved

/-- Behind a text without underscores there is none. -/
theorem unmarked_append {tail : String} (hne : tail.toList ≠ []) (htail : '_' ∉ tail.toList) :
    Unmarked kind (name ++ tail) := by
  intro front h
  rw [String.toList_append] at h
  have hlast := congrArg List.getLast? h
  rw [List.getLast?_append_of_ne_nil _ hne, List.getLast?_concat] at hlast
  exact absurd (List.mem_of_getLast? hlast) htail

theorem unmarked_numbered (h : Unmarked kind name) (k : Nat) : Unmarked kind (numbered name k) := by
  cases k with
  | zero => exact h
  | succ k =>
    exact unmarked_append (toList_toString_ne_nil _) ((over_isDigit_toString _).not_mem (by decide))

theorem underscored_zero (name : String) : underscored name 0 = name :=
  String.append_empty

theorem toList_underscored (name : String) (k : Nat) :
    (underscored name k).toList = name.toList ++ List.replicate k '_' := by
  rw [underscored, String.toList_append, String.toList_ofList]

theorem append_underscore_ne (name : String) : name ++ "_" ≠ name := fun h ↦
  absurd (@underscored_injective name 1 0 (h.trans (underscored_zero name).symm)) Nat.one_ne_zero

/-- No name becomes another one by underscores. -/
theorem Unmarked.ne_underscored {other : String} (h : Unmarked kind name)
    (hother : Usable kind other) (k : Nat) : name ≠ underscored other (k + 1) := by
  intro heq
  have hlist : name.toList = (underscored other k).toList ++ ['_'] := by
    rw [heq, toList_underscored, toList_underscored, List.replicate_succ', List.append_assoc]
  have hreserved := h _ hlist
  rw [String.ofList_toList, (usable_underscored hother k).free] at hreserved
  cases hreserved

/-- As many underscores can be taken off two names. -/
theorem eq_underscored_of_le {other : String} {j k : Nat} (hle : j ≤ k)
    (h : underscored name j = underscored other k) : name = underscored other (k - j) := by
  have hlist := congrArg String.toList h
  rw [toList_underscored, toList_underscored, ← Nat.sub_add_cancel hle,
    ← List.replicate_append_replicate, ← List.append_assoc] at hlist
  rw [← String.toList_inj, toList_underscored]
  exact List.append_cancel_right hlist

/-- **Underscores can be counted** behind names that may be given. -/
theorem underscored_inj {other : String} (hname : Usable kind name) (hother : Usable kind other)
    (hname' : Unmarked kind name) (hother' : Unmarked kind other) {j k : Nat}
    (h : underscored name j = underscored other k) : name = other ∧ j = k := by
  wlog hle : j ≤ k generalizing name other j k
  · obtain ⟨heq, hjk⟩ := this hother hname hother' hname' h.symm (by omega)
    exact ⟨heq.symm, hjk.symm⟩
  have heq := eq_underscored_of_le hle h
  cases hrest : k - j with
  | zero =>
    rw [hrest, underscored_zero] at heq
    exact ⟨heq, by omega⟩
  | succ rest =>
    rw [hrest] at heq
    exact absurd heq (hname'.ne_underscored hother rest)

end ContractBindings.Identifier
