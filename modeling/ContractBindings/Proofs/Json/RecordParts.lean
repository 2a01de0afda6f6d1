import ContractBindings.Proofs.Json.Records

/-!
# Parts of records

The members of a record are taken in text order, and a fault is found where it stands. Whether there
is a record at all can be said without that order, part by part: for every field the part of the
tree that belongs to it (`fieldValue?`), and what that part means. For a record of one field and for
one of two this is the same (`describe_one`, `describe_two`).

While members are gone through one keeps what has been taken of each field. For one field alone that
is `settle`, and going through members for two fields comes to the same as going through them for
each (`foldlM_takeField_two`). The order in which two fields were met is kept in their list only,
and putting the record together does not look at it.
-/

namespace ContractBindings.Json

variable {α β γ δ : Type}

/-! ### Parts of trees -/

/-- The value under a name that members have at most once. -/
def soleMember? (name : String) (members : List (String × Json)) : Option (Option Json) :=
  match members.filter (·.1 == name) with
  | [] => some none
  | [member] => some (some member.2)
  | _ => none

/-- The part of a record, if it has one. An object has it under its name, which may stand there
once; an array has all parts, in the order of their names. -/
def fieldValue? (names : List String) (name : String) : Json → Option (Option Json)
  | .object members => soleMember? name members
  | .array elements =>
    if elements.length = names.length then some elements[names.idxOf name]? else none
  | _ => none

/-! ### Fields that are taken one by one -/

/-- What becomes of a field when members are gone through, `seen` being what became of it before. -/
def settle (f : Json → Option γ) (name : String) (seen : Option γ)
    (members : List (String × Json)) : Option (Option γ) :=
  match members.filter (·.1 == name) with
  | [] => some seen
  | [member] => if seen.isSome then none else some <$> f member.2
  | _ => none

section Settle

variable {f : Json → Option γ} {name : String} {seen : Option γ} {member : String × Json}
  {members : List (String × Json)}

theorem settle_none (f : Json → Option γ) (name : String) (members : List (String × Json)) :
    settle f name none members = soleMember? name members >>= fun value ↦ value.mapM f := by
  unfold settle soleMember?
  generalize members.filter (·.1 == name) = known
  rcases known with _ | ⟨member, _ | ⟨next, others⟩⟩
  · rfl
  · rfl
  · rfl

theorem settle_cons_of_ne (h : member.1 ≠ name) :
    settle f name seen (member :: members) = settle f name seen members := by
  unfold settle
  rw [List.filter_cons_of_neg (by simpa using h)]

theorem settle_some_cons (h : member.1 = name) (value : γ) :
    settle f name (some value) (member :: members) = none := by
  unfold settle
  rw [List.filter_cons_of_pos (by simpa using h)]
  generalize members.filter (·.1 == name) = others
  rcases others with _ | ⟨next, others⟩
  · rfl
  · rfl

theorem settle_none_cons (h : member.1 = name) :
    settle f name none (member :: members) =
      f member.2 >>= fun value ↦ settle f name (some value) members := by
  unfold settle
  rw [List.filter_cons_of_pos (by simpa using h)]
  generalize members.filter (·.1 == name) = others
  rcases others with _ | ⟨next, _ | ⟨last, others⟩⟩
  · show some <$> f member.2 = f member.2 >>= fun value ↦ some (some value)
    cases f member.2 <;> rfl
  · cases f member.2 <;> rfl
  · cases f member.2 <;> rfl

end Settle

/-! ### Records of one and of two fields -/

section TakeField

variable {meanings : Meanings α} {meaning : Json → Option α} {seen : List (String × α)}
  {member : String × Json}

theorem takeField_seen (hseen : seen.any (·.1 == member.1) = true) :
    takeField meanings seen member = none :=
  if_pos hseen

theorem takeField_known (hseen : seen.any (·.1 == member.1) = false)
    (hlookup : meanings.lookup member.1 = some meaning) :
    takeField meanings seen member =
      meaning member.2 >>= fun value ↦ some (seen ++ [(member.1, value)]) := by
  rw [takeField, if_neg (by rw [hseen]; exact Bool.false_ne_true), hlookup]
  rfl

theorem takeField_unknown (hseen : seen.any (·.1 == member.1) = false)
    (hlookup : meanings.lookup member.1 = none) : takeField meanings seen member = some seen := by
  rw [takeField, if_neg (by rw [hseen]; exact Bool.false_ne_true), hlookup]

end TakeField

section OneField

variable {name : String} {f : Json → Option α}

theorem foldlM_takeField_one (f : Json → Option α) (seen : Option α)
    (members : List (String × Json)) :
    members.foldlM (takeField [(name, f)]) (seen.toList.map (name, ·)) =
      settle f name seen members >>= fun value ↦ some (value.toList.map (name, ·)) := by
  induction members generalizing seen with
  | nil => rfl
  | cons member members ih =>
    rw [List.foldlM_cons]
    by_cases hname : member.1 = name
    · cases seen with
      | some value =>
        rw [settle_some_cons hname, takeField_seen (by simp [hname])]
        rfl
      | none =>
        have hlookup : [(name, f)].lookup member.1 = some f := by simp [hname]
        rw [settle_none_cons hname, takeField_known rfl hlookup, bind_assoc, bind_assoc, hname]
        exact bind_congr fun value ↦ ih (some value)
    · have hseen : (seen.toList.map (name, ·)).any (·.1 == member.1) = false := by
        cases seen <;> simp [Ne.symm hname]
      rw [settle_cons_of_ne hname, takeField_unknown hseen (by simp [hname])]
      exact ih seen

/-- A record of one field. -/
theorem describe_one (f : Json → Option α) (shape : RecordShape α β) (tree : Json) :
    shape.describe [(name, f)] tree =
      fieldValue? [name] name tree >>= fun part ↦ part.mapM f >>= fun value ↦
        (shape.assemble (value.toList.map (name, ·))).toOption := by
  cases tree with
  | object members =>
    have hfields : members.foldlM (takeField [(name, f)]) [] = _ :=
      foldlM_takeField_one f none members
    show members.foldlM (takeField [(name, f)]) [] >>= _ = soleMember? name members >>= _
    rw [hfields, settle_none, bind_assoc, bind_assoc]
    exact bind_congr fun part ↦ bind_congr fun value ↦ rfl
  | array elements =>
    rcases elements with _ | ⟨element, _ | ⟨next, others⟩⟩
    · simp [RecordShape.describe, fieldValue?, fieldsInOrder]
    · have hpart : fieldValue? [name] name (.array [element]) = some (some element) := by
        simp [fieldValue?]
      rw [hpart, RecordShape.describe]
      cases hvalue : f element <;> simp [fieldsInOrder, hvalue]
    · simp [RecordShape.describe, fieldValue?, fieldsInOrder]
  | _ => rfl

end OneField

section TwoFields

variable {name other : String} {f : Json → Option γ} {g : Json → Option δ} {inl : γ → α}
  {inr : δ → α} {x : Option γ} {y : Option δ}

/-- What has been taken of two fields, in declared order. -/
def takenOf (name other : String) (inl : γ → α) (inr : δ → α) (x : Option γ) (y : Option δ) :
    List (String × α) :=
  x.toList.map (fun x ↦ (name, inl x)) ++ y.toList.map fun y ↦ (other, inr y)

/-- Two fields have been taken, in the order in which their members stood. -/
def Taken (name other : String) (inl : γ → α) (inr : δ → α) (x : Option γ) (y : Option δ)
    (seen : List (String × α)) : Prop :=
  seen = takenOf name other inl inr x y ∨ seen = takenOf other name inr inl y x

section Taken

variable {seen : List (String × α)}

theorem any_takenOf (found : String) :
    (takenOf name other inl inr x y).any (·.1 == found) =
      (x.isSome && name == found || y.isSome && other == found) := by
  cases x <;> cases y <;> simp [takenOf]

theorem Taken.any_eq (h : Taken name other inl inr x y seen) (found : String) :
    seen.any (·.1 == found) = (x.isSome && name == found || y.isSome && other == found) := by
  rcases h with rfl | rfl
  · exact any_takenOf found
  · exact (any_takenOf found).trans (Bool.or_comm _ _)

theorem Taken.left (h : Taken name other inl inr none y seen) (value : γ) :
    Taken name other inl inr (some value) y (seen ++ [(name, inl value)]) := by
  have hseen : seen = takenOf other name inr inl y none := by
    rcases h with rfl | rfl
    · exact (List.append_nil _).symm
    · rfl
  exact .inr (by rw [hseen]; simp [takenOf])

theorem Taken.right (h : Taken name other inl inr x none seen) (value : δ) :
    Taken name other inl inr x (some value) (seen ++ [(other, inr value)]) :=
  (Taken.left h.symm value).symm

/-- A member is taken as the first of the fields, as the second or as none. -/
theorem Taken.takeField_eq (h : Taken name other inl inr x y seen) (hne : name ≠ other)
    (f : Json → Option γ) (g : Json → Option δ) (member : String × Json) :
    takeField [(name, fun v ↦ inl <$> f v), (other, fun v ↦ inr <$> g v)] seen member =
      if member.1 = name then
        if x.isSome then none
        else f member.2 >>= fun value ↦ some (seen ++ [(name, inl value)])
      else if member.1 = other then
        if y.isSome then none
        else g member.2 >>= fun value ↦ some (seen ++ [(other, inr value)])
      else some seen := by
  have hany := h.any_eq member.1
  by_cases hname : member.1 = name
  · have hother : member.1 ≠ other := hname ▸ hne
    rw [if_pos hname]
    cases x with
    | some x => exact takeField_seen (hany.trans (by simp [hname]))
    | none =>
      have hlookup : [(name, fun v ↦ inl <$> f v), (other, fun v ↦ inr <$> g v)].lookup
          member.1 = some fun v ↦ inl <$> f v := by simp [hname]
      rw [takeField_known (hany.trans (by simp [Ne.symm hother])) hlookup, hname]
      cases f member.2 <;> rfl
  · rw [if_neg hname]
    by_cases hother : member.1 = other
    · rw [if_pos hother]
      cases y with
      | some y => exact takeField_seen (hany.trans (by simp [hother]))
      | none =>
        have hlookup : [(name, fun v ↦ inl <$> f v), (other, fun v ↦ inr <$> g v)].lookup
            member.1 = some fun v ↦ inr <$> g v := by
          rw [hother, List.lookup_cons, beq_eq_false_iff_ne.2 hne.symm]
          exact List.lookup_cons_self
        rw [takeField_known (hany.trans (by simp [Ne.symm hname])) hlookup, hother]
        cases g member.2 <;> rfl
    · rw [if_neg hother]
      exact takeField_unknown (hany.trans (by simp [Ne.symm hname, Ne.symm hother]))
        (by simp [hname, hother])

end Taken

/-- The two fields are taken one by one, in the order in which their members stand. That order is
not seen in what is made of them. -/
theorem foldlM_takeField_two (hne : name ≠ other) (f : Json → Option γ) (g : Json → Option δ)
    {k : List (String × α) → Option β}
    (hk : ∀ x y, k (takenOf other name inr inl y x) = k (takenOf name other inl inr x y))
    {seen : List (String × α)} (hseen : Taken name other inl inr x y seen)
    (members : List (String × Json)) :
    members.foldlM (takeField [(name, fun v ↦ inl <$> f v), (other, fun v ↦ inr <$> g v)])
        seen >>= k =
      settle f name x members >>= fun x ↦ settle g other y members >>= fun y ↦
        k (takenOf name other inl inr x y) := by
  induction members generalizing x y seen with
  | nil =>
    show k seen = k (takenOf name other inl inr x y)
    rcases hseen with rfl | rfl
    · rfl
    · exact hk x y
  | cons member members ih =>
    rw [List.foldlM_cons, bind_assoc, hseen.takeField_eq hne]
    by_cases hname : member.1 = name
    · have hother : member.1 ≠ other := hname ▸ hne
      rw [if_pos hname, settle_cons_of_ne hother]
      cases x with
      | some x =>
        rw [settle_some_cons hname]
        rfl
      | none =>
        rw [settle_none_cons hname]
        cases f member.2 with
        | none => rfl
        | some value => exact ih (hseen.left value)
    · rw [if_neg hname, settle_cons_of_ne hname]
      by_cases hother : member.1 = other
      · rw [if_pos hother]
        cases y with
        | some y =>
          simp only [settle_some_cons hother]
          cases settle f name x members <;> rfl
        | none =>
          simp only [settle_none_cons hother]
          cases g member.2 with
          | none => cases settle f name x members <;> rfl
          | some value => exact ih (hseen.right value)
      · simp only [if_neg hother, settle_cons_of_ne hother]
        exact ih hseen

/-- A record of two fields. -/
theorem describe_two (hne : name ≠ other) (f : Json → Option γ) (g : Json → Option δ)
    (inl : γ → α) (inr : δ → α) (shape : RecordShape α β)
    (hswap : ∀ x y, shape.assemble [(other, inr y), (name, inl x)] =
      shape.assemble [(name, inl x), (other, inr y)]) (tree : Json) :
    shape.describe [(name, fun v ↦ inl <$> f v), (other, fun v ↦ inr <$> g v)] tree =
      fieldValue? [name, other] name tree >>= fun part ↦
        fieldValue? [name, other] other tree >>= fun part' ↦
          part.mapM f >>= fun x ↦ part'.mapM g >>= fun y ↦
            (shape.assemble (takenOf name other inl inr x y)).toOption := by
  cases tree with
  | object members =>
    have hk : ∀ x y, (shape.assemble (takenOf other name inr inl y x)).toOption =
        (shape.assemble (takenOf name other inl inr x y)).toOption := by
      intro x y
      cases x with
      | none => simp [takenOf]
      | some x =>
        cases y with
        | none => rfl
        | some y => exact congrArg Except.toOption (hswap x y)
    have hfields := foldlM_takeField_two (k := fun fields ↦ (shape.assemble fields).toOption) hne f
      g hk (x := none) (y := none) (.inl rfl) members
    show members.foldlM (takeField _) [] >>= _ = soleMember? name members >>= fun part ↦
      soleMember? other members >>= _
    refine hfields.trans ?_
    rw [settle_none, settle_none]
    cases soleMember? name members with
    | none => rfl
    | some part =>
      cases soleMember? other members with
      | none =>
        show (part.mapM f >>= fun _ ↦ none) = none
        cases part.mapM f <;> rfl
      | some part' => rfl
  | array elements =>
    rcases elements with _ | ⟨element, _ | ⟨next, _ | ⟨last, others⟩⟩⟩
    · simp [RecordShape.describe, fieldValue?, fieldsInOrder]
    · cases hvalue : f element <;> simp [RecordShape.describe, fieldValue?, fieldsInOrder, hvalue]
    · have hpart : fieldValue? [name, other] name (.array [element, next]) =
          some (some element) := by simp [fieldValue?]
      have hpart' : fieldValue? [name, other] other (.array [element, next]) =
          some (some next) := by simp [fieldValue?, hne]
      rw [hpart, hpart', RecordShape.describe]
      cases hvalue : f element <;> cases hvalue' : g next <;>
        simp [fieldsInOrder, hvalue, hvalue', takenOf]
    · cases hvalue : f element <;> cases hvalue' : g next <;>
        simp [RecordShape.describe, fieldValue?, fieldsInOrder, hvalue, hvalue']
  | _ => rfl

end TwoFields

end ContractBindings.Json
