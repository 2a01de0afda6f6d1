import ContractBindings.Proofs.Json.RecordFields
import ContractBindings.Proofs.Json.Skipped

/-!
# Records and their trees

A record is read from a text without building a value. What it comes to is nevertheless determined
by the tree of the text: a reader of fields *means* a function of trees (`FieldReader.Means`) if on
every text that has a tree it comes to what the function gives, or to some fault if it gives
nothing. If the readers of the fields of a record have meanings, so has the reader of the record
(`FieldsMean.read`), and of a whole text nothing but its tree counts (`parseRecord_eq_ok_iff`).

The members of an object are met one after the other, so their meaning is a fold (`takeField`) and
that of members that are passed over is nothing: what is passed over in a text with a tree is
exactly one value (`skips_value`). An array is read together with its end
(`RecordShape.readArrayFields`), because only there it shows whether it has too many elements.
-/

namespace ContractBindings.Json

variable {α β : Type} {s t rest : List Char} {levels : Nat} {c : Char}

/-! ### Readers and meanings -/

/-- A reader comes to what is expected of it: a value, behind which it stops, or any fault. -/
def Agrees (x : RecordReading (Read α s)) : (expected : Option α) → (rest : List Char) → Prop
  | some a, rest => ∃ r, x = .ok r ∧ r.value = a ∧ r.rest = rest
  | none, _ => ∃ stop, x = .error stop

/-- What a reader of a field makes of a text is what `meaning` says of the tree that the text
writes. -/
def FieldReader.Means (levels : Nat) (field : FieldReader α) (meaning : Json → Option α) : Prop :=
  ∀ s tree rest, ReadsTo (readTree levels s) tree rest → Agrees (field s) (meaning tree) rest

theorem plainly_ok (a : α) : plainly (.ok a) = .ok a :=
  rfl

theorem agrees_plainly {x : Reading (Read α s)} {a : α} (h : ReadsTo x a rest) :
    Agrees (plainly x) (some a) rest := by
  obtain ⟨r, rfl, hvalue, hrest⟩ := h
  exact ⟨r, rfl, hvalue, hrest⟩

theorem Agrees.bind {u : List Char} {x : RecordReading (Read α s)} {expected : Option α}
    {f : Read α s → RecordReading (Read β t)} {g : α → Option β} (hx : Agrees x expected u)
    (hf : ∀ r, expected = some r.value → r.rest = u → Agrees (f r) (g r.value) rest) :
    Agrees (x >>= f) (expected >>= g) rest := by
  cases expected with
  | some a =>
    obtain ⟨r, rfl, rfl, hrest⟩ := hx
    exact hf r rfl hrest
  | none =>
    obtain ⟨stop, rfl⟩ := hx
    exact ⟨stop, rfl⟩

theorem FieldReader.Means.map {field : FieldReader α} {meaning : Json → Option α}
    (h : field.Means levels meaning) (f : α → β) :
    FieldReader.Means levels (fun s ↦ return (← field s).map f) fun tree ↦ f <$> meaning tree := by
  intro s tree rest htree
  show Agrees _ (f <$> meaning tree) rest
  rw [← bind_pure_comp]
  exact (h s tree rest htree).bind fun r _ hrest ↦ ⟨_, rfl, rfl, hrest⟩

theorem agrees_refuseValue (wanted : String) (s rest : List Char) :
    Agrees (refuseValue wanted s : RecordReading (Read α s)) none rest :=
  exists_stop_of_refuseValue wanted s

/-! ### Strings -/

/-- The text of a string. -/
def string? : Json → Option String
  | .string value => some value
  | _ => none

theorem agrees_string {value : String} (hquote : skipBlanks s = '"' :: t)
    (h : ReadsTo (readString t) value rest) : Agrees (FieldReader.string s) (some value) rest := by
  obtain ⟨r, hr, rfl, rfl⟩ := h
  rw [FieldReader.string]
  split
  case h_1 h =>
    rw [hquote] at h
    cases h
    rw [hr]
    exact ⟨_, rfl, rfl, rfl⟩
  case h_2 hne => exact absurd hquote (hne t)

theorem agrees_string_none (hfirst : skipBlanks s = c :: t) (hc : c ≠ '"') (rest : List Char) :
    Agrees (FieldReader.string s) none rest := by
  rw [FieldReader.string]
  split
  case h_1 h =>
    rw [hfirst] at h
    exact absurd (List.cons.inj h).1 hc
  case h_2 => exact agrees_refuseValue _ _ _

theorem means_string : FieldReader.string.Means levels string? := by
  intro s tree rest h
  cases readsTo_with_iff.1 h with
  | scalar hfirst harray hobject h =>
    cases scalar_of_readsTo h with
    | string h => exact agrees_string hfirst h
    | null => exact agrees_string_none hfirst (by decide) rest
    | true => exact agrees_string_none hfirst (by decide) rest
    | false => exact agrees_string_none hfirst (by decide) rest
    | number hc => exact agrees_string_none hfirst (hc.ne (by decide) rfl) rest
  | array hfirst => exact agrees_string_none hfirst (by decide) rest
  | object hfirst => exact agrees_string_none hfirst (by decide) rest

/-! ### Integers -/

/-- An integer of 64 bits with a sign. -/
def integer64? : Json → Option Int
  | .number (.integer value) => if value < (Word.count63 : Int) then some value else none
  | _ => none

theorem agrees_integer64 {n : Number} (hfirst : skipBlanks s = c :: t) (hc : StartsNumber c)
    (h : ReadsTo (readNumber (c :: t)) n rest) :
    Agrees (FieldReader.integer64 s) (integer64? (.number n)) rest := by
  have hnumber : (decide (c = '-') || c.isDigit) = true := by
    rwa [Bool.or_eq_true, decide_eq_true_eq]
  obtain ⟨r, hr, rfl, rfl⟩ := h
  rw [FieldReader.integer64]
  split <;> rename_i h <;> rw [hfirst] at h <;> cases h
  rw [if_pos hnumber, hr, plainly_ok]
  dsimp only [bind, Except.bind]
  rcases r.value with value | bits
  · rw [integer64?]
    dsimp only
    split
    case isTrue hbound => exact ⟨_, rfl, rfl, rfl⟩
    case isFalse => exact ⟨_, rfl⟩
  · exact ⟨_, rfl⟩

theorem agrees_integer64_none (hfirst : skipBlanks s = c :: t) (hminus : c ≠ '-')
    (hdigit : c.isDigit = false) (rest : List Char) :
    Agrees (FieldReader.integer64 s) none rest := by
  have hnumber : ¬ (decide (c = '-') || c.isDigit) = true := by
    rw [hdigit, Bool.or_false, decide_eq_true_eq]
    exact hminus
  rw [FieldReader.integer64]
  split <;> rename_i h <;> rw [hfirst] at h <;> cases h
  rw [if_neg hnumber]
  exact agrees_refuseValue _ _ _

theorem means_integer64 : FieldReader.integer64.Means levels integer64? := by
  intro s tree rest h
  cases readsTo_with_iff.1 h with
  | scalar hfirst harray hobject h =>
    cases scalar_of_readsTo h with
    | number hc h => exact agrees_integer64 hfirst hc h
    | null => exact agrees_integer64_none hfirst (by decide) rfl rest
    | true => exact agrees_integer64_none hfirst (by decide) rfl rest
    | false => exact agrees_integer64_none hfirst (by decide) rfl rest
    | string => exact agrees_integer64_none hfirst (by decide) rfl rest
  | array hfirst => exact agrees_integer64_none hfirst (by decide) rfl rest
  | object hfirst => exact agrees_integer64_none hfirst (by decide) rfl rest

/-! ### Any value, and null in place of one -/

theorem means_any : (FieldReader.any levels).Means levels fun tree ↦ some tree.ordered := by
  intro s tree rest h
  obtain ⟨r, hr, hvalue, hrest⟩ := (mapped_readValue levels s _ rest).2 ⟨tree, h, rfl⟩
  refine ⟨r, ?_, hvalue, hrest⟩
  rw [FieldReader.any, hr]
  rfl

/-- A value or null. -/
def nullable? (meaning : Json → Option α) : Json → Option (Option α)
  | .null => some none
  | tree => some <$> meaning tree

theorem agrees_optional {field : FieldReader α} {expected : Option α}
    (hfirst : skipBlanks s = c :: t) (hc : c ≠ 'n') (h : Agrees (field s) expected rest) :
    Agrees (FieldReader.optional field s) (some <$> expected) rest := by
  rw [FieldReader.optional]
  split
  case h_1 h =>
    rw [hfirst] at h
    exact absurd (List.cons.inj h).1 hc
  case h_2 =>
    cases expected with
    | some a =>
      obtain ⟨r, hr, rfl, rfl⟩ := h
      rw [hr]
      exact ⟨_, rfl, rfl, rfl⟩
    | none =>
      obtain ⟨stop, hstop⟩ := h
      rw [hstop]
      exact ⟨_, rfl⟩

theorem FieldReader.Means.optional {field : FieldReader α} {meaning : Json → Option α}
    (h : field.Means levels meaning) :
    (FieldReader.optional field).Means levels (nullable? meaning) := by
  intro s tree rest htree
  have hfield := h s tree rest htree
  cases readsTo_with_iff.1 htree with
  | scalar hfirst harray hobject h =>
    cases scalar_of_readsTo h with
    | null h =>
      obtain ⟨r, hr, -, rfl⟩ := h
      rw [FieldReader.optional]
      split
      case h_1 h =>
        rw [hfirst] at h
        cases h
        rw [hr]
        exact ⟨_, rfl, rfl, rfl⟩
      case h_2 hne => exact absurd hfirst (hne _)
    | true => exact agrees_optional hfirst (by decide) hfield
    | false => exact agrees_optional hfirst (by decide) hfield
    | string => exact agrees_optional hfirst (by decide) hfield
    | number hc => exact agrees_optional hfirst (hc.ne (by decide) rfl) hfield
  | array hfirst => exact agrees_optional hfirst (by decide) hfield
  | object hfirst => exact agrees_optional hfirst (by decide) hfield

/-! ### Objects in place of records -/

/-- What members say of the fields of a record, by the name of the field. -/
abbrev Meanings (α : Type) := List (String × (Json → Option α))

/-- Readers of fields and what they make of trees, field by field. -/
def FieldsMean (levels : Nat) (fields : List (String × FieldReader α)) (meanings : Meanings α) :
    Prop :=
  List.Forall₂ (fun field meaning ↦ field.1 = meaning.1 ∧ field.2.Means levels meaning.2) fields
    meanings

/-- The fields of a record with one more member: a field that is there already is one too many, and
members that are not known come to nothing. -/
def takeField (meanings : Meanings α) (seen : List (String × α)) (member : String × Json) :
    Option (List (String × α)) :=
  if seen.any (·.1 == member.1) then none
  else match meanings.lookup member.1 with
    | some meaning => do return seen ++ [(member.1, ← meaning member.2)]
    | none => some seen

section Objects

variable {shape : RecordShape α β} {meanings : Meanings α} {seen : List (String × α)}
  {member : String × Json} {members : List (String × Json)}

theorem FieldsMean.lookup {fields : List (String × FieldReader α)}
    (h : FieldsMean levels fields meanings) (name : String) :
    Option.Rel (FieldReader.Means levels) (fields.lookup name) (meanings.lookup name) := by
  induction h with
  | nil => exact .none
  | cons hmeans _ ih =>
    obtain ⟨hname, hmeans⟩ := hmeans
    rw [List.lookup_cons, List.lookup_cons, hname]
    split
    · exact .some hmeans
    · exact ih

theorem agrees_readField (hmeans : FieldsMean levels shape.fields meanings)
    (h : ReadsTo (readMember (readTree levels) s) member rest) (seen : List (String × α)) :
    Agrees (shape.readField seen s) (takeField meanings seen member) rest := by
  obtain ⟨t, u, hname, hcolon, hvalue⟩ := readsTo_member_iff.1 h
  rw [RecordShape.readField]
  refine (agrees_plainly hname).bind (g := fun name ↦ takeField meanings seen (name, member.2)) ?_
  intro name _ hrest
  subst hrest
  rw [takeField]
  split
  case isTrue => exact ⟨_, rfl⟩
  case isFalse =>
    refine (agrees_plainly (readsTo_colon_iff.2 hcolon)).bind (g := fun _ ↦ _) ?_
    intro colon _ hrest
    subst hrest
    have hlookup := hmeans.lookup name.value
    generalize shape.fields.lookup name.value = field,
      meanings.lookup name.value = meaning at hlookup ⊢
    cases hlookup with
    | some hfield =>
      refine (hfield _ _ _ hvalue).bind fun value _ hrest ↦ ?_
      exact ⟨_, rfl, rfl, hrest⟩
    | none =>
      refine (agrees_plainly (skips_value hvalue)).bind (g := fun _ ↦ _) fun skipped _ hrest ↦ ?_
      exact ⟨_, rfl, rfl, hrest⟩

/-- **Members are read one after the other.** -/
theorem agrees_readFields (hmeans : FieldsMean levels shape.fields meanings)
    (h : Entries (readTree levels) s members rest) (seen : List (String × α)) :
    Agrees (shape.readFields seen s) (members.foldlM (takeField meanings) seen) rest := by
  induction h generalizing seen with
  | last h hend =>
    rw [RecordShape.readFields, List.foldlM_cons]
    refine (agrees_readField hmeans h seen).bind fun first _ hrest ↦ ?_
    subst hrest
    split <;> rename_i h <;> rw [hend] at h <;> cases h
    case h_2 => exact ⟨_, rfl, rfl, rfl⟩
    case h_4 hne _ => exact (hne rfl).elim
  | next h hcomma hquote _ ih =>
    rw [RecordShape.readFields, List.foldlM_cons]
    refine (agrees_readField hmeans h seen).bind fun first _ hrest ↦ ?_
    subst hrest
    split <;> rename_i h <;> rw [hcomma] at h <;> cases h
    case h_3 =>
      split <;> rename_i hskip <;> rw [hquote] at hskip <;> cases hskip
      case h_2 =>
        rw [← bind_pure (List.foldlM _ _ _)]
        refine (ih first.value).bind fun tail _ hrest ↦ ?_
        exact ⟨_, rfl, rfl, hrest⟩
      case h_4 hne _ => exact (hne rfl).elim
    case h_4 _ hne => exact (hne rfl).elim

end Objects

/-! ### Arrays in place of records -/

/-- The fields of a record of which an array has exactly one element for each. -/
def fieldsInOrder : Meanings α → List Json → Option (List (String × α))
  | [], [] => some []
  | (name, meaning) :: meanings, tree :: trees => do
    let value ← meaning tree
    let fields ← fieldsInOrder meanings trees
    return (name, value) :: fields
  | _, _ => none

/-- Reads the fields of an array and its closing bracket. -/
def RecordShape.readArrayFields (shape : RecordShape α β) (index : Nat) (seen : List (String × α))
    (fields : List (String × FieldReader α)) (s : List Char) :
    RecordReading (Read (List (String × α)) s) := do
  let (fields, left) ← shape.readInOrder index seen fields s
  let ending ← readArrayEnd left.rest
  return (ending.within left).map fun _ ↦ fields

section Arrays

variable {shape : RecordShape α β} {meanings : Meanings α} {fields : List (String × FieldReader α)}
  {field : FieldReader α} {name : String} {trees : List Json}

theorem readArrayFields_nil (index : Nat) (seen : List (String × α)) (s : List Char) :
    shape.readArrayFields index seen [] s =
      RecordShape.readArrayEnd s >>= fun ending ↦ .ok (ending.map fun _ ↦ seen) :=
  rfl

theorem readArrayFields_cons (index : Nat) (seen : List (String × α)) (name : String)
    (field : FieldReader α) (fields : List (String × FieldReader α)) (s : List Char) :
    shape.readArrayFields index seen ((name, field) :: fields) s =
      shape.readSeparator index s >>= fun left ↦ field left.rest >>= fun value ↦
        shape.readArrayFields (index + 1) (seen ++ [(name, value.value)]) fields value.rest >>=
          fun r ↦ .ok ((value.after r).within left) := by
  rw [RecordShape.readArrayFields, RecordShape.readInOrder]
  dsimp only [bind, Except.bind]
  cases shape.readSeparator index s with
  | error stop => rfl
  | ok left =>
    dsimp only
    cases field left.rest with
    | error stop => rfl
    | ok value =>
      dsimp only [RecordShape.readArrayFields, bind, Except.bind]
      cases shape.readInOrder (index + 1) (seen ++ [(name, value.value)]) fields value.rest with
      | error stop => rfl
      | ok taken =>
        obtain ⟨taken, after⟩ := taken
        show RecordShape.readArrayEnd after.rest >>= (fun ending ↦ _) = _
        dsimp only [bind, Except.bind, pure, Except.pure]
        cases RecordShape.readArrayEnd after.rest with
        | error stop => rfl
        | ok ending => rfl

theorem readsTo_arrayEnd (hend : skipBlanks s = ']' :: rest) :
    ∃ ending, RecordShape.readArrayEnd s = .ok ending ∧ ending.rest = rest := by
  rw [RecordShape.readArrayEnd]
  split <;> rename_i h <;> rw [hend] at h <;> cases h
  case h_2 => exact ⟨_, rfl, rfl⟩
  case h_4 hne _ => exact (hne rfl).elim

theorem readArrayEnd_of_ne (hend : ∀ t, skipBlanks s ≠ ']' :: t) :
    ∃ stop, RecordShape.readArrayEnd s = .error stop := by
  rw [RecordShape.readArrayEnd]
  split
  case h_1 => exact ⟨_, rfl⟩
  case h_2 t ht => exact absurd ht (hend t)
  case h_3 => split <;> exact ⟨_, rfl⟩
  case h_4 => exact ⟨_, rfl⟩

/-- In front of the end of an array there is no field. -/
theorem agrees_arrayFields_close (hmeans : FieldsMean levels fields meanings)
    (hend : skipBlanks s = ']' :: rest) (index : Nat) (seen : List (String × α)) :
    Agrees (shape.readArrayFields index seen fields s)
      ((seen ++ ·) <$> fieldsInOrder meanings []) rest := by
  cases hmeans with
  | nil =>
    obtain ⟨ending, hread, hrest⟩ := readsTo_arrayEnd hend
    rw [readArrayFields_nil, hread]
    exact ⟨_, rfl, (List.append_nil seen).symm, hrest⟩
  | cons hfield _ =>
    rw [readArrayFields_cons, RecordShape.readSeparator]
    split <;> rename_i h <;> rw [hend] at h <;> cases h
    case h_2 => exact ⟨_, rfl⟩
    case h_3 hne => exact (hne rfl).elim

/-- A field in front of others, behind what separates it from those before. -/
theorem agrees_arrayFields_cons {meaning : Json → Option α} {tree : Json} {index : Nat}
    {seen : List (String × α)} {left : Rest s}
    (hleft : shape.readSeparator index s = .ok left)
    (hfield : Agrees (field left.rest) (meaning tree) t)
    (hfields : ∀ seen, Agrees (shape.readArrayFields (index + 1) seen fields t)
      ((seen ++ ·) <$> fieldsInOrder meanings trees) rest) :
    Agrees (shape.readArrayFields index seen ((name, field) :: fields) s)
      ((seen ++ ·) <$> fieldsInOrder ((name, meaning) :: meanings) (tree :: trees)) rest := by
  have hexpected : (seen ++ ·) <$> fieldsInOrder ((name, meaning) :: meanings) (tree :: trees) =
      meaning tree >>= fun value ↦
        ((seen ++ [(name, value)]) ++ ·) <$> fieldsInOrder meanings trees := by
    rw [fieldsInOrder]
    cases meaning tree with
    | none => rfl
    | some value =>
      cases fieldsInOrder meanings trees with
      | none => rfl
      | some fields => simp
  rw [readArrayFields_cons, hleft, hexpected]
  refine hfield.bind fun value _ hrest ↦ ?_
  subst hrest
  rw [← bind_pure (_ <$> fieldsInOrder meanings trees)]
  refine (hfields _).bind fun r _ hrest ↦ ?_
  exact ⟨_, rfl, rfl, hrest⟩

theorem agrees_arrayFields_more (hmeans : FieldsMean levels fields meanings)
    (h : MoreElements (readTree levels) s trees rest) (index : Nat) (seen : List (String × α)) :
    Agrees (shape.readArrayFields (index + 1) seen fields s)
      ((seen ++ ·) <$> fieldsInOrder meanings trees) rest := by
  induction hmeans generalizing s trees index seen with
  | nil =>
    cases h with
    | close hend =>
      have hnone : FieldsMean levels ([] : List (String × FieldReader α)) [] := .nil
      exact agrees_arrayFields_close hnone hend _ _
    | more hcomma =>
      have hend : ∀ t, skipBlanks s ≠ ']' :: t := by
        rw [hcomma]
        exact fun t heq ↦ absurd (List.cons.inj heq).1 (by decide)
      obtain ⟨stop, hstop⟩ := readArrayEnd_of_ne hend
      rw [readArrayFields_nil, hstop]
      exact ⟨stop, rfl⟩
  | @cons field meaning fields meanings hfield hfields ih =>
    obtain ⟨name, field⟩ := field
    obtain ⟨_, meaning⟩ := meaning
    obtain ⟨rfl, hfield⟩ := hfield
    cases h with
    | close hend => exact agrees_arrayFields_close (.cons ⟨rfl, hfield⟩ hfields) hend _ _
    | more hcomma hnil hend h hmore =>
      have hleft : shape.readSeparator (index + 1) s = .ok (Read.pastBlanks hcomma ()).left := by
        rw [RecordShape.readSeparator]
        split <;> rename_i h <;> rw [hcomma] at h <;> cases h
        case h_3 =>
          rw [if_neg (Nat.succ_ne_zero index), if_pos rfl]
          split
          case h_1 h => exact absurd h hnil
          case h_2 t h => exact absurd h (hend t)
          case h_3 => rfl
      exact agrees_arrayFields_cons hleft (hfield _ _ _ (readsTo_with_skipBlanks h))
        fun seen ↦ ih hmore (index + 1) seen

/-- **The elements of an array are read one after the other.** -/
theorem agrees_arrayFields (hmeans : FieldsMean levels fields meanings)
    (h : ReadsTo (readArray (readTree levels) s) trees rest) :
    Agrees (shape.readArrayFields 0 [] fields s) (fieldsInOrder meanings trees) rest := by
  rw [← id_map (fieldsInOrder meanings trees)]
  rcases readsTo_array_iff.1 h with ⟨rfl, hend⟩ | ⟨hnil, hend, h⟩
  · exact agrees_arrayFields_close hmeans hend 0 []
  · obtain ⟨tree, t, others, rfl, htree, hmore⟩ := h.exists_more
    cases hmeans with
    | nil =>
      obtain ⟨stop, hstop⟩ := readArrayEnd_of_ne hend
      rw [readArrayFields_nil, hstop]
      exact ⟨stop, rfl⟩
    | @cons field meaning fields meanings hfield hfields =>
      obtain ⟨name, field⟩ := field
      obtain ⟨_, meaning⟩ := meaning
      obtain ⟨rfl, hfield⟩ := hfield
      have hleft : shape.readSeparator 0 s = .ok (.all s) := by
        rw [RecordShape.readSeparator]
        split
        case h_1 h => exact absurd h hnil
        case h_2 t h => exact absurd h (hend t)
        case h_3 => rfl
      exact agrees_arrayFields_cons hleft (hfield _ _ _ (readsTo_with_skipBlanks htree))
        fun seen ↦ agrees_arrayFields_more hfields hmore 0 seen

end Arrays

/-! ### Records -/

/-- The record that a tree describes. -/
def RecordShape.describe (shape : RecordShape α β) (meanings : Meanings α) : Json → Option β
  | .object members => do
    let fields ← members.foldlM (takeField meanings) []
    (shape.assemble fields).toOption
  | .array elements => do
    let fields ← fieldsInOrder meanings elements
    (shape.assemble fields).toOption
  | _ => none

section Records

variable {shape : RecordShape α β} {meanings : Meanings α}

theorem agrees_finish (shape : RecordShape α β) (fields : List (String × α)) (rest : List Char)
    {f : β → Read β s} (hf : ∀ value, (f value).value = value ∧ (f value).rest = rest) :
    Agrees (shape.finish fields rest >>= fun value ↦ .ok (f value))
      (shape.assemble fields).toOption rest := by
  rw [RecordShape.finish]
  cases shape.assemble fields with
  | error fault => exact ⟨_, rfl⟩
  | ok value => exact ⟨_, rfl, hf value⟩

theorem read_of_ne (h : ∀ t, skipBlanks s ≠ '\x7b' :: t) (h' : ∀ t, skipBlanks s ≠ '[' :: t)
    (rest : List Char) : Agrees (shape.read s) none rest := by
  rw [RecordShape.read]
  split
  case h_1 t ht => exact absurd ht (h t)
  case h_2 t ht => exact absurd ht (h' t)
  case h_3 => exact agrees_refuseValue _ _ _

theorem read_bracket (hfirst : skipBlanks s = '[' :: t) :
    shape.read s = shape.readArrayFields 0 [] shape.fields t >>= fun r ↦
      shape.finish r.value r.rest >>= fun value ↦
        .ok ((r.behindBlanks hfirst).map fun _ ↦ value) := by
  rw [RecordShape.read]
  split
  case h_1 u hu => rw [hfirst] at hu; cases hu
  case h_2 u hu =>
    rw [hfirst] at hu
    cases hu
    dsimp only [RecordShape.readArrayFields, bind, Except.bind]
    cases shape.readInOrder 0 [] shape.fields t with
    | error stop => rfl
    | ok taken =>
      obtain ⟨taken, left⟩ := taken
      dsimp only
      cases RecordShape.readArrayEnd left.rest with
      | error stop => rfl
      | ok ending => rfl
  case h_3 hne => exact (hne t hfirst).elim

/-- **A record is read as its tree describes it.** -/
theorem FieldsMean.read (hmeans : FieldsMean levels shape.fields meanings) :
    FieldReader.Means (levels + 1) shape.read (shape.describe meanings) := by
  intro s tree rest h
  cases readsTo_with_iff.1 h with
  | scalar hfirst harray hobject h =>
    have hnone : shape.describe meanings tree = none := by
      cases scalar_of_readsTo h <;> rfl
    rw [hnone]
    refine read_of_ne (fun t ht ↦ ?_) (fun t ht ↦ ?_) rest
    · exact hobject (List.cons.inj (hfirst.symm.trans ht)).1
    · exact harray (List.cons.inj (hfirst.symm.trans ht)).1
  | array hfirst h =>
    rw [read_bracket hfirst]
    refine (agrees_arrayFields hmeans h).bind fun r _ hrest ↦ ?_
    subst hrest
    exact agrees_finish shape r.value _ fun value ↦ ⟨rfl, rfl⟩
  | object hfirst h =>
    rw [RecordShape.read]
    split
    case h_1 u hu =>
      rw [hfirst] at hu
      cases hu
      rcases readsTo_object_iff.1 h with ⟨rfl, hend⟩ | ⟨u, hquote, hmembers⟩
      · split <;> rename_i hskip <;> rw [hend] at hskip <;> cases hskip
        case h_2 => exact agrees_finish shape [] _ fun value ↦ ⟨rfl, rfl⟩
        case h_4 hne _ => exact (hne rfl).elim
      · split <;> rename_i hskip <;> rw [hquote] at hskip <;> cases hskip
        case h_3 =>
          refine (agrees_readFields hmeans hmembers []).bind fun r _ hrest ↦ ?_
          subst hrest
          exact agrees_finish shape r.value _ fun value ↦ ⟨rfl, rfl⟩
        case h_4 _ hne => exact (hne rfl).elim
    case h_2 u hu => rw [hfirst] at hu; cases hu
    case h_3 hne _ => exact (hne _ hfirst).elim

end Records

/-- A text with a tree is read as the record that the tree describes, and is no record otherwise. -/
theorem parseRecord_eq_ok_iff {shape : RecordShape α β} {meanings : Meanings α} {text : String}
    {tree : Json} (hmeans : FieldsMean (greatestDepth - 1) shape.fields meanings)
    (h : Writes text tree) (value : β) :
    parseRecord shape text = .ok value ↔ shape.describe meanings tree = some value := by
  obtain ⟨rest, htree, hend⟩ := h
  have hagrees := hmeans.read _ _ _ htree
  rw [parseRecord]
  cases hdescribe : shape.describe meanings tree with
  | none =>
    rw [hdescribe] at hagrees
    obtain ⟨stop, hstop⟩ := hagrees
    rw [hstop]
    exact iff_of_false nofun nofun
  | some described =>
    rw [hdescribe] at hagrees
    obtain ⟨r, hr, rfl, rfl⟩ := hagrees
    rw [hr]
    dsimp only [bind, Except.bind]
    rw [hend]
    show (Except.ok r.value : Except RecordError β) = .ok value ↔ _
    rw [Except.ok.injEq, Option.some.injEq]

end ContractBindings.Json
