import ContractBindings.Json.Record
import ContractBindings.Proofs.Results

/-!
# What holds of the fields that are read

A property that each reader of a field gives to its values (`FieldReader.Gives`) holds of all fields
that are read, in an object (`gives_readFields`) as well as in an array (`gives_readInOrder`), and
goes over to the record that is put together from them (`gives_read`). Nothing is asked of the text
around the fields: what is passed over need not be readable.
-/

namespace ContractBindings.Json

variable {α β : Type} {s rest : List Char}

/-! ### Readers of fields -/

/-- Whatever a reader of a field gives has a property. -/
def FieldReader.Gives (field : FieldReader α) (P : α → Prop) : Prop :=
  ∀ s r, field s = .ok r → P r.value

theorem FieldReader.Gives.map {field : FieldReader α} {P : α → Prop} (h : field.Gives P)
    {Q : β → Prop} {f : α → β} (hf : ∀ a, P a → Q (f a)) :
    FieldReader.Gives (fun s ↦ return (← field s).map f) Q := by
  intro s r hr
  obtain ⟨a, ha, hr⟩ := exists_of_bind_eq_ok hr
  cases hr
  exact hf _ (h s a ha)

theorem FieldReader.Gives.optional {field : FieldReader α} {P : α → Prop} (h : field.Gives P) :
    (FieldReader.optional field).Gives fun value ↦ ∀ a ∈ value, P a := by
  intro s r hr
  rw [FieldReader.optional] at hr
  split at hr
  case h_1 =>
    obtain ⟨_, -, hr⟩ := exists_of_bind_eq_ok hr
    cases hr
    exact fun a ha ↦ absurd ha (Option.not_mem_none a)
  case h_2 =>
    obtain ⟨a, ha, hr⟩ := exists_of_bind_eq_ok hr
    cases hr
    exact fun b hb ↦ Option.mem_some.1 hb ▸ h s a ha

/-- No value is of the wrong kind and right. -/
theorem exists_stop_of_refuseValue (wanted : String) (s : List Char) :
    ∃ stop, (refuseValue wanted s : RecordReading (Read α s)) = .error stop := by
  rw [refuseValue]
  split
  case h_1 => exact ⟨_, rfl⟩
  case h_2 => exact ⟨_, rfl⟩
  case h_3 => exact ⟨_, rfl⟩
  case h_4 c t _ _ _ =>
    rcases readScalar c t with stop | r
    · exact ⟨_, rfl⟩
    · exact ⟨_, rfl⟩

/-! ### Records -/

section Records

variable {shape : RecordShape α β} {P : α → Prop} {seen : List (String × α)}

theorem gives_of_lookup {fields : List (String × FieldReader α)}
    (h : ∀ field ∈ fields, field.2.Gives P) {name : String} {field : FieldReader α}
    (hlookup : fields.lookup name = some field) : field.Gives P := by
  induction fields with
  | nil => cases hlookup
  | cons first fields ih =>
    obtain ⟨hfirst, hfields⟩ := List.forall_mem_cons.1 h
    rw [List.lookup_cons] at hlookup
    split at hlookup
    · cases hlookup
      exact hfirst
    · exact ih hfields hlookup

theorem gives_readField (h : ∀ field ∈ shape.fields, field.2.Gives P)
    (hseen : ∀ field ∈ seen, P field.2) {r : Read (List (String × α)) s}
    (hr : shape.readField seen s = .ok r) : ∀ field ∈ r.value, P field.2 := by
  rw [RecordShape.readField] at hr
  obtain ⟨name, -, hr⟩ := exists_of_bind_eq_ok hr
  split at hr
  case isTrue => cases hr
  case isFalse =>
    obtain ⟨colon, -, hr⟩ := exists_of_bind_eq_ok hr
    split at hr
    case h_1 field hlookup =>
      obtain ⟨value, hvalue, hr⟩ := exists_of_bind_eq_ok hr
      cases hr
      have hnew : P value.value := gives_of_lookup h hlookup _ _ hvalue
      exact List.forall_mem_append.2 ⟨hseen, List.forall_mem_singleton.2 hnew⟩
    case h_2 =>
      obtain ⟨skipped, -, hr⟩ := exists_of_bind_eq_ok hr
      cases hr
      exact hseen

theorem gives_readFields (h : ∀ field ∈ shape.fields, field.2.Gives P)
    (hseen : ∀ field ∈ seen, P field.2) {r : Read (List (String × α)) s}
    (hr : shape.readFields seen s = .ok r) : ∀ field ∈ r.value, P field.2 := by
  -- On the text, whose members become fewer.
  induction hs : s.length using Nat.strongRecOn generalizing s seen with
  | ind length ih =>
    rw [RecordShape.readFields] at hr
    obtain ⟨first, hfirst, hr⟩ := exists_of_bind_eq_ok hr
    have hfields := gives_readField h hseen hfirst
    split at hr
    case h_1 => cases hr
    case h_2 =>
      cases hr
      exact hfields
    case h_3 hcomma =>
      split at hr
      case h_1 => cases hr
      case h_2 more hquote =>
        obtain ⟨tail, htail, hr⟩ := exists_of_bind_eq_ok hr
        cases hr
        have hshorter : more.length < length := by
          rw [← hs]
          exact Nat.lt_trans (length_lt_of_skipBlanks_eq hquote)
            (Nat.lt_trans (length_lt_of_skipBlanks_eq hcomma) first.shorter)
        have hrest := ih more.length hshorter hfields htail rfl
        exact hrest
      case h_3 => cases hr
      case h_4 => cases hr
    case h_4 => cases hr

theorem gives_readInOrder {fields : List (String × FieldReader α)}
    (h : ∀ field ∈ fields, field.2.Gives P) (hseen : ∀ field ∈ seen, P field.2) {index : Nat}
    {r : List (String × α) × Rest s} (hr : shape.readInOrder index seen fields s = .ok r) :
    ∀ field ∈ r.1, P field.2 := by
  induction fields generalizing index seen s with
  | nil =>
    cases hr
    exact hseen
  | cons field fields ih =>
    obtain ⟨hfield, hfields⟩ := List.forall_mem_cons.1 h
    rw [RecordShape.readInOrder] at hr
    obtain ⟨left, -, hr⟩ := exists_of_bind_eq_ok hr
    obtain ⟨value, hvalue, hr⟩ := exists_of_bind_eq_ok hr
    obtain ⟨taken, htaken, hr⟩ := exists_of_bind_eq_ok hr
    cases hr
    have hnew : P value.value := hfield _ _ hvalue
    have hrest :=
      ih hfields (List.forall_mem_append.2 ⟨hseen, List.forall_mem_singleton.2 hnew⟩) htaken
    exact hrest

theorem assemble_of_finish {fields : List (String × α)} {value : β}
    (h : shape.finish fields rest = .ok value) : shape.assemble fields = .ok value := by
  rw [RecordShape.finish] at h
  split at h
  case h_1 hassemble =>
    cases h
    exact hassemble
  case h_2 => cases h

/-- What holds of all fields that are read goes over to the record. -/
theorem gives_read (h : ∀ field ∈ shape.fields, field.2.Gives P) {Q : β → Prop}
    (hassemble : ∀ fields value, shape.assemble fields = .ok value →
      (∀ field ∈ fields, P field.2) → Q value) : FieldReader.Gives shape.read Q := by
  intro s r hr
  rw [RecordShape.read] at hr
  split at hr
  case h_1 =>
    split at hr
    case h_1 => cases hr
    case h_2 =>
      obtain ⟨value, hvalue, hr⟩ := exists_of_bind_eq_ok hr
      cases hr
      exact hassemble _ _ (assemble_of_finish hvalue) (List.forall_mem_nil _)
    case h_3 =>
      obtain ⟨fields, hfields, hr⟩ := exists_of_bind_eq_ok hr
      obtain ⟨value, hvalue, hr⟩ := exists_of_bind_eq_ok hr
      cases hr
      exact hassemble _ _ (assemble_of_finish hvalue)
        (gives_readFields h (List.forall_mem_nil _) hfields)
    case h_4 => cases hr
  case h_2 =>
    obtain ⟨⟨fields, left⟩, hfields, hr⟩ := exists_of_bind_eq_ok hr
    obtain ⟨ending, -, hr⟩ := exists_of_bind_eq_ok hr
    obtain ⟨value, hvalue, hr⟩ := exists_of_bind_eq_ok hr
    cases hr
    exact hassemble _ _ (assemble_of_finish hvalue)
      (gives_readInOrder h (List.forall_mem_nil _) hfields)
  case h_3 =>
    obtain ⟨stop, hstop⟩ := exists_stop_of_refuseValue shape.wanted s
    cases hstop.symm.trans hr

end Records

theorem gives_parseRecord {shape : RecordShape α β} {Q : β → Prop}
    (h : FieldReader.Gives shape.read Q) {text : String} {value : β}
    (hparse : parseRecord shape text = .ok value) : Q value := by
  obtain ⟨r, hr, hend⟩ := exists_of_bind_eq_ok (ok_of_mapError_eq_ok hparse)
  split at hend
  case h_1 =>
    cases hend
    exact h _ _ hr
  case h_2 => cases hend

end ContractBindings.Json
