import ContractBindings.Proofs.Json.StringLiteral
import ContractBindings.Proofs.Results
import Mathlib.Data.List.DropRight

/-!
# Reading arrays and objects

The readers of containers are loops over a text, each round of which ends with a comma or with the
end of the container. What they read is said here by relations that follow the contents one by one
(`Elements`, `Entries`), for any reader of contents; the loops are opened once, to show that they
are these relations (`readsTo_elements_iff`, `readsTo_members_iff`). After that, whatever is said
about containers that are read goes by induction on their contents. So whatever holds of every value
that the reader of contents can give holds of all contents of a container (`forall_of_readArray`,
`forall_of_readObject`).
-/

namespace ContractBindings.Json

variable {α : Type} {element : ValueReader α} {s t rest : List Char} {c : Char}

theorem skipBlanks_cons (hc : isBlank c = false) (rest : List Char) :
    skipBlanks (c :: rest) = c :: rest :=
  List.dropWhile_cons_of_neg (by rw [hc]; exact Bool.false_ne_true)

theorem skipBlanks_skipBlanks (s : List Char) : skipBlanks (skipBlanks s) = skipBlanks s := by
  rw [skipBlanks, skipBlanks, List.dropWhile_idempotent]

/-! ### Arrays -/

section Arrays

variable {value : α} {values : List α}

/-- Elements of an array and its closing bracket, from the first character of an element on. -/
inductive Elements (element : ValueReader α) :
    (s : List Char) → (values : List α) → (rest : List Char) → Prop where
  | last {s t rest : List Char} {value : α} (h : ReadsTo (element s) value t)
    (hend : skipBlanks t = ']' :: rest) : Elements element s [value] rest
  | next {s t u rest : List Char} {value : α} {values : List α}
    (h : ReadsTo (element s) value t) (hcomma : skipBlanks t = ',' :: u)
    (hnil : skipBlanks u ≠ []) (hend : ∀ v, skipBlanks u ≠ ']' :: v)
    (htail : Elements element (skipBlanks u) values rest) :
    Elements element s (value :: values) rest

theorem Elements.readsTo (h : Elements element s values rest) :
    ReadsTo (readElements element s) values rest := by
  induction h with
  | last h hend =>
    obtain ⟨r, hr, rfl, rfl⟩ := h
    rw [readElements, hr]
    dsimp only [bind, Except.bind]
    split <;> rename_i h <;> rw [hend] at h <;> cases h
    case h_2 => exact ⟨_, rfl, rfl, rfl⟩
    case h_4 hne _ => exact (hne rfl).elim
  | next h hcomma hnil hend _ ih =>
    obtain ⟨r, hr, rfl, rfl⟩ := h
    obtain ⟨tail, htail, rfl, rfl⟩ := ih
    rw [readElements, hr]
    dsimp only [bind, Except.bind]
    split <;> rename_i h <;> rw [hcomma] at h <;> cases h
    case h_3 =>
      split
      case h_1 hfirst => exact absurd hfirst hnil
      case h_2 more hfirst => exact absurd hfirst (hend more)
      case h_3 => rw [htail]; exact ⟨_, rfl, rfl, rfl⟩
    case h_4 _ hne => exact (hne rfl).elim

/-- **What the reader of elements reads**, one element after the other. -/
theorem readsTo_elements_iff :
    ReadsTo (readElements element s) values rest ↔ Elements element s values rest := by
  refine ⟨?_, Elements.readsTo⟩
  rintro ⟨r, h, rfl, rfl⟩
  induction hlength : s.length using Nat.strongRecOn generalizing s with
  | ind n ih =>
    rw [readElements] at h
    obtain ⟨first, hfirst, h⟩ := exists_of_bind_eq_ok h
    split at h
    case h_1 => cases h
    case h_2 t ht =>
      cases h
      exact .last ⟨first, hfirst, rfl, rfl⟩ ht
    case h_3 u hu =>
      split at h
      case h_1 => cases h
      case h_2 => cases h
      case h_3 hnil hend =>
        obtain ⟨tail, htail, h⟩ := exists_of_bind_eq_ok h
        cases h
        have hshorter : (skipBlanks u).length < s.length :=
          Nat.lt_of_le_of_lt (length_skipBlanks_le u)
            (Nat.lt_trans (length_lt_of_skipBlanks_eq hu) first.shorter)
        exact .next ⟨first, hfirst, rfl, rfl⟩ hu hnil hend
          (ih _ (hlength ▸ hshorter) tail htail rfl)
    case h_4 => cases h

/-- Elements behind one that was read, and the closing bracket. -/
inductive MoreElements (element : ValueReader α) :
    (t : List Char) → (values : List α) → (rest : List Char) → Prop where
  | close {t rest : List Char} (hend : skipBlanks t = ']' :: rest) :
    MoreElements element t [] rest
  | more {t u v rest : List Char} {value : α} {values : List α}
    (hcomma : skipBlanks t = ',' :: u) (hnil : skipBlanks u ≠ [])
    (hend : ∀ w, skipBlanks u ≠ ']' :: w) (h : ReadsTo (element (skipBlanks u)) value v)
    (hmore : MoreElements element v values rest) : MoreElements element t (value :: values) rest

theorem Elements.exists_more (h : Elements element s values rest) :
    ∃ value t others, values = value :: others ∧ ReadsTo (element s) value t ∧
      MoreElements element t others rest := by
  induction h with
  | last h hend => exact ⟨_, _, _, rfl, h, .close hend⟩
  | next h hcomma hnil hend _ ih =>
    obtain ⟨value, t, others, rfl, hvalue, hmore⟩ := ih
    exact ⟨_, _, _, rfl, h, .more hcomma hnil hend hvalue hmore⟩

/-- An array behind its opening bracket: one that ends at once, or one of elements. -/
theorem readsTo_array_iff :
    ReadsTo (readArray element s) values rest ↔
      values = [] ∧ skipBlanks s = ']' :: rest ∨
      skipBlanks s ≠ [] ∧ (∀ t, skipBlanks s ≠ ']' :: t) ∧
        Elements element (skipBlanks s) values rest := by
  rw [← readsTo_elements_iff]
  constructor
  · rintro ⟨r, h, rfl, rfl⟩
    rw [readArray] at h
    split at h
    case h_1 => cases h
    case h_2 t ht =>
      cases h
      exact .inl ⟨rfl, ht⟩
    case h_3 hnil hend =>
      obtain ⟨elements, helements, h⟩ := exists_of_bind_eq_ok h
      cases h
      exact .inr ⟨hnil, hend, elements, helements, rfl, rfl⟩
  · rintro (⟨rfl, hend⟩ | ⟨hnil, hend, r, hr, rfl, rfl⟩)
    · rw [readArray]
      split <;> rename_i h <;> rw [hend] at h
      case h_1 => cases h
      case h_2 => cases h; exact ⟨_, rfl, rfl, rfl⟩
      case h_3 => exact (h rest rfl).elim
    · rw [readArray]
      split
      case h_1 h => exact absurd h hnil
      case h_2 t h => exact absurd h (hend t)
      case h_3 => rw [hr]; exact ⟨_, rfl, rfl, rfl⟩

variable {P : α → Prop}

theorem Elements.forall (hP : ∀ s r, element s = .ok r → P r.value)
    (h : Elements element s values rest) : ∀ v ∈ values, P v := by
  induction h with
  | @last s _ _ _ h _ =>
    obtain ⟨r, hr, rfl, -⟩ := h
    exact List.forall_mem_singleton.2 (hP s r hr)
  | @next s _ _ _ _ _ h _ _ _ _ ih =>
    obtain ⟨r, hr, rfl, -⟩ := h
    exact List.forall_mem_cons.2 ⟨hP s r hr, ih⟩

theorem forall_of_readArray (hP : ∀ s r, element s = .ok r → P r.value)
    {out : Read (List α) s} (h : readArray element s = .ok out) : ∀ v ∈ out.value, P v := by
  rcases readsTo_array_iff.1 ⟨out, h, rfl, rfl⟩ with ⟨hnil, -⟩ | ⟨-, -, helements⟩
  · rw [hnil]
    exact List.forall_mem_nil _
  · exact helements.forall hP

end Arrays

/-! ### Objects -/

section Objects

variable {name : String} {value : α} {member : String × α} {members : List (String × α)}

theorem readsTo_colon_iff : ReadsTo (readColon s) () rest ↔ skipBlanks s = ':' :: rest := by
  rw [readColon]
  constructor
  · rintro ⟨r, h, -, rfl⟩
    split at h
    case h_1 => cases h
    case h_2 t ht => cases h; exact ht
    case h_3 => cases h
  · intro hcolon
    split <;> rename_i h <;> rw [hcolon] at h <;> cases h
    case h_2 => exact ⟨_, rfl, rfl, rfl⟩
    case h_3 hne => exact (hne rfl).elim

/-- A member behind the opening quote of its name. -/
theorem readsTo_member_iff :
    ReadsTo (readMember element s) member rest ↔ ∃ t u, ReadsTo (readString s) member.1 t ∧
      skipBlanks t = ':' :: u ∧ ReadsTo (element u) member.2 rest := by
  rw [readMember]
  constructor
  · rintro ⟨r, h, rfl, rfl⟩
    obtain ⟨name, hname, h⟩ := exists_of_bind_eq_ok h
    obtain ⟨colon, hcolon, h⟩ := exists_of_bind_eq_ok h
    obtain ⟨value, hvalue, h⟩ := exists_of_bind_eq_ok h
    cases h
    exact ⟨name.rest, colon.rest, ⟨name, hname, rfl, rfl⟩,
      readsTo_colon_iff.1 ⟨colon, hcolon, rfl, rfl⟩, value, hvalue, rfl, rfl⟩
  · obtain ⟨name, value⟩ := member
    rintro ⟨t, u, ⟨n, hn, rfl, rfl⟩, hcolon, hvalue⟩
    obtain ⟨colon, hread, -, rfl⟩ := readsTo_colon_iff.2 hcolon
    obtain ⟨v, hv, rfl, rfl⟩ := hvalue
    rw [hn]
    dsimp only [bind, Except.bind]
    rw [hread]
    dsimp only
    rw [hv]
    exact ⟨_, rfl, rfl, rfl⟩

/-- Members of an object and its closing brace, from behind the opening quote of a name on. -/
inductive Entries (element : ValueReader α) :
    (s : List Char) → (members : List (String × α)) → (rest : List Char) → Prop where
  | last {s t rest : List Char} {member : String × α}
    (h : ReadsTo (readMember element s) member t) (hend : skipBlanks t = '\x7d' :: rest) :
    Entries element s [member] rest
  | next {s t u v rest : List Char} {member : String × α} {members : List (String × α)}
    (h : ReadsTo (readMember element s) member t) (hcomma : skipBlanks t = ',' :: u)
    (hquote : skipBlanks u = '"' :: v) (htail : Entries element v members rest) :
    Entries element s (member :: members) rest

theorem Entries.readsTo (h : Entries element s members rest) :
    ReadsTo (readMembers element s) members rest := by
  induction h with
  | last h hend =>
    obtain ⟨r, hr, rfl, rfl⟩ := h
    rw [readMembers, hr]
    dsimp only [bind, Except.bind]
    split <;> rename_i h <;> rw [hend] at h <;> cases h
    case h_2 => exact ⟨_, rfl, rfl, rfl⟩
    case h_4 hne _ => exact (hne rfl).elim
  | next h hcomma hquote _ ih =>
    obtain ⟨r, hr, rfl, rfl⟩ := h
    obtain ⟨tail, htail, rfl, rfl⟩ := ih
    rw [readMembers, hr]
    dsimp only [bind, Except.bind]
    split <;> rename_i h <;> rw [hcomma] at h <;> cases h
    case h_3 =>
      split <;> rename_i hfirst <;> rw [hquote] at hfirst <;> cases hfirst
      case h_2 => rw [htail]; exact ⟨_, rfl, rfl, rfl⟩
      case h_4 hne _ => exact (hne rfl).elim
    case h_4 _ hne => exact (hne rfl).elim

/-- **What the reader of members reads**, one member after the other. -/
theorem readsTo_members_iff :
    ReadsTo (readMembers element s) members rest ↔ Entries element s members rest := by
  refine ⟨?_, Entries.readsTo⟩
  rintro ⟨r, h, rfl, rfl⟩
  induction hlength : s.length using Nat.strongRecOn generalizing s with
  | ind n ih =>
    rw [readMembers] at h
    obtain ⟨first, hfirst, h⟩ := exists_of_bind_eq_ok h
    split at h
    case h_1 => cases h
    case h_2 t ht =>
      cases h
      exact .last ⟨first, hfirst, rfl, rfl⟩ ht
    case h_3 u hu =>
      split at h
      case h_1 => cases h
      case h_2 more hmore =>
        obtain ⟨tail, htail, h⟩ := exists_of_bind_eq_ok h
        cases h
        have hshorter : more.length < s.length :=
          Nat.lt_trans (length_lt_of_skipBlanks_eq hmore)
            (Nat.lt_trans (length_lt_of_skipBlanks_eq hu) first.shorter)
        exact .next ⟨first, hfirst, rfl, rfl⟩ hu hmore (ih _ (hlength ▸ hshorter) tail htail rfl)
      case h_3 => cases h
      case h_4 => cases h
    case h_4 => cases h

/-- An object behind its opening brace: one that ends at once, or one of members. -/
theorem readsTo_object_iff :
    ReadsTo (readObject element s) members rest ↔
      members = [] ∧ skipBlanks s = '\x7d' :: rest ∨
      ∃ t, skipBlanks s = '"' :: t ∧ Entries element t members rest := by
  rw [readObject]
  constructor
  · rintro ⟨r, h, rfl, rfl⟩
    split at h
    case h_1 => cases h
    case h_2 t ht =>
      cases h
      exact .inl ⟨rfl, ht⟩
    case h_3 t ht =>
      obtain ⟨members, hmembers, h⟩ := exists_of_bind_eq_ok h
      cases h
      exact .inr ⟨t, ht, readsTo_members_iff.1 ⟨members, hmembers, rfl, rfl⟩⟩
    case h_4 => cases h
  · rintro (⟨rfl, hend⟩ | ⟨t, hquote, hentries⟩)
    · split <;> rename_i h <;> rw [hend] at h <;> cases h
      case h_2 => exact ⟨_, rfl, rfl, rfl⟩
      case h_4 hne _ => exact (hne rfl).elim
    · obtain ⟨r, hr, rfl, rfl⟩ := hentries.readsTo
      split <;> rename_i h <;> rw [hquote] at h <;> cases h
      case h_3 => rw [hr]; exact ⟨_, rfl, rfl, rfl⟩
      case h_4 _ hne => exact (hne rfl).elim

variable {P : α → Prop}

theorem of_readsTo_member (hP : ∀ s r, element s = .ok r → P r.value)
    (h : ReadsTo (readMember element s) member rest) : P member.2 := by
  obtain ⟨t, u, -, -, r, hr, hvalue, -⟩ := readsTo_member_iff.1 h
  exact hvalue ▸ hP u r hr

theorem Entries.forall (hP : ∀ s r, element s = .ok r → P r.value)
    (h : Entries element s members rest) : ∀ m ∈ members, P m.2 := by
  induction h with
  | last h _ => exact List.forall_mem_singleton.2 (of_readsTo_member hP h)
  | next h _ _ _ ih => exact List.forall_mem_cons.2 ⟨of_readsTo_member hP h, ih⟩

theorem forall_of_readObject (hP : ∀ s r, element s = .ok r → P r.value)
    {out : Read (List (String × α)) s} (h : readObject element s = .ok out) :
    ∀ m ∈ out.value, P m.2 := by
  rcases readsTo_object_iff.1 ⟨out, h, rfl, rfl⟩ with ⟨hnil, -⟩ | ⟨t, -, hentries⟩
  · rw [hnil]
    exact List.forall_mem_nil _
  · exact hentries.forall hP

end Objects

end ContractBindings.Json
