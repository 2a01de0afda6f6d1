import ContractBindings.Proofs.Json.Containers
import ContractBindings.Proofs.Json.Integers

/-!
# Values in text order

A reader of values keeps the members of an object in order and each name once, so the value no
longer tells in which order they stood and whether a name stood there twice. Both matter to readers
of records. The *tree* of a text is its value before objects are put in order (`readTree`): the same
reader with another way to build objects (`readWith`). A text has a tree exactly if it has a value,
and its value is the tree with its objects in order (`mapped_readValue`, `parse_eq_ok_iff_tree`).
-/

namespace ContractBindings.Json

/-! ### Scalars -/

/-- What the reader of scalars reads, by the kind of the value. -/
inductive Scalar : (c : Char) → (t : List Char) → (v : Json) → (rest : List Char) → Prop where
  | null {t rest : List Char} (h : ReadsTo (readKeyword ['u', 'l', 'l'] 'n' t) () rest) :
    Scalar 'n' t .null rest
  | true {t rest : List Char} (h : ReadsTo (readKeyword ['r', 'u', 'e'] 't' t) () rest) :
    Scalar 't' t (.bool true) rest
  | false {t rest : List Char} (h : ReadsTo (readKeyword ['a', 'l', 's', 'e'] 'f' t) () rest) :
    Scalar 'f' t (.bool false) rest
  | string {t rest : List Char} {value : String} (h : ReadsTo (readString t) value rest) :
    Scalar '"' t (.string value) rest
  | number {c : Char} {t rest : List Char} {n : Number} (hc : StartsNumber c)
    (h : ReadsTo (readNumber (c :: t)) n rest) : Scalar c t (.number n) rest

theorem scalar_of_readsTo {c : Char} {t rest : List Char} {v : Json}
    (h : ReadsTo (readScalar c t) v rest) :
    Scalar c t v rest := by
  obtain ⟨r, h, rfl, rfl⟩ := h
  rw [readScalar] at h
  split_ifs at h with hnull htrue hfalse hstring hnumber
  · obtain ⟨word, hword, h⟩ := exists_of_bind_eq_ok h
    cases h
    subst hnull
    exact .null ⟨word, hword, rfl, rfl⟩
  · obtain ⟨word, hword, h⟩ := exists_of_bind_eq_ok h
    cases h
    subst htrue
    exact .true ⟨word, hword, rfl, rfl⟩
  · obtain ⟨word, hword, h⟩ := exists_of_bind_eq_ok h
    cases h
    subst hfalse
    exact .false ⟨word, hword, rfl, rfl⟩
  · obtain ⟨value, hvalue, h⟩ := exists_of_bind_eq_ok h
    cases h
    subst hstring
    exact .string ⟨value, hvalue, rfl, rfl⟩
  · obtain ⟨n, hn, h⟩ := exists_of_bind_eq_ok h
    cases h
    rw [Bool.or_eq_true, decide_eq_true_eq] at hnumber
    exact .number hnumber ⟨n, hn, rfl, rfl⟩
  · cases h

/-! ### Readers of values -/

/-- The reader of values, with another way to make an object of its members. -/
def readWith (build : List (String × Json) → Json) : (levels : Nat) → ValueReader Json
  | 0, s =>
    match h : skipBlanks s with
    | [] => stopAt .endInValue []
    | c :: rest =>
      if c = '[' || c = '\x7b' then stopAt .tooDeep (c :: rest) 1
      else return (← readScalar c rest).withBlanks h
  | levels + 1, s =>
    match h : skipBlanks s with
    | [] => stopAt .endInValue []
    | '[' :: rest => return ((← readArray (readWith build levels) rest).behindBlanks h).map array
    | '\x7b' :: rest =>
      return ((← readObject (readWith build levels) rest).behindBlanks h).map build
    | c :: rest => return (← readScalar c rest).withBlanks h

theorem readWith_ofMembers (levels : Nat) : readWith ofMembers levels = readValue levels := by
  induction levels with
  | zero => rfl
  | succ levels ih =>
    funext s
    rw [readWith, ih]
    rfl

/-- The reader of trees: values whose members stand as in the text. -/
def readTree : (levels : Nat) → ValueReader Json :=
  readWith object

/-- A text writes a tree, with blanks around it. -/
def Writes (text : String) (tree : Json) : Prop :=
  ∃ rest, ReadsTo (readTree greatestDepth text.toList) tree rest ∧ skipBlanks rest = []

section Readers

variable {build : List (String × Json) → Json} {levels : Nat} {s t rest : List Char} {v : Json}
  {c : Char}

/-- What the reader of values reads, by the first character of the value. -/
inductive Reads (build : List (String × Json) → Json) :
    (levels : Nat) → (s : List Char) → (v : Json) → (rest : List Char) → Prop where
  | scalar {levels : Nat} {s t rest : List Char} {c : Char} {v : Json}
    (hfirst : skipBlanks s = c :: t) (harray : c ≠ '[') (hobject : c ≠ '\x7b')
    (h : ReadsTo (readScalar c t) v rest) : Reads build levels s v rest
  | array {levels : Nat} {s t rest : List Char} {elements : List Json}
    (hfirst : skipBlanks s = '[' :: t)
    (h : ReadsTo (readArray (readWith build levels) t) elements rest) :
    Reads build (levels + 1) s (.array elements) rest
  | object {levels : Nat} {s t rest : List Char} {members : List (String × Json)}
    (hfirst : skipBlanks s = '\x7b' :: t)
    (h : ReadsTo (readObject (readWith build levels) t) members rest) :
    Reads build (levels + 1) s (build members) rest

theorem Reads.readsTo (h : Reads build levels s v rest) :
    ReadsTo (readWith build levels s) v rest := by
  cases h with
  | scalar hfirst harray hobject h =>
    obtain ⟨r, hr, rfl, rfl⟩ := h
    rcases levels with _ | levels
    · rw [readWith]
      split <;> rename_i h <;> rw [hfirst] at h <;> cases h
      rw [if_neg (by simp [harray, hobject]), hr]
      exact ⟨_, rfl, rfl, rfl⟩
    · rw [readWith]
      split <;> rename_i h <;> rw [hfirst] at h <;> cases h
      case h_2 => exact absurd rfl harray
      case h_3 => exact absurd rfl hobject
      case h_4 => rw [hr]; exact ⟨_, rfl, rfl, rfl⟩
  | array hfirst h =>
    obtain ⟨r, hr, rfl, rfl⟩ := h
    rw [readWith]
    split <;> rename_i h <;> rw [hfirst] at h <;> cases h
    case h_2 => rw [hr]; exact ⟨_, rfl, rfl, rfl⟩
    case h_4 hne _ => exact (hne rfl).elim
  | object hfirst h =>
    obtain ⟨r, hr, rfl, rfl⟩ := h
    rw [readWith]
    split <;> rename_i h <;> rw [hfirst] at h <;> cases h
    case h_3 => rw [hr]; exact ⟨_, rfl, rfl, rfl⟩
    case h_4 _ hne => exact (hne rfl).elim

theorem readsTo_with_iff :
    ReadsTo (readWith build levels s) v rest ↔ Reads build levels s v rest := by
  refine ⟨?_, Reads.readsTo⟩
  rintro ⟨r, h, rfl, rfl⟩
  rcases levels with _ | levels
  · rw [readWith] at h
    split at h
    case h_1 => cases h
    case h_2 c t ht =>
      split at h
      case isTrue => cases h
      case isFalse hopen =>
        obtain ⟨scalar, hscalar, h⟩ := exists_of_bind_eq_ok h
        cases h
        simp only [Bool.or_eq_true, decide_eq_true_eq, not_or] at hopen
        exact .scalar ht hopen.1 hopen.2 ⟨scalar, hscalar, rfl, rfl⟩
  · rw [readWith] at h
    split at h
    case h_1 => cases h
    case h_2 t ht =>
      obtain ⟨elements, helements, h⟩ := exists_of_bind_eq_ok h
      cases h
      exact .array ht ⟨elements, helements, rfl, rfl⟩
    case h_3 t ht =>
      obtain ⟨members, hmembers, h⟩ := exists_of_bind_eq_ok h
      cases h
      exact .object ht ⟨members, hmembers, rfl, rfl⟩
    case h_4 c t harray hobject ht =>
      obtain ⟨scalar, hscalar, h⟩ := exists_of_bind_eq_ok h
      cases h
      exact .scalar ht harray hobject ⟨scalar, hscalar, rfl, rfl⟩

/-- Blanks in front of a value make no difference. -/
theorem readsTo_with_skipBlanks (h : ReadsTo (readWith build levels (skipBlanks s)) v rest) :
    ReadsTo (readWith build levels s) v rest := by
  have hskip := skipBlanks_skipBlanks s
  rw [readsTo_with_iff] at h ⊢
  cases h with
  | scalar hfirst harray hobject h => exact .scalar (hskip.symm.trans hfirst) harray hobject h
  | array hfirst h => exact .array (hskip.symm.trans hfirst) h
  | object hfirst h => exact .object (hskip.symm.trans hfirst) h

end Readers

/-! ### Readers that differ in what they make of a value -/

section Mapped

variable {α β : Type} {f : α → β} {element : ValueReader α} {element' : ValueReader β}

/-- A reader that reads what another one reads and makes something else of it. -/
def Mapped (f : α → β) (element : ValueReader α) (element' : ValueReader β) : Prop :=
  ∀ s w rest, ReadsTo (element' s) w rest ↔ ∃ v, ReadsTo (element s) v rest ∧ f v = w

theorem Mapped.elements (h : Mapped f element element') :
    Mapped (List.map f) (readElements element) (readElements element') := by
  intro s ws rest
  simp only [readsTo_elements_iff]
  constructor
  · intro hws
    induction hws with
    | last hw hend =>
      obtain ⟨v, hv, rfl⟩ := (h _ _ _).1 hw
      exact ⟨[v], .last hv hend, rfl⟩
    | next hw hcomma hnil hend _ ih =>
      obtain ⟨v, hv, rfl⟩ := (h _ _ _).1 hw
      obtain ⟨vs, hvs, rfl⟩ := ih
      exact ⟨v :: vs, .next hv hcomma hnil hend hvs, rfl⟩
  · rintro ⟨vs, hvs, rfl⟩
    induction hvs with
    | last hv hend => exact .last ((h _ _ _).2 ⟨_, hv, rfl⟩) hend
    | next hv hcomma hnil hend _ ih =>
      exact .next ((h _ _ _).2 ⟨_, hv, rfl⟩) hcomma hnil hend ih

theorem Mapped.array (h : Mapped f element element') :
    Mapped (List.map f) (readArray element) (readArray element') := by
  intro s ws rest
  simp only [readsTo_array_iff, ← readsTo_elements_iff, h.elements _ _ _]
  constructor
  · rintro (⟨rfl, hend⟩ | ⟨hnil, hend, vs, hvs, rfl⟩)
    · exact ⟨[], .inl ⟨rfl, hend⟩, rfl⟩
    · exact ⟨vs, .inr ⟨hnil, hend, hvs⟩, rfl⟩
  · rintro ⟨vs, ⟨rfl, hend⟩ | ⟨hnil, hend, hvs⟩, rfl⟩
    · exact .inl ⟨rfl, hend⟩
    · exact .inr ⟨hnil, hend, vs, hvs, rfl⟩

theorem Mapped.member (h : Mapped f element element') :
    Mapped (Prod.map id f) (readMember element) (readMember element') := by
  rintro s ⟨name, w⟩ rest
  simp only [readsTo_member_iff, h _ _ _]
  constructor
  · rintro ⟨t, u, hname, hcolon, v, hv, rfl⟩
    exact ⟨(name, v), ⟨t, u, hname, hcolon, hv⟩, rfl⟩
  · rintro ⟨⟨_, v⟩, ⟨t, u, hname, hcolon, hv⟩, ⟨⟩⟩
    exact ⟨t, u, hname, hcolon, v, hv, rfl⟩

theorem Mapped.members (h : Mapped f element element') :
    Mapped (List.map (Prod.map id f)) (readMembers element) (readMembers element') := by
  intro s ws rest
  simp only [readsTo_members_iff]
  constructor
  · intro hws
    induction hws with
    | last hw hend =>
      obtain ⟨m, hm, rfl⟩ := (h.member _ _ _).1 hw
      exact ⟨[m], .last hm hend, rfl⟩
    | next hw hcomma hquote _ ih =>
      obtain ⟨m, hm, rfl⟩ := (h.member _ _ _).1 hw
      obtain ⟨ms, hms, rfl⟩ := ih
      exact ⟨m :: ms, .next hm hcomma hquote hms, rfl⟩
  · rintro ⟨ms, hms, rfl⟩
    induction hms with
    | last hm hend => exact .last ((h.member _ _ _).2 ⟨_, hm, rfl⟩) hend
    | next hm hcomma hquote _ ih =>
      exact .next ((h.member _ _ _).2 ⟨_, hm, rfl⟩) hcomma hquote ih

theorem Mapped.object (h : Mapped f element element') :
    Mapped (List.map (Prod.map id f)) (readObject element) (readObject element') := by
  intro s ws rest
  simp only [readsTo_object_iff, ← readsTo_members_iff, h.members _ _ _]
  constructor
  · rintro (⟨rfl, hend⟩ | ⟨t, hquote, ms, hms, rfl⟩)
    · exact ⟨[], .inl ⟨rfl, hend⟩, rfl⟩
    · exact ⟨ms, .inr ⟨t, hquote, hms⟩, rfl⟩
  · rintro ⟨ms, ⟨rfl, hend⟩ | ⟨t, hquote, hms⟩, rfl⟩
    · exact .inl ⟨rfl, hend⟩
    · exact .inr ⟨t, hquote, ms, hms, rfl⟩

end Mapped

/-! ### Trees and values -/

mutual

/-- The value of a tree: all of its objects are put in order. -/
def ordered : Json → Json
  | array elements => array (orderedElements elements)
  | object members => ofMembers (orderedMembers members)
  | value => value

/-- The values of the elements of an array. -/
def orderedElements : List Json → List Json
  | [] => []
  | value :: rest => value.ordered :: orderedElements rest

/-- Members with the values of their trees. -/
def orderedMembers : List (String × Json) → List (String × Json)
  | [] => []
  | (name, value) :: rest => (name, value.ordered) :: orderedMembers rest

end

theorem orderedElements_eq_map (elements : List Json) :
    orderedElements elements = elements.map ordered := by
  induction elements with
  | nil => rfl
  | cons value rest ih => rw [orderedElements, ih, List.map_cons]

theorem orderedMembers_eq_map (members : List (String × Json)) :
    orderedMembers members = members.map (Prod.map id ordered) := by
  induction members with
  | nil => rfl
  | cons member rest ih =>
    rw [orderedMembers, ih, List.map_cons]
    rfl

/-- A scalar is no container. -/
theorem ordered_of_readScalar {c : Char} {t rest : List Char} {v : Json}
    (h : ReadsTo (readScalar c t) v rest) : v.ordered = v := by
  cases scalar_of_readsTo h with
  | null => rfl
  | true => rfl
  | false => rfl
  | string => rfl
  | number => rfl

/-- **The value of a text is its tree with the objects put in order.** -/
theorem mapped_readValue (levels : Nat) : Mapped ordered (readTree levels) (readValue levels) := by
  simp only [← readWith_ofMembers, readTree]
  induction levels with
  | zero =>
    intro s w rest
    simp only [readsTo_with_iff]
    constructor
    · rintro ⟨hfirst, harray, hobject, h⟩
      exact ⟨w, .scalar hfirst harray hobject h, ordered_of_readScalar h⟩
    · rintro ⟨v, ⟨hfirst, harray, hobject, h⟩, rfl⟩
      rw [ordered_of_readScalar h]
      exact .scalar hfirst harray hobject h
  | succ levels ih =>
    intro s w rest
    simp only [readsTo_with_iff]
    constructor
    · rintro (⟨hfirst, harray, hobject, h⟩ | ⟨hfirst, h⟩ | ⟨hfirst, h⟩)
      · exact ⟨w, .scalar hfirst harray hobject h, ordered_of_readScalar h⟩
      · obtain ⟨vs, hvs, rfl⟩ := (ih.array _ _ _).1 h
        exact ⟨_, .array hfirst hvs, by rw [ordered, orderedElements_eq_map]⟩
      · obtain ⟨ms, hms, rfl⟩ := (ih.object _ _ _).1 h
        exact ⟨_, .object hfirst hms, by rw [ordered, orderedMembers_eq_map]⟩
    · rintro ⟨v, ⟨hfirst, harray, hobject, h⟩ | ⟨hfirst, h⟩ | ⟨hfirst, h⟩, rfl⟩
      · rw [ordered_of_readScalar h]
        exact .scalar hfirst harray hobject h
      · rw [ordered, orderedElements_eq_map]
        exact .array hfirst ((ih.array _ _ _).2 ⟨_, h, rfl⟩)
      · rw [ordered, orderedMembers_eq_map]
        exact .object hfirst ((ih.object _ _ _).2 ⟨_, h, rfl⟩)

/-- **A text that has a value has a tree**, and the value is the tree with its objects in order. -/
theorem parse_eq_ok_iff_tree {text : String} {v : Json} :
    parse text = .ok v ↔ ∃ tree, Writes text tree ∧ tree.ordered = v := by
  rw [parse_eq_ok_iff]
  constructor
  · rintro ⟨rest, hread, hend⟩
    obtain ⟨tree, htree, heq⟩ := (mapped_readValue _ _ _ _).1 hread
    exact ⟨tree, ⟨rest, htree, hend⟩, heq⟩
  · rintro ⟨tree, ⟨rest, htree, hend⟩, heq⟩
    exact ⟨rest, (mapped_readValue _ _ _ _).2 ⟨tree, htree, heq⟩, hend⟩

end ContractBindings.Json
