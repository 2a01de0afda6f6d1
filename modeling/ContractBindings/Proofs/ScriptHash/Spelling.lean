import ContractBindings.Proofs.Results
import ContractBindings.Proofs.Text.Letters
import ContractBindings.Proofs.Text.Runs
import ContractBindings.ScriptHash

/-!
# Spellings of script hashes

What may be written for a hash, said without a reader: its digits in either case, with a mark in
front of them or none, and spaces around the whole (`Spells`). The reader accepts these texts for
the hash and no others (`parse_eq_ok_iff_spells`).

The reader goes by the values of digits where a spelling goes by the digits. The halves of the bytes
stand between the two (`halves`): pairs of values are taken for them, and digits are written for
them.
-/

namespace ContractBindings.ScriptHash

variable {hash : ScriptHash} {text : String} {c : Char} {s digits mark : List Char} {v index : Nat}
  {values : List Nat} {bytes : List UInt8}

/-- The marks that may stand in front of the digits. -/
def marks : List (List Char) :=
  [[], ['0', 'x'], ['0', 'X']]

/-- A text for a hash: its digits in either case, behind a mark or none, with spaces around the
whole. -/
def Spells (hash : ScriptHash) (text : String) : Prop :=
  ∃ before mark digits after, text.toList = before ++ (mark ++ digits) ++ after ∧
    (∀ c ∈ before, Text.isSpace c = true) ∧ (∀ c ∈ after, Text.isSpace c = true) ∧
    mark ∈ marks ∧ digits.map Char.toLower = Hex.encode hash.bytes

/-- The length of a hash with the byte `ab` throughout. -/
theorem length_replicate_ab : (List.replicate size (0xab : UInt8)).length = size :=
  List.length_replicate

/-! ### Digits -/

theorem digitValue?_eq_none (h : 128 ≤ c.toNat) : Hex.digitValue? c = none := by
  have hle : ∀ d : Char, d.toNat < 128 → ¬ c ≤ d := by
    intro d hd hcd
    have hnat : c.toNat ≤ d.toNat := hcd
    omega
  rw [Hex.digitValue?, if_neg (mt And.right (hle '9' (by decide))),
    if_neg (mt And.right (hle 'f' (by decide))), if_neg (mt And.right (hle 'F' (by decide)))]

/-- A digit is what the digit of its value is the small form of. -/
theorem digitValue?_eq_some_iff :
    Hex.digitValue? c = some v ↔ v < 16 ∧ c.toLower = Hex.digit v := by
  by_cases hc : c.toNat < 128
  · obtain ⟨hvalue, hdigit⟩ : (∀ v ∈ Hex.digitValue? c, v < 16) ∧
        ∀ v < 16, Hex.digitValue? c = some v ↔ c.toLower = Hex.digit v :=
      Text.of_toNat_lt (p := fun c ↦ (∀ v ∈ Hex.digitValue? c, v < 16) ∧
        ∀ v < 16, Hex.digitValue? c = some v ↔ c.toLower = Hex.digit v) (by decide +kernel) hc
    constructor
    · intro h
      exact ⟨hvalue v h, (hdigit v (hvalue v h)).1 h⟩
    · rintro ⟨hv, h⟩
      exact (hdigit v hv).2 h
  · rw [digitValue?_eq_none (Nat.le_of_not_lt hc)]
    have hsmall : ∀ v < 16, (Hex.digit v).toNat < 128 := by decide
    have hupper : ¬ c.isUpper = true := by
      rw [Text.isUpper_iff]
      omega
    rw [Text.toLower_of_not_isUpper hupper]
    refine iff_of_false nofun ?_
    rintro ⟨hv, rfl⟩
    exact hc (hsmall v hv)

/-- Neither a space nor the letter of a mark is a digit, and a digit is one byte long. -/
theorem digit_spec (h : (Hex.digitValue? c).isSome = true) :
    c.utf8Size = 1 ∧ Text.isSpace c = false ∧ c ≠ 'x' ∧ c ≠ 'X' := by
  have hc : c.toNat < 128 := by
    by_contra hc
    rw [digitValue?_eq_none (Nat.le_of_not_lt hc)] at h
    cases h
  revert h
  exact Text.of_toNat_lt (p := fun c ↦ (Hex.digitValue? c).isSome = true →
    c.utf8Size = 1 ∧ Text.isSpace c = false ∧ c ≠ 'x' ∧ c ≠ 'X') (by decide +kernel) hc

/-- **Digits have values exactly if these are what their small forms are written for.** -/
theorem digitValues_eq_ok_iff :
    digitValues index digits = .ok values ↔
      (∀ v ∈ values, v < 16) ∧ digits.map Char.toLower = values.map Hex.digit := by
  induction digits generalizing index values with
  | nil =>
    rw [digitValues, List.map_nil]
    constructor
    · rintro ⟨⟩
      exact ⟨List.forall_mem_nil _, rfl⟩
    · rintro ⟨-, h⟩
      rw [List.map_eq_nil_iff.1 h.symm]
  | cons c digits ih =>
    rw [digitValues, List.map_cons]
    constructor
    · intro h
      split at h
      case h_1 => cases h
      case h_2 v hv =>
        obtain ⟨rest, hrest, h⟩ := exists_of_bind_eq_ok h
        cases h
        obtain ⟨hsmall, hdigits⟩ := ih.1 hrest
        obtain ⟨hlt, hdigit⟩ := digitValue?_eq_some_iff.1 hv
        exact ⟨List.forall_mem_cons.2 ⟨hlt, hsmall⟩, by rw [List.map_cons, hdigit, hdigits]⟩
    · rintro ⟨hsmall, h⟩
      obtain ⟨v, rest, rfl, hdigit, hdigits⟩ := List.map_eq_cons_iff.1 h.symm
      obtain ⟨hlt, hsmall⟩ := List.forall_mem_cons.1 hsmall
      rw [digitValue?_eq_some_iff.2 ⟨hlt, hdigit.symm⟩]
      dsimp only
      rw [ih.2 ⟨hsmall, hdigits.symm⟩]
      rfl

/-- Texts that have values consist of digits. -/
theorem forall_isSome_of_digitValues (h : digitValues index digits = .ok values) :
    ∀ c ∈ digits, (Hex.digitValue? c).isSome = true := by
  induction digits generalizing index values with
  | nil => exact List.forall_mem_nil _
  | cons c digits ih =>
    rw [digitValues] at h
    split at h
    case h_1 => cases h
    case h_2 v hv =>
      obtain ⟨rest, hrest, -⟩ := exists_of_bind_eq_ok h
      exact List.forall_mem_cons.2 ⟨by rw [hv]; rfl, ih hrest⟩

/-- Digits are one byte long each. -/
theorem byteLength_of_digits (h : ∀ c ∈ digits, (Hex.digitValue? c).isSome = true) :
    Text.byteLength digits = digits.length := by
  induction digits with
  | nil => rfl
  | cons c digits ih =>
    obtain ⟨hc, hdigits⟩ := List.forall_mem_cons.1 h
    show c.utf8Size + Text.byteLength digits = digits.length + 1
    rw [(digit_spec hc).1, ih hdigits, Nat.add_comm]

/-! ### Halves of bytes -/

/-- The halves of bytes, the high one of each first. -/
def halves (bytes : List UInt8) : List Nat :=
  bytes.flatMap fun b ↦ [b.toNat / 16, b.toNat % 16]

theorem encode_eq_map_halves (bytes : List UInt8) :
    Hex.encode bytes = (halves bytes).map Hex.digit := by
  rw [Hex.encode, halves, List.map_flatMap]
  rfl

theorem lt_of_mem_halves : ∀ v ∈ halves bytes, v < 16 := by
  intro v hv
  obtain ⟨b, -, hv⟩ := List.mem_flatMap.1 hv
  have hb := b.toNat_lt
  rcases List.mem_pair.1 hv with rfl | rfl
  · omega
  · omega

theorem length_halves (bytes : List UInt8) : (halves bytes).length = 2 * bytes.length := by
  induction bytes with
  | nil => rfl
  | cons b bytes ih =>
    show (halves bytes).length + 2 = 2 * (bytes.length + 1)
    rw [ih, Nat.mul_succ]

theorem pairs_halves (bytes : List UInt8) : pairs (halves bytes) = bytes := by
  induction bytes with
  | nil => rfl
  | cons b bytes ih =>
    have hbyte : 16 * (b.toNat / 16) + b.toNat % 16 = b.toNat := Nat.div_add_mod _ _
    show UInt8.ofNat (16 * (b.toNat / 16) + b.toNat % 16) :: pairs (halves bytes) = _
    rw [hbyte, UInt8.ofNat_toNat, ih]

/-- Values that go in pairs are the halves of the bytes that are made of them. -/
theorem halves_pairs : (values : List Nat) → (∀ v ∈ values, v < 16) →
    values.length % 2 = 0 → halves (pairs values) = values
  | [], _, _ => rfl
  | [_], _, h => by cases h
  | high :: low :: rest, hsmall, heven => by
    simp only [List.forall_mem_cons] at hsmall
    obtain ⟨hhigh, hlow, hrest⟩ := hsmall
    have hbyte : (UInt8.ofNat (16 * high + low)).toNat = 16 * high + low := by
      rw [UInt8.toNat_ofNat']
      omega
    have htail : halves (pairs rest) = rest := by
      refine halves_pairs rest hrest ?_
      rw [List.length_cons, List.length_cons] at heven
      omega
    show [_, _] ++ halves (pairs rest) = _
    rw [hbyte, htail, show (16 * high + low) / 16 = high by omega,
      show (16 * high + low) % 16 = low by omega]
    rfl

/-! ### Spaces and marks -/

/-- Trimming leaves what neither begins nor ends with a space. -/
theorem trim_append {before core after : List Char} (hbefore : ∀ c ∈ before, Text.isSpace c = true)
    (hafter : ∀ c ∈ after, Text.isSpace c = true) (hne : core ≠ [])
    (hcore : ∀ c ∈ core, Text.isSpace c = false) :
    Text.trim (before ++ core ++ after) = core := by
  have hfront : Text.StopsRun Text.isSpace (core ++ after) := by
    obtain ⟨c, rest, rfl⟩ := List.exists_cons_of_ne_nil hne
    exact Text.stopsRun_cons (hcore c List.mem_cons_self)
  have hback : Text.StopsRun Text.isSpace core.reverse := by
    intro c hc
    exact hcore c (List.mem_reverse.1 (List.mem_of_mem_head? hc))
  have hafter' : ∀ c ∈ after.reverse, Text.isSpace c = true :=
    fun c hc ↦ hafter c (List.mem_reverse.1 hc)
  rw [Text.trim, Text.skipSpaces, Text.skipSpaces, List.append_assoc,
    Text.dropWhile_append hbefore hfront, List.reverse_append,
    Text.dropWhile_append hafter' hback, List.reverse_reverse]

/-- Around what trimming leaves there are spaces. -/
theorem exists_trim (s : List Char) :
    ∃ before after, s = before ++ Text.trim s ++ after ∧
      (∀ c ∈ before, Text.isSpace c = true) ∧ ∀ c ∈ after, Text.isSpace c = true := by
  let last := (Text.skipSpaces s).reverse.takeWhile Text.isSpace
  refine ⟨s.takeWhile Text.isSpace, last.reverse, ?_, fun _ hc ↦ List.mem_takeWhile_imp hc,
    fun _ hc ↦ List.mem_takeWhile_imp (List.mem_reverse.1 hc)⟩
  calc s = s.takeWhile Text.isSpace ++ Text.skipSpaces s := List.takeWhile_append_dropWhile.symm
    _ = s.takeWhile Text.isSpace ++
          (last ++ (Text.skipSpaces s).reverse.dropWhile Text.isSpace).reverse := by
        rw [List.takeWhile_append_dropWhile, List.reverse_reverse]
    _ = s.takeWhile Text.isSpace ++ Text.trim s ++ last.reverse := by
        rw [List.reverse_append, List.append_assoc]
        rfl

theorem dropMark_append (hmark : mark ∈ marks)
    (hdigits : ∀ c ∈ digits, (Hex.digitValue? c).isSome = true) :
    dropMark (mark ++ digits) = digits := by
  rcases List.mem_cons.1 hmark with rfl | hmark
  · rw [List.nil_append]
    -- The letter of a mark is no digit.
    unfold dropMark
    split
    case h_1 => exact absurd rfl (digit_spec (hdigits 'x' (by simp))).2.2.1
    case h_2 => exact absurd rfl (digit_spec (hdigits 'X' (by simp))).2.2.2
    case h_3 => rfl
  · rcases List.mem_pair.1 hmark with rfl | rfl
    · rfl
    · rfl

theorem exists_dropMark (s : List Char) : ∃ mark ∈ marks, s = mark ++ dropMark s := by
  unfold dropMark
  split
  case h_1 => exact ⟨['0', 'x'], by decide, rfl⟩
  case h_2 => exact ⟨['0', 'X'], by decide, rfl⟩
  case h_3 => exact ⟨[], by decide, rfl⟩

/-! ### The reader -/

theorem ofChars_eq_ok_iff :
    ofChars s = .ok hash ↔
      Text.byteLength (dropMark (Text.trim s)) = 2 * size ∧
        ∃ values, digitValues 0 (dropMark (Text.trim s)) = .ok values ∧
          pairs values = hash.bytes := by
  rw [ofChars]
  constructor
  · intro h
    dsimp only at h
    split at h
    case isTrue => cases h
    case isFalse hlength =>
      obtain ⟨values, hvalues, h⟩ := exists_of_bind_eq_ok h
      split at h
      case isTrue =>
        cases h
        exact ⟨not_not.1 hlength, values, hvalues, rfl⟩
      case isFalse => cases h
  · rintro ⟨hlength, values, hvalues, hbytes⟩
    dsimp only
    rw [if_neg (not_not.2 hlength), hvalues]
    show (if h : (pairs values).length = size then _ else _) = _
    rw [dif_pos (hbytes ▸ hash.length_bytes)]
    obtain ⟨bytes, hbytes'⟩ := hash
    obtain rfl : pairs values = bytes := hbytes
    rfl

/-- **A text is read as a hash exactly if it spells the hash.** -/
theorem parse_eq_ok_iff_spells : parse text = .ok hash ↔ Spells hash text := by
  rw [parse, ofChars_eq_ok_iff]
  constructor
  · rintro ⟨hlength, values, hvalues, hbytes⟩
    obtain ⟨before, after, htext, hbefore, hafter⟩ := exists_trim text.toList
    obtain ⟨mark, hmark, hmarked⟩ := exists_dropMark (Text.trim text.toList)
    refine ⟨before, mark, dropMark (Text.trim text.toList), after, ?_, hbefore, hafter, hmark, ?_⟩
    · rw [← hmarked]
      exact htext
    · obtain ⟨hsmall, hdigits⟩ := digitValues_eq_ok_iff.1 hvalues
      have heven : values.length % 2 = 0 := by
        have hcount := congrArg List.length hdigits
        rw [byteLength_of_digits (forall_isSome_of_digitValues hvalues)] at hlength
        rw [List.length_map, List.length_map] at hcount
        omega
      rw [hdigits, ← hbytes, encode_eq_map_halves, halves_pairs values hsmall heven]
  · rintro ⟨before, mark, digits, after, htext, hbefore, hafter, hmark, hdigits⟩
    rw [encode_eq_map_halves] at hdigits
    have hvalues : digitValues 0 digits = .ok (halves hash.bytes) :=
      digitValues_eq_ok_iff.2 ⟨lt_of_mem_halves, hdigits⟩
    have hall := forall_isSome_of_digitValues hvalues
    have hlength : digits.length = 2 * size := by
      have hcount := congrArg List.length hdigits
      rwa [List.length_map, List.length_map, length_halves, hash.length_bytes] at hcount
    have htrim : Text.trim text.toList = mark ++ digits := by
      rw [htext]
      refine trim_append hbefore hafter ?_ ?_
      · rintro h
        rw [(List.append_eq_nil_iff.1 h).2] at hlength
        cases hlength
      · have hmarks : ∀ mark ∈ marks, mark.all (Text.isSpace · == false) = true := by decide
        refine List.forall_mem_append.2 ⟨fun c hc ↦ ?_, fun c hc ↦ (digit_spec (hall c hc)).2.1⟩
        exact eq_of_beq (List.all_eq_true.1 (hmarks mark hmark) c hc)
    rw [htrim, dropMark_append hmark hall, byteLength_of_digits hall]
    exact ⟨hlength, _, hvalues, pairs_halves hash.bytes⟩

end ContractBindings.ScriptHash
