import ContractBindings.Proofs.Json.StringLiteral
import ContractBindings.Proofs.ScriptHash.Spelling
import ContractBindings.ScriptHash.Json
import Mathlib.Data.String.Basic

/-!
# The written form of script hashes

A hash may be spelled in many ways and is written in one (`text_canonical`). The written form is a
spelling, so it is read back, as it stands and as a JSON value. And it puts hashes in the order that
their bytes put them in: a byte is its high half and then its low half, a half is one digit, and the
digits stand in the order of what they are worth (`encode_lt_encode_iff`). So it makes no difference
whether hashes or their written forms are sorted and freed of repeats.
-/

namespace ContractBindings.ScriptHash

/-! ### Reading back -/

theorem spells_text (hash : ScriptHash) : Spells hash hash.text := by
  have hsmall : ∀ v < 16, (Hex.digit v).toLower = Hex.digit v := by decide
  refine ⟨[], ['0', 'x'], Hex.encode hash.bytes, [], ?_, by simp, by simp, by decide, ?_⟩
  · rw [text, String.toList_ofList, List.append_nil]
    rfl
  · rw [encode_eq_map_halves, List.map_map]
    exact List.map_congr_left fun v hv ↦ hsmall v (lt_of_mem_halves v hv)

theorem parse_text (hash : ScriptHash) : parse hash.text = .ok hash :=
  parse_eq_ok_iff_spells.2 (spells_text hash)

theorem text_injective : Function.Injective text := by
  intro a b h
  have hparse := parse_text a
  rw [h, parse_text b] at hparse
  exact (Except.ok.inj hparse).symm

theorem ofJson_toJson (hash : ScriptHash) : ofJson hash.toJson = .ok hash := by
  have hstring : Json.Shape.string hash.toJson = .ok hash.text := rfl
  rw [ofJson, hstring]
  dsimp only [Except.mapError, bind, Except.bind]
  rw [parse_text]

/-- The written JSON value of a hash is read as that value. -/
theorem parse_toJson_text (hash : ScriptHash) :
    Json.parse hash.toJson.text = .ok hash.toJson := by
  rw [toJson, Json.text, Json.parse_stringLiteral]

/-! ### Order -/

theorem digit_lt_digit_iff {m n : Nat} (hm : m < 16) (hn : n < 16) :
    Hex.digit m < Hex.digit n ↔ m < n := by
  have hall : ∀ m < 16, ∀ n < 16, Hex.digit m < Hex.digit n ↔ m < n := by decide
  exact hall m hm n hn

theorem digit_inj {m n : Nat} (hm : m < 16) (hn : n < 16) : Hex.digit m = Hex.digit n ↔ m = n := by
  have hall : ∀ m < 16, ∀ n < 16, Hex.digit m = Hex.digit n ↔ m = n := by decide
  exact hall m hm n hn

theorem encode_cons (b : UInt8) (bytes : List UInt8) :
    Hex.encode (b :: bytes) =
      Hex.digit (b.toNat / 16) :: Hex.digit (b.toNat % 16) :: Hex.encode bytes :=
  rfl

/-- **Digits are in the order of the bytes that they are written for.** -/
theorem encode_lt_encode_iff (bytes others : List UInt8) :
    Hex.encode bytes < Hex.encode others ↔ bytes < others := by
  induction bytes generalizing others with
  | nil =>
    cases others with
    | nil => simp [Hex.encode]
    | cons b others => simp [Hex.encode, Hex.encodeByte]
  | cons a bytes ih =>
    cases others with
    | nil => simp [Hex.encode]
    | cons b others =>
      have ha := a.toNat_lt
      have hb := b.toNat_lt
      -- Bytes compare as their halves do, the high ones first.
      have hlt : a.toNat < b.toNat ↔ a.toNat / 16 < b.toNat / 16 ∨
          a.toNat / 16 = b.toNat / 16 ∧ a.toNat % 16 < b.toNat % 16 := by omega
      have heq : a.toNat = b.toNat ↔
          a.toNat / 16 = b.toNat / 16 ∧ a.toNat % 16 = b.toNat % 16 := by omega
      rw [encode_cons, encode_cons, List.cons_lt_cons_iff, List.cons_lt_cons_iff,
        List.cons_lt_cons_iff, ih,
        digit_lt_digit_iff (by omega) (by omega), digit_lt_digit_iff (by omega) (by omega),
        digit_inj (by omega) (by omega), digit_inj (by omega) (by omega), UInt8.lt_iff_toNat_lt,
        ← UInt8.toNat_inj, hlt, heq, and_or_left, or_assoc, and_assoc]

theorem text_lt_text_iff (a b : ScriptHash) : a.text < b.text ↔ a.bytes < b.bytes := by
  have hmark (c : Char) (s t : List Char) : c :: s < c :: t ↔ s < t := by
    rw [List.cons_lt_cons_iff, and_iff_right rfl]
    exact or_iff_right (lt_irrefl c)
  rw [String.lt_iff_toList_lt, text, text, String.toList_ofList, String.toList_ofList, toChars,
    toChars, hmark, hmark, encode_lt_encode_iff]

/-- **Hashes are in the order of their written forms.** -/
theorem le_iff_text_le (a b : ScriptHash) : a.le b = true ↔ a.text ≤ b.text := by
  rw [le, decide_eq_true_eq, ← not_lt, text_lt_text_iff, List.not_lt]

/-! ### Sorting -/

/-- Texts in ascending order, each once. -/
def sortDistinctTexts (texts : List String) : List String :=
  (texts.mergeSort (· ≤ ·)).eraseDups

/-- Repeats are told by a function that never gives one value twice. -/
theorem map_eraseDups {α β : Type} [DecidableEq α] [DecidableEq β] {f : α → β}
    (hf : Function.Injective f) (l : List α) : l.eraseDups.map f = (l.map f).eraseDups := by
  induction h : l.length using Nat.strong_induction_on generalizing l with
  | _ n ih =>
    cases l with
    | nil => rfl
    | cons a l =>
      have hshorter : (l.filter fun b ↦ !b == a).length < n := by
        have hle := List.length_filter_le (fun b ↦ !b == a) l
        rw [List.length_cons] at h
        omega
      have hsame : (fun b ↦ !b == f a) ∘ f = fun b ↦ !b == a := by
        funext b
        simp [hf.eq_iff]
      rw [List.eraseDups_cons, List.map_cons, List.map_cons, List.eraseDups_cons,
        ih _ hshorter _ rfl, List.filter_map, hsame]

theorem map_text_sortDistinct (hashes : List ScriptHash) :
    (sortDistinct hashes).map text = sortDistinctTexts (hashes.map text) := by
  have horder : ∀ a ∈ hashes, ∀ b ∈ hashes, a.le b = decide (a.text ≤ b.text) :=
    fun a _ b _ ↦ Bool.eq_iff_iff.2 ((le_iff_text_le a b).trans decide_eq_true_iff.symm)
  have hsorted : (hashes.mergeSort le).map text = (hashes.map text).mergeSort (· ≤ ·) :=
    List.map_mergeSort horder
  rw [sortDistinct, sortDistinctTexts, map_eraseDups text_injective, hsorted]

/-- **The written form of a hash is canonical.** It is read back, a text is read as the hash exactly
if it spells it, the JSON value that is written for a hash is read back, and hashes are in the order
of their written forms, so that both may be sorted and freed of repeats. -/
theorem text_canonical :
    (∀ hash : ScriptHash, parse hash.text = .ok hash) ∧
    (∀ (hash : ScriptHash) (text : String), parse text = .ok hash ↔ Spells hash text) ∧
    (∀ hash : ScriptHash, Json.parse hash.toJson.text = .ok hash.toJson ∧
      ofJson hash.toJson = .ok hash) ∧
    (∀ a b : ScriptHash, a.le b = true ↔ a.text ≤ b.text) ∧
    ∀ hashes : List ScriptHash,
      (sortDistinct hashes).map text = sortDistinctTexts (hashes.map text) :=
  ⟨parse_text, fun _ _ ↦ parse_eq_ok_iff_spells,
    fun hash ↦ ⟨parse_toJson_text hash, ofJson_toJson hash⟩, le_iff_text_le, map_text_sortDistinct⟩

end ContractBindings.ScriptHash
