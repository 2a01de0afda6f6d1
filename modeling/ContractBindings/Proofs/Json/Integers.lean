import ContractBindings.Proofs.Json.StringLiteral
import ContractBindings.Proofs.Text.Runs

/-!
# Integers in JSON texts

What is written for an integer of 64 bits, with or without a sign, is read as that integer
(`readsTo_integer`). Its digits are taken up to the first character that is none, so the text has to
go on with a separator or end; they fit the significand all together, since the value of some of the
digits is no more than that of all (`absorb_eq`). Only zero begins with a zero.

A zero behind a minus is no integer but the number of binary64 that keeps the minus. It is written
with a point, and what is written is read as that number again (`readsTo_minusZero`).
-/

namespace ContractBindings.Json

open Text (StopsRun)

/-- The integers that 64 bits hold with or without a sign. -/
def InRange (n : Int) : Prop :=
  -(Word.count63 : Int) ≤ n ∧ n < (Word.count64 : Int)

/-- A text that ends or goes on with a comma or the end of a container. -/
def Follows (rest : List Char) : Prop :=
  ∀ c ∈ rest.head?, c ∈ [',', ']', '\x7d']

theorem Follows.cons {c : Char} (hc : c ∈ [',', ']', '\x7d']) (rest : List Char) :
    Follows (c :: rest) := by
  intro d hd
  rw [List.head?_cons, Option.mem_some] at hd
  exact hd ▸ hc

theorem Follows.nil : Follows [] :=
  fun _ h ↦ absurd h (Option.not_mem_none _)

/-! ### Digits -/

theorem le_ofDigitChars (digits : List Char) (n : Nat) : n ≤ Nat.ofDigitChars 10 digits n := by
  induction digits generalizing n with
  | nil => exact Nat.le_refl n
  | cons c digits ih =>
    rw [Nat.ofDigitChars_cons]
    exact Nat.le_trans (by omega) (ih _)

/-- **Digits are all taken if their value fits.** -/
theorem absorb_eq {digits : List Char} {significand : Nat} (taken : Nat)
    (h : Nat.ofDigitChars 10 digits significand ≤ greatestSignificand) :
    absorb significand taken digits =
      (Nat.ofDigitChars 10 digits significand, taken + digits.length) := by
  induction digits generalizing significand taken with
  | nil => rfl
  | cons c digits ih =>
    rw [Nat.ofDigitChars_cons, Nat.mul_comm] at h
    have hfits : ¬ greatestSignificand < significand * 10 + (c.toNat - '0'.toNat) :=
      Nat.not_lt.2 (Nat.le_trans (le_ofDigitChars digits _) h)
    rw [absorb, if_neg hfits, ih _ h, Nat.ofDigitChars_cons, Nat.mul_comm 10, List.length_cons]
    congr 1
    omega

/-- The digits of a positive number do not begin with a zero. -/
theorem exists_digits {n : Nat} (hn : n ≠ 0) :
    ∃ c digits, Nat.toDigits 10 n = c :: digits ∧ c ≠ '0' := by
  induction n using Nat.strongRecOn with
  | ind n ih =>
    by_cases hlt : n < 10
    · refine ⟨n.digitChar, [], Nat.toDigits_of_lt_base hlt, ?_⟩
      exact fun h ↦ hn (Nat.digitChar_eq_zero.1 h)
    · obtain ⟨c, digits, heq, hc⟩ := ih (n / 10) (by omega) (by omega)
      refine ⟨c, digits ++ [(n % 10).digitChar], ?_, hc⟩
      rw [Nat.toDigits_of_base_le (by decide) (by omega), heq, List.cons_append]

theorem isDigit_toDigits (n : Nat) : ∀ c ∈ Nat.toDigits 10 n, c.isDigit = true :=
  fun _ ↦ Nat.isDigit_of_mem_toDigits (by decide) (by decide)

theorem exists_toDigits (n : Nat) :
    ∃ c digits, Nat.toDigits 10 n = c :: digits ∧ c.isDigit = true := by
  obtain ⟨c, digits, heq⟩ := List.exists_cons_of_ne_nil (Nat.toDigits_ne_nil (n := n) (b := 10))
  exact ⟨c, digits, heq, isDigit_toDigits n c (heq ▸ List.mem_cons_self)⟩

/-! ### Numbers -/

variable {rest : List Char}

/-- What follows an integer neither gives it more digits nor a point or an exponent. -/
theorem readsTo_afterInteger {s : List Char} (negative : Bool) (significand : Nat)
    (hrest : Follows rest) (h : rest.length < s.length) :
    ReadsTo (readAfterInteger (s := s) negative significand 0 rest h)
      (.ofSignificand negative significand) rest := by
  rcases rest with _ | ⟨c, rest⟩
  · exact ⟨_, rfl, rfl, rfl⟩
  · have hc := hrest c rfl
    simp only [List.mem_cons, List.not_mem_nil, or_false] at hc
    rcases hc with rfl | rfl | rfl
    · exact ⟨_, rfl, rfl, rfl⟩
    · exact ⟨_, rfl, rfl, rfl⟩
    · exact ⟨_, rfl, rfl, rfl⟩

theorem stopsRun_of_follows (hrest : Follows rest) : StopsRun Char.isDigit rest := by
  have hends : [',', ']', '\x7d'].all (·.isDigit == false) = true := by decide
  exact fun c hc ↦ eq_of_beq (List.all_eq_true.1 hends c (hrest c hc))

theorem readsTo_magnitude (negative : Bool) {n : Nat} (hn : n < Word.count64)
    (hrest : Follows rest) :
    ReadsTo (readMagnitude negative (Nat.toDigits 10 n ++ rest)) (.ofSignificand negative n)
      rest := by
  by_cases hzero : n = 0
  · subst hzero
    rw [Nat.toDigits_zero, List.singleton_append]
    rcases rest with _ | ⟨c, rest⟩
    · exact readsTo_afterInteger negative 0 hrest _
    · have hc : ¬ c.isDigit = true := by rw [stopsRun_of_follows hrest c rfl]; decide
      simp only [readMagnitude, if_neg hc]
      exact readsTo_afterInteger negative 0 hrest _
  · obtain ⟨c, digits, heq, hc⟩ := exists_digits hzero
    have hdigits := isDigit_toDigits n
    rw [heq] at hdigits
    obtain ⟨hcdigit, hdigits⟩ := List.forall_mem_cons.1 hdigits
    have htake := Text.takeWhile_append hdigits (stopsRun_of_follows hrest)
    have hskip : skipDigits (digits ++ rest) = rest :=
      Text.dropWhile_append hdigits (stopsRun_of_follows hrest)
    have habsorb : absorb 0 0 (c :: digits) = (n, digits.length + 1) := by
      rw [← heq, absorb_eq]
      · rw [Nat.ofDigitChars_ten_toDigits, heq, Nat.zero_add, List.length_cons]
      · rw [Nat.ofDigitChars_ten_toDigits]
        exact Nat.le_pred_of_lt hn
    rw [heq, List.cons_append, readMagnitude]
    · simp only [if_pos hcdigit, htake, habsorb, hskip, List.length_cons, Nat.sub_self]
      exact readsTo_afterInteger negative n hrest _
    · exact hc

/-- The characters that numbers begin with. -/
def StartsNumber (c : Char) : Prop :=
  c = '-' ∨ c.isDigit = true

section StartsNumber

variable {c : Char}

theorem StartsNumber.ne (hc : StartsNumber c) {d : Char} (hminus : d ≠ '-')
    (hdigit : d.isDigit = false) : c ≠ d := by
  rintro rfl
  exact hc.elim hminus fun h ↦ absurd (hdigit.symm.trans h) (by decide)

theorem StartsNumber.isBlank (hc : StartsNumber c) : isBlank c = false := by
  simp only [Json.isBlank, Bool.or_eq_false_iff, beq_eq_false_iff_ne]
  exact ⟨⟨⟨hc.ne (by decide) rfl, hc.ne (by decide) rfl⟩, hc.ne (by decide) rfl⟩,
    hc.ne (by decide) rfl⟩

/-- A number is recognized by its first character. -/
theorem readsTo_number (levels : Nat) {t : List Char} {n : Number} (hc : StartsNumber c)
    (h : ReadsTo (readNumber (c :: t)) n rest) :
    ReadsTo (readValue levels (c :: t)) (.number n) rest := by
  have hnumber : (decide (c = '-') || c.isDigit) = true := by
    rwa [Bool.or_eq_true, decide_eq_true_eq]
  refine readsTo_readValue levels hc.isBlank (hc.ne (by decide) rfl) (hc.ne (by decide) rfl) ?_
  obtain ⟨r, hr, rfl, rfl⟩ := h
  rw [readScalar, if_neg (hc.ne (by decide) rfl), if_neg (hc.ne (by decide) rfl),
    if_neg (hc.ne (by decide) rfl), if_neg (hc.ne (by decide) rfl), if_pos hnumber, hr]
  exact ⟨_, rfl, rfl, rfl⟩

end StartsNumber

/-! ### Integers -/

/-- The digits of the magnitude of an integer, behind a minus if it is negative. -/
theorem toList_integerText (n : Int) : (Number.integer n).text.toList =
    if 0 ≤ n then Nat.toDigits 10 n.toNat else '-' :: Nat.toDigits 10 (-n).toNat := by
  have htext : ∀ k : Nat, (k.repr : String).toList = Nat.toDigits 10 k := fun k ↦ by
    rw [Nat.repr_eq_ofList_toDigits, String.toList_ofList]
  rw [Number.text, Int.toString_eq_repr, Int.repr_eq_if]
  split_ifs
  · exact htext _
  · rw [String.toList_append, htext]
    rfl

/-- The text of an integer begins like a number. -/
theorem exists_integerText (n : Int) :
    ∃ c t, (Number.integer n).text.toList = c :: t ∧ StartsNumber c := by
  rw [toList_integerText]
  split_ifs
  · obtain ⟨c, t, heq, hc⟩ := exists_toDigits n.toNat
    exact ⟨c, t, heq, .inr hc⟩
  · exact ⟨'-', _, rfl, .inl rfl⟩

theorem readsTo_integerText {n : Int} (hn : InRange n) (hrest : Follows rest) :
    ReadsTo (readNumber ((Number.integer n).text.toList ++ rest)) (.integer n) rest := by
  obtain ⟨hlow, hhigh⟩ := hn
  have htext := toList_integerText n
  by_cases hpos : 0 ≤ n
  · have hread := readsTo_magnitude false (n := n.toNat) (by omega) hrest
    have hvalue : Number.ofSignificand false n.toNat = .integer n :=
      congrArg Number.integer (Int.toNat_of_nonneg hpos)
    obtain ⟨c, digits, hdigits, hc⟩ := exists_toDigits n.toNat
    have hminus : ∀ t, c :: digits ++ rest ≠ '-' :: t := by
      rintro t ⟨⟩
      cases hc
    rw [hvalue, hdigits] at hread
    rw [htext, if_pos hpos, hdigits, readNumber]
    · exact hread
    · exact hminus
  · have hbound : 0 < (-n).toNat ∧ (-n).toNat ≤ Word.count63 := by omega
    have hread := readsTo_magnitude true (Nat.lt_of_le_of_lt hbound.2 (by decide)) hrest
    have hvalue : Number.ofSignificand true (-n).toNat = .integer n := by
      rw [Number.ofSignificand, if_neg (by decide), if_pos (by simpa using hbound)]
      congr 1
      omega
    rw [hvalue] at hread
    obtain ⟨r, hr, hrvalue, hrrest⟩ := hread
    rw [htext, if_neg hpos]
    refine ⟨r.underHead, ?_, hrvalue, hrrest⟩
    show (do let x ← readMagnitude true (Nat.toDigits 10 (-n).toNat ++ rest); pure x.underHead) = _
    rw [hr]
    rfl

/-- **What is written for an integer of 64 bits is read as that integer.** -/
theorem readsTo_integer (levels : Nat) {n : Int} (hn : InRange n) (hrest : Follows rest) :
    ReadsTo (readValue levels ((Number.integer n).text.toList ++ rest)) (.number (.integer n))
      rest := by
  have hread := readsTo_integerText hn hrest
  obtain ⟨c, t, heq, hc⟩ := exists_integerText n
  rw [heq] at hread ⊢
  exact readsTo_number levels hc hread

/-! ### Zero behind a minus -/

/-- The zero that has a minus. -/
def Number.minusZero : Number :=
  .float 0x8000000000000000

theorem text_minusZero : Number.minusZero.text = "-0.0" := by
  decide +kernel

theorem scaled_minusZero (rest : List Char) :
    scaled true 0 ((0 : Nat) - (1 : Nat)) rest = .ok .minusZero := by
  have hscale : (scale? 0 ((0 : Nat) - (1 : Nat))).map (Number.ofFloat true) = some .minusZero := by
    decide +kernel
  obtain ⟨x, hx, hzero⟩ := Option.map_eq_some_iff.1 hscale
  rw [scaled, hx, ← hzero]

/-- What follows a fraction gives it no exponent. -/
theorem readsTo_optionalExponent {s : List Char} {negative : Bool} {significand : Nat}
    {exponent : Int} {n : Number} (hrest : Follows rest) (h : rest.length < s.length)
    (hn : scaled negative significand exponent rest = .ok n) :
    ReadsTo (readOptionalExponent (s := s) negative significand exponent rest h) n rest := by
  have hread : readOptionalExponent (s := s) negative significand exponent rest h =
      (return ⟨← scaled negative significand exponent rest, rest, h⟩) := by
    rcases rest with _ | ⟨c, rest⟩
    · rfl
    · have hc := hrest c rfl
      simp only [List.mem_cons, List.not_mem_nil, or_false] at hc
      rcases hc with rfl | rfl | rfl
      · rfl
      · rfl
      · rfl
  rw [hread, hn]
  exact ⟨⟨n, rest, h⟩, rfl, rfl, rfl⟩

theorem readsTo_zeroFraction {negative : Bool} {exponent : Int} {n : Number}
    (hrest : Follows rest) (hn : scaled negative 0 (exponent - (1 : Nat)) rest = .ok n) :
    ReadsTo (readFraction negative 0 exponent ('0' :: rest)) n rest := by
  have htake : rest.takeWhile Char.isDigit = [] :=
    Text.takeWhile_append (List.forall_mem_nil _) (stopsRun_of_follows hrest)
  have hskip : skipDigits rest = rest :=
    Text.dropWhile_append (List.forall_mem_nil _) (stopsRun_of_follows hrest)
  have habsorb : absorb 0 0 ['0'] = (0, 1) := by decide
  rw [readFraction, if_pos (by decide), htake, habsorb]
  simp only [hskip]
  exact readsTo_optionalExponent hrest _ hn

theorem toList_minusZeroText (rest : List Char) :
    Number.minusZero.text.toList ++ rest = '-' :: '0' :: '.' :: '0' :: rest := by
  rw [text_minusZero]
  rfl

theorem readsTo_minusZero (levels : Nat) (hrest : Follows rest) :
    ReadsTo (readValue levels (Number.minusZero.text.toList ++ rest)) (.number .minusZero)
      rest := by
  obtain ⟨r, hr, hvalue, hr'⟩ := readsTo_zeroFraction hrest (scaled_minusZero rest)
  rw [toList_minusZeroText]
  refine readsTo_number levels (.inl rfl)
    ⟨(r.underHead.below (length_lt_length_cons '0' _)).underHead, ?_, hvalue, hr'⟩
  rw [readNumber, readMagnitude, if_neg (by decide), readAfterInteger, hr]
  rfl

end ContractBindings.Json
