/-!
# Letters and digits by code point

The classes of ASCII letters and digits as ranges of code points, and what the change of case does
to them. Arithmetic on code points settles everything else that is said of letters, so the classes
are opened here and nowhere else.
-/

namespace ContractBindings.Text

variable {c : Char}

/-- What holds of all small code points holds of their characters. -/
theorem of_toNat_lt {p : Char → Prop} {bound : Nat} (h : ∀ n < bound, p (Char.ofNat n))
    (hc : c.toNat < bound) : p c := by
  have hp := h c.toNat hc
  rwa [Char.ofNat_toNat] at hp

theorem isUpper_iff : c.isUpper = true ↔ 65 ≤ c.toNat ∧ c.toNat ≤ 90 := by
  unfold Char.isUpper
  simp only [decide_eq_true_eq, UInt32.le_iff_toNat_le, ge_iff_le]
  exact Iff.rfl

theorem isLower_iff : c.isLower = true ↔ 97 ≤ c.toNat ∧ c.toNat ≤ 122 := by
  unfold Char.isLower
  simp only [Bool.and_eq_true, decide_eq_true_eq, UInt32.le_iff_toNat_le, ge_iff_le]
  exact Iff.rfl

theorem isDigit_iff : c.isDigit = true ↔ 48 ≤ c.toNat ∧ c.toNat ≤ 57 := by
  unfold Char.isDigit
  simp only [Bool.and_eq_true, decide_eq_true_eq, UInt32.le_iff_toNat_le, ge_iff_le]
  exact Iff.rfl

theorem isAlphanum_iff :
    c.isAlphanum = true ↔ c.isUpper = true ∨ c.isLower = true ∨ c.isDigit = true := by
  unfold Char.isAlphanum Char.isAlpha
  simp only [Bool.or_eq_true, or_assoc]

/-- No letter is both a capital and a small letter. -/
theorem not_isLower_of_isUpper (h : c.isUpper = true) : ¬ c.isLower = true := by
  rw [isLower_iff]
  have hrange := isUpper_iff.1 h
  omega

/-! ### Change of case -/

/-- The capital of a small letter stands 32 code points before it. -/
theorem toNat_toUpper (h : c.isLower = true) : c.toUpper.toNat = c.toNat - 32 := by
  have hc := isLower_iff.1 h
  have hrange : 'a'.val ≤ c.val ∧ c.val ≤ 'z'.val := by
    simp only [UInt32.le_iff_toNat_le]
    exact hc
  -- The difference is negative and wraps around, and the addition wraps it back.
  have hwrap : ('A'.val - 'a'.val : UInt32).toNat = 4294967264 := by decide
  have hval : c.val.toNat = c.toNat := rfl
  unfold Char.toUpper
  rw [dif_pos hrange]
  show (c.val + ('A'.val - 'a'.val)).toNat = c.toNat - 32
  rw [UInt32.toNat_add, hwrap]
  omega

/-- The small letter of a capital stands 32 code points after it. -/
theorem toNat_toLower (h : c.isUpper = true) : c.toLower.toNat = c.toNat + 32 := by
  have hc := isUpper_iff.1 h
  have hrange : c.val ≥ 'A'.val ∧ c.val ≤ 'Z'.val := by
    simp only [ge_iff_le, UInt32.le_iff_toNat_le]
    exact hc
  have hval : c.val.toNat = c.toNat := rfl
  unfold Char.toLower
  rw [dif_pos hrange]
  show (c.val + ('a'.val - 'A'.val)).toNat = c.toNat + 32
  rw [UInt32.toNat_add, show ('a'.val - 'A'.val : UInt32).toNat = 32 from rfl]
  omega

theorem toUpper_of_not_isLower (h : ¬ c.isLower = true) : c.toUpper = c := by
  unfold Char.toUpper
  rw [dif_neg]
  intro hrange
  simp only [UInt32.le_iff_toNat_le] at hrange
  exact h (isLower_iff.2 hrange)

theorem toLower_of_not_isUpper (h : ¬ c.isUpper = true) : c.toLower = c := by
  unfold Char.toLower
  rw [dif_neg]
  intro hrange
  simp only [ge_iff_le, UInt32.le_iff_toNat_le] at hrange
  exact h (isUpper_iff.2 hrange)

theorem not_isLower_toUpper (c : Char) : ¬ c.toUpper.isLower = true := by
  by_cases hl : c.isLower = true
  · have hrange := isLower_iff.1 hl
    rw [isLower_iff, toNat_toUpper hl]
    omega
  · rwa [toUpper_of_not_isLower hl]

theorem not_isUpper_toLower (c : Char) : ¬ c.toLower.isUpper = true := by
  by_cases hu : c.isUpper = true
  · have hrange := isUpper_iff.1 hu
    rw [isUpper_iff, toNat_toLower hu]
    omega
  · rwa [toLower_of_not_isUpper hu]

theorem isAlphanum_toUpper (h : c.isAlphanum = true) : c.toUpper.isAlphanum = true := by
  by_cases hl : c.isLower = true
  · have hrange := isLower_iff.1 hl
    refine isAlphanum_iff.2 (.inl (isUpper_iff.2 ?_))
    rw [toNat_toUpper hl]
    omega
  · rwa [toUpper_of_not_isLower hl]

theorem isAlphanum_toLower (h : c.isAlphanum = true) : c.toLower.isAlphanum = true := by
  by_cases hu : c.isUpper = true
  · have hrange := isUpper_iff.1 hu
    refine isAlphanum_iff.2 (.inr (.inl (isLower_iff.2 ?_)))
    rw [toNat_toLower hu]
    omega
  · rwa [toLower_of_not_isUpper hu]

end ContractBindings.Text
