import ContractBindings.Json.Reader
import ContractBindings.Json.Writer
import ContractBindings.Proofs.Results
import Mathlib.Tactic.SplitIfs

/-!
# String literals

What the written form of a string is to the three kinds of readers that meet it. To a reader of
JSON it is the string (`parse_stringLiteral`). To a reader of lines it is a part of one line
(`lineFeed_not_mem_stringLiteral`). A reader that only looks for the end of a literal has to know
how characters are written, and that there are just three ways: `Written` lists them, and every
proof about literals is a case distinction on it.
-/

namespace ContractBindings.Json

/-! ### How characters are written -/

/-- The lower-case digits, as far as anything here depends on them. -/
theorem hexDigit_spec : ∀ n < 16, Hex.digitValue? (Hex.digit n) = some n ∧
    Hex.digit n ≠ '"' ∧ Hex.digit n ≠ '\\' ∧ Hex.digit n ≠ '\n' := by
  decide

/-- The three ways in which a character is written in a string. -/
inductive Written (c : Char) : List Char → Prop where
  | itself (hquote : c ≠ '"') (hback : c ≠ '\\') (hcontrol : ¬ c.toNat < 0x20) : Written c [c]
  | short (d : Char) (hd : simpleEscape? d = some c) (hu : d ≠ 'u') : Written c ['\\', d]
  | control (hcontrol : c.toNat < 0x20) :
    Written c ['\\', 'u', '0', '0', Hex.digit (c.toNat / 16), Hex.digit (c.toNat % 16)]

theorem written_escapeChar (c : Char) : Written c (escapeChar c) := by
  unfold escapeChar
  split_ifs with h₁ h₂ h₃ h₄ h₅ h₆ h₇ h₈
  · exact .short '"' (by rw [h₁]; rfl) (by decide)
  · exact .short '\\' (by rw [h₂]; rfl) (by decide)
  · exact .short 'b' (by rw [h₃]; rfl) (by decide)
  · exact .short 'f' (by rw [h₄]; rfl) (by decide)
  · exact .short 'n' (by rw [h₅]; rfl) (by decide)
  · exact .short 'r' (by rw [h₆]; rfl) (by decide)
  · exact .short 't' (by rw [h₇]; rfl) (by decide)
  · exact .control h₈
  · exact .itself h₁ h₂ h₈

/-- A line feed is no letter of an escape, and no other character is written with one. -/
theorem Written.lineFeed_not_mem {c : Char} {w : List Char} (h : Written c w) : '\n' ∉ w := by
  cases h with
  | itself hquote hback hcontrol =>
    intro hmem
    obtain rfl := List.mem_singleton.1 hmem
    exact hcontrol (by decide)
  | short d hd hu =>
    intro hmem
    have hn : d = '\n' := by simpa [eq_comm] using hmem
    -- No short escape has a line feed for its letter.
    rw [hn] at hd
    cases hd
  | control hcontrol =>
    have hhigh := (hexDigit_spec (c.toNat / 16) (by omega)).2.2.2
    have hlow := (hexDigit_spec (c.toNat % 16) (by omega)).2.2.2
    simp [hhigh.symm, hlow.symm]

theorem lineFeed_not_mem_stringLiteral (s : String) : '\n' ∉ (stringLiteral s).toList := by
  have hbody : '\n' ∉ s.toList.flatMap escapeChar := by
    intro hmem
    obtain ⟨c, -, hc⟩ := List.mem_flatMap.1 hmem
    exact (written_escapeChar c).lineFeed_not_mem hc
  simp [stringLiteral, stringChars, hbody]

/-! ### Reading a literal back -/

/-- What reading a string gives, without the proof that the rest is shorter. -/
def ReadsTo {α : Type} {s : List Char} (x : Reading (Read α s)) (value : α) (rest : List Char) :
    Prop :=
  ∃ r, x = .ok r ∧ r.value = value ∧ r.rest = rest

/-- A short escape is read as the character it stands for. -/
theorem readsTo_short {d c : Char} (hd : simpleEscape? d = some c) (hu : d ≠ 'u')
    (t : List Char) : ReadsTo (readEscape (d :: t)) c t := by
  refine ⟨.ofHead c, ?_, rfl, rfl⟩
  rw [readEscape]
  · simp only [hd]
  · exact hu

/-- The digits of a control character spell it. -/
theorem hexQuad_control {n : Nat} (h : n < 0x20) :
    hexQuad? '0' '0' (Hex.digit (n / 16)) (Hex.digit (n % 16)) = some n := by
  have hhigh := (hexDigit_spec (n / 16) (by omega)).1
  have hlow := (hexDigit_spec (n % 16) (by omega)).1
  have hzero : Hex.digitValue? '0' = some 0 := rfl
  simp only [hexQuad?, hzero, hhigh, hlow, Option.bind_eq_bind, Option.bind_some, pure]
  congr 1
  omega

theorem readsTo_control {c : Char} (h : c.toNat < 0x20) (t : List Char) :
    ReadsTo (readEscape
      ('u' :: '0' :: '0' :: Hex.digit (c.toNat / 16) :: Hex.digit (c.toNat % 16) :: t)) c t := by
  have hquad : ReadsTo (readHexQuad
      ('0' :: '0' :: Hex.digit (c.toNat / 16) :: Hex.digit (c.toNat % 16) :: t)) c.toNat t := by
    simp only [readHexQuad, hexQuad_control h]
    exact ⟨_, rfl, rfl, rfl⟩
  obtain ⟨quad, hquad, hvalue, hrest⟩ := hquad
  -- Control characters are far below the surrogates, so one unit is the whole character.
  have htrailing : ¬ isTrailing quad.value = true := by
    simp only [hvalue, isTrailing, Bool.and_eq_true, decide_eq_true_eq]
    omega
  have hleading : ¬ isLeading quad.value = true := by
    simp only [hvalue, isLeading, Bool.and_eq_true, decide_eq_true_eq]
    omega
  have hunits : readCodeUnits
      ('0' :: '0' :: Hex.digit (c.toNat / 16) :: Hex.digit (c.toNat % 16) :: t) =
        .ok (quad.map Char.ofNat) := by
    rw [readCodeUnits, hquad]
    show (if isTrailing quad.value = true then _ else _) = _
    rw [if_neg htrailing, if_neg hleading]
    rfl
  refine ⟨(quad.map Char.ofNat).underHead, ?_, ?_, hrest⟩
  · rw [readEscape, hunits]
    rfl
  · show Char.ofNat quad.value = c
    rw [hvalue, Char.ofNat_toNat]

/-- An escape in front of what reads as a string. -/
theorem readsTo_backslash {s t rest : List Char} {c : Char} {cs : List Char}
    (hc : ReadsTo (readEscape s) c t) (ht : ReadsTo (readStringChars t) cs rest) :
    ReadsTo (readStringChars ('\\' :: s)) (c :: cs) rest := by
  obtain ⟨escaped, hescaped, rfl, rfl⟩ := hc
  obtain ⟨tail, htail, rfl, rfl⟩ := ht
  rw [readStringChars, hescaped]
  refine ⟨(escaped.after tail).underHead.map (escaped.value :: ·), ?_, rfl, rfl⟩
  show (readStringChars escaped.rest >>= fun tail ↦ _) = _
  rw [htail]
  rfl

/-- A character that stands for itself in front of what reads as a string. -/
theorem readsTo_cons {t rest : List Char} {c : Char} {cs : List Char} (hquote : c ≠ '"')
    (hback : c ≠ '\\') (hcontrol : ¬ c.toNat < 0x20) (ht : ReadsTo (readStringChars t) cs rest) :
    ReadsTo (readStringChars (c :: t)) (c :: cs) rest := by
  obtain ⟨tail, htail, rfl, rfl⟩ := ht
  refine ⟨tail.underHead.map (c :: ·), ?_, rfl, rfl⟩
  rw [readStringChars]
  · rw [if_neg hcontrol, htail]
    rfl
  · exact hquote
  · exact hback

/-- One written character in front of what reads as a string. -/
theorem Written.readsTo {c : Char} {w t rest : List Char} {cs : List Char} (h : Written c w)
    (ht : ReadsTo (readStringChars t) cs rest) :
    ReadsTo (readStringChars (w ++ t)) (c :: cs) rest := by
  cases h with
  | itself hquote hback hcontrol => exact readsTo_cons hquote hback hcontrol ht
  | short d hd hu => exact readsTo_backslash (readsTo_short hd hu t) ht
  | control hcontrol => exact readsTo_backslash (readsTo_control hcontrol t) ht

theorem readsTo_escaped (s rest : List Char) :
    ReadsTo (readStringChars (s.flatMap escapeChar ++ '"' :: rest)) s rest := by
  induction s with
  | nil =>
    refine ⟨.ofHead [], ?_, rfl, rfl⟩
    show readStringChars ('"' :: rest) = _
    rw [readStringChars]
  | cons c s ih =>
    rw [List.flatMap_cons, List.append_assoc]
    exact (written_escapeChar c).readsTo ih

/-- A value that is no container is read as at its first character, however deep it stands. -/
theorem readsTo_readValue (levels : Nat) {c : Char} {t rest : List Char} {value : Json}
    (hblank : isBlank c = false) (harray : c ≠ '[') (hobject : c ≠ '\x7b')
    (h : ReadsTo (readScalar c t) value rest) : ReadsTo (readValue levels (c :: t)) value rest := by
  have hskip : skipBlanks (c :: t) = c :: t :=
    List.dropWhile_cons_of_neg (by rw [hblank]; exact Bool.false_ne_true)
  obtain ⟨r, hr, rfl, rfl⟩ := h
  rcases levels with _ | levels
  · rw [readValue]
    split <;> rename_i h <;> rw [hskip] at h <;> cases h
    rw [if_neg (by simp [harray, hobject]), hr]
    exact ⟨_, rfl, rfl, rfl⟩
  · rw [readValue]
    -- Of the ways a value may begin, only the last is left.
    split <;> rename_i h <;> rw [hskip] at h <;> cases h
    case h_2 => exact absurd rfl harray
    case h_3 => exact absurd rfl hobject
    case h_4 =>
      rw [hr]
      exact ⟨_, rfl, rfl, rfl⟩

/-- A literal begins with a quote, behind which the string is read. -/
theorem exists_stringLiteral (s : String) (rest : List Char) :
    ∃ t, (stringLiteral s).toList ++ rest = '"' :: t ∧ ReadsTo (readString t) s rest := by
  refine ⟨s.toList.flatMap escapeChar ++ '"' :: rest, ?_, ?_⟩
  · rw [stringLiteral, String.toList_ofList, stringChars]
    simp only [List.cons_append, List.append_assoc, List.nil_append]
  · obtain ⟨r, hr, hvalue, hrest⟩ := readsTo_escaped s.toList rest
    refine ⟨r.map String.ofList, ?_, ?_, hrest⟩
    · rw [readString, hr]
      rfl
    · show String.ofList r.value = s
      rw [hvalue, String.ofList_toList]

theorem readsTo_string (levels : Nat) {t rest : List Char} {s : String}
    (h : ReadsTo (readString t) s rest) :
    ReadsTo (readValue levels ('"' :: t)) (.string s) rest := by
  obtain ⟨r, hr, rfl, rfl⟩ := h
  refine readsTo_readValue levels (by decide) (by decide) (by decide) ?_
  rw [readScalar, if_neg (by decide), if_neg (by decide), if_neg (by decide), if_pos rfl, hr]
  exact ⟨_, rfl, rfl, rfl⟩

/-- A text is the text of a value that is read from it if nothing but blanks is left. -/
theorem parse_eq_ok_iff {text : String} {v : Json} :
    parse text = .ok v ↔
      ∃ rest, ReadsTo (readValue greatestDepth text.toList) v rest ∧ skipBlanks rest = [] := by
  constructor
  · intro h
    obtain ⟨r, hr, h⟩ := exists_of_bind_eq_ok (ok_of_mapError_eq_ok h)
    split at h
    case h_1 hend =>
      cases h
      exact ⟨r.rest, ⟨r, hr, rfl, rfl⟩, hend⟩
    case h_2 => cases h
  · rintro ⟨_, ⟨r, hr, rfl, rfl⟩, hend⟩
    have htext : readText (readValue greatestDepth) text.toList = .ok r.value := by
      rw [readText, hr]
      dsimp only [bind, Except.bind]
      rw [hend]
      rfl
    rw [parse, htext]
    rfl

theorem parse_eq_ok {text : String} {value : Json}
    (h : ReadsTo (readValue greatestDepth text.toList) value []) : parse text = .ok value :=
  parse_eq_ok_iff.2 ⟨[], h, rfl⟩

/-- **The written form of a string is read as the string.** -/
theorem parse_stringLiteral (s : String) : parse (stringLiteral s) = .ok (.string s) := by
  obtain ⟨t, heq, hread⟩ := exists_stringLiteral s []
  rw [List.append_nil] at heq
  exact parse_eq_ok (heq ▸ readsTo_string greatestDepth hread)

end ContractBindings.Json
