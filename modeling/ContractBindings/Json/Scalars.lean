import ContractBindings.Json.Fault
import ContractBindings.Json.Value
import ContractBindings.Text.Hex
import ContractBindings.Word

/-!
# Reading JSON strings and numbers

The readers of the parts of a JSON text that hold no other values: blanks, words, strings and
numbers. A number that is no 64-bit integer is computed in binary64 arithmetic from its leading
digits and one power of ten, which is exact for up to fifteen digits and may be off by one unit in
the last place beyond.
-/

namespace ContractBindings.Json

/-- The blanks between the tokens of a JSON text. -/
def isBlank (c : Char) : Bool :=
  c == ' ' || c == '\n' || c == '\t' || c == '\r'

/-- The text from its first character that is not a blank. -/
def skipBlanks (s : List Char) : List Char :=
  s.dropWhile isBlank

/-- Dropping blanks never lengthens a text. -/
theorem length_skipBlanks_le (s : List Char) : (skipBlanks s).length ≤ s.length :=
  (List.dropWhile_suffix isBlank).length_le

/-- Dropping blanks leaves no more than what follows the first character that is none. -/
theorem length_lt_of_skipBlanks_eq {s rest : List Char} {c : Char}
    (h : skipBlanks s = c :: rest) : rest.length < s.length := by
  have := length_skipBlanks_le s
  simp only [h, List.length_cons] at this
  omega

/-- A value that ends with the first character behind blanks. -/
def Read.pastBlanks {α : Type} {s rest : List Char} {c : Char} (h : skipBlanks s = c :: rest)
    (value : α) : Read α s :=
  ⟨value, rest, length_lt_of_skipBlanks_eq h⟩

/-- A result for what follows the first character behind blanks, as one for the whole text. -/
def Read.behindBlanks {α : Type} {s rest : List Char} {c : Char} (h : skipBlanks s = c :: rest)
    (r : Read α rest) : Read α s :=
  r.widen (Nat.le_of_lt (length_lt_of_skipBlanks_eq h))

/-- A result for a text without the blanks in front of it, as one for the whole text. -/
def Read.withBlanks {α : Type} {s t : List Char} (h : skipBlanks s = t) (r : Read α t) :
    Read α s :=
  r.widen (h ▸ length_skipBlanks_le s)

/-- Passes the characters of `word`. -/
def readWord {s : List Char} (word : List Char) (t : List Char) (h : t.length < s.length) :
    Reading (Read Unit s) :=
  match word, t with
  | [], t => .ok ⟨(), t, h⟩
  | _ :: _, [] => stopAt .endInValue []
  | w :: word, c :: rest =>
    if c = w then readWord word rest (by simp only [List.length_cons] at h; omega)
    else stopAt .wordExpected (c :: rest) 1

/-- Passes the characters of `word` behind the first one of a text. -/
def readKeyword (word : List Char) (c : Char) (rest : List Char) :
    Reading (Read Unit (c :: rest)) :=
  readWord word rest (length_lt_length_cons c rest)

/-! ### Strings -/

/-- The character that a one-letter escape stands for. -/
def simpleEscape? : Char → Option Char
  | '"' => some '"'
  | '\\' => some '\\'
  | '/' => some '/'
  | 'b' => some '\x08'
  | 'f' => some '\x0c'
  | 'n' => some '\n'
  | 'r' => some '\r'
  | 't' => some '\t'
  | _ => none

/-- The number that four hexadecimal digits spell. -/
def hexQuad? (a b c d : Char) : Option Nat := do
  let a ← Hex.digitValue? a
  let b ← Hex.digitValue? b
  let c ← Hex.digitValue? c
  let d ← Hex.digitValue? d
  return ((a * 16 + b) * 16 + c) * 16 + d

/-- Reads the four hexadecimal digits of an escape. Four bytes are taken before they are looked
at. -/
def readHexQuad (s : List Char) : Reading (Read Nat s) :=
  match s with
  | a :: b :: c :: d :: rest =>
    match hexQuad? a b c d with
    | some n => .ok ⟨n, rest, by simp only [List.length_cons]; omega⟩
    | none => stopAt .invalidEscape (a :: b :: c :: d :: rest) 4
  | short =>
    if Text.byteLength short < 4 then stopAt .endInString [] else stopAt .invalidEscape short 4

/-- Whether a code unit is the first of a surrogate pair. -/
def isLeading (n : Nat) : Bool :=
  0xD800 ≤ n && n ≤ 0xDBFF

/-- Whether a code unit is the second of a surrogate pair. -/
def isTrailing (n : Nat) : Bool :=
  0xDC00 ≤ n && n ≤ 0xDFFF

/-- Reads the digits of an escape by code unit, and the second escape of a surrogate pair. -/
def readCodeUnits (s : List Char) : Reading (Read Char s) := do
  let first ← readHexQuad s
  if isTrailing first.value then
    stopAt .loneSurrogate first.rest
  else if isLeading first.value then
    match h : first.rest with
    | [] => stopAt .endInString []
    | ['\\'] => stopAt .endInString []
    | '\\' :: 'u' :: rest =>
      let second ← readHexQuad rest
      if isTrailing second.value then
        let code := 0x10000 + (first.value - 0xD800) * 0x400 + (second.value - 0xDC00)
        return (second.widen (by
          have := first.shorter
          simp only [h, List.length_cons] at this
          omega)).map fun _ ↦ Char.ofNat code
      else stopAt .loneSurrogate second.rest
    | '\\' :: c :: rest => stopAt .hexEscapeCutShort (c :: rest) 1
    | c :: rest => stopAt .hexEscapeCutShort (c :: rest) 1
  else return first.map Char.ofNat

/-- Reads what follows the backslash of an escape. -/
def readEscape (s : List Char) : Reading (Read Char s) :=
  match s with
  | [] => stopAt .endInString []
  | 'u' :: rest => return (← readCodeUnits rest).underHead
  | c :: rest =>
    match simpleEscape? c with
    | some value => .ok (.ofHead value)
    | none => stopAt .invalidEscape (c :: rest) 1

/-- Reads the characters of a string and its closing quote. -/
def readStringChars (s : List Char) : Reading (Read (List Char) s) :=
  match s with
  | [] => stopAt .endInString []
  | '"' :: _ => .ok (.ofHead [])
  | '\\' :: rest => do
    let escaped ← readEscape rest
    have := escaped.shorter
    let tail ← readStringChars escaped.rest
    return (escaped.after tail).underHead.map (escaped.value :: ·)
  | c :: rest =>
    if c.toNat < 0x20 then stopAt .controlCharacter (c :: rest) 1
    else do
      let tail ← readStringChars rest
      return tail.underHead.map (c :: ·)
termination_by s.length

/-- Reads the rest of a string whose opening quote has been passed. -/
def readString (s : List Char) : Reading (Read String s) :=
  return (← readStringChars s).map String.ofList

/-! ### Numbers -/

/-- The greatest significand that is kept exactly. -/
def greatestSignificand : Nat := Word.count64 - 1

/-- Appends decimal digits to a significand until one no longer fits; gives the significand and
how many digits it took. -/
def absorb (significand : Nat) (taken : Nat) : List Char → Nat × Nat
  | [] => (significand, taken)
  | c :: rest =>
    let next := significand * 10 + (c.toNat - '0'.toNat)
    if greatestSignificand < next then (significand, taken) else absorb next (taken + 1) rest

/-- The power of ten with exponent `e`, for `e` up to 308. -/
def powerOfTen (e : Nat) : Float :=
  Float.ofScientific 1 false e

/-- Divides by `10 ^ e`, in steps that stay in range. -/
def scaleDown (x : Float) (e : Nat) : Float :=
  if e ≤ 308 then x / powerOfTen e
  else if x == 0.0 then x
  else scaleDown (x / powerOfTen 308) (e - 308)
termination_by e

/-- The binary64 number computed for `significand · 10 ^ exponent`, if it is finite. -/
def scale? (significand : Nat) (exponent : Int) : Option Float :=
  let x := (UInt64.ofNat significand).toFloat
  if exponent < 0 then some (scaleDown x (-exponent).toNat)
  else if exponent.toNat ≤ 308 then
    let y := x * powerOfTen exponent.toNat
    if y.isInf then none else some y
  else if significand = 0 then some x
  else none

/-- The number with the given sign and magnitude. -/
def Number.ofFloat (negative : Bool) (magnitude : Float) : Number :=
  .float (if negative then -magnitude else magnitude).toBits

/-- The number `significand · 10 ^ exponent` that ends where `rest` starts. -/
def scaled (negative : Bool) (significand : Nat) (exponent : Int) (rest : List Char) :
    Reading Number :=
  match scale? significand exponent with
  | some x => .ok (.ofFloat negative x)
  | none => stopAt .numberOutOfRange rest

/-- An integer if 64 bits hold it, and the nearest binary64 number otherwise; minus zero is no
integer. -/
def Number.ofSignificand (negative : Bool) (significand : Nat) : Number :=
  if !negative then .integer significand
  else if 0 < significand && significand ≤ Word.count63 then .integer (-significand)
  else .ofFloat true (UInt64.ofNat significand).toFloat

/-- The least exponent that is refused when it is written out. -/
def exponentBound : Nat := Word.count31

/-- The value of a list of decimal digits. -/
def digitsValue (digits : List Char) : Nat :=
  digits.foldl (fun n c ↦ n * 10 + (c.toNat - '0'.toNat)) 0

/-- Passes exponent digits up to the first at which their value reaches `exponentBound`; gives
what follows that digit. -/
def pastExponentBound? (value : Nat) : List Char → Option (List Char)
  | [] => none
  | c :: rest =>
    if c.isDigit then
      let next := value * 10 + (c.toNat - '0'.toNat)
      if exponentBound ≤ next then some rest else pastExponentBound? next rest
    else none

/-- Passes decimal digits. -/
def skipDigits (s : List Char) : List Char :=
  s.dropWhile Char.isDigit

theorem length_skipDigits_le (s : List Char) : (skipDigits s).length ≤ s.length :=
  (List.dropWhile_suffix Char.isDigit).length_le

theorem length_skipDigits_lt_length_cons (c : Char) (rest : List Char) :
    (skipDigits rest).length < (c :: rest).length :=
  Nat.lt_succ_of_le (length_skipDigits_le rest)

/-- Passes a sign in front of an exponent; says whether it is a minus. -/
def readSign : List Char → Bool × List Char
  | '+' :: rest => (false, rest)
  | '-' :: rest => (true, rest)
  | s => (false, s)

theorem length_readSign_le (s : List Char) : (readSign s).2.length ≤ s.length := by
  unfold readSign
  split <;> simp

/-- Digits behind a sign leave less than the whole text. -/
theorem length_skipDigits_lt_of_readSign {s rest : List Char} {down : Bool} {c : Char}
    (h : readSign s = (down, c :: rest)) : (skipDigits rest).length < s.length := by
  have h₁ := length_readSign_le s
  have h₂ := length_skipDigits_le rest
  simp only [h, List.length_cons] at h₁
  omega

/-- Reads what follows the letter of an exponent. -/
def readExponent (negative : Bool) (significand : Nat) (exponent : Int) (s : List Char) :
    Reading (Read Number s) :=
  match h : readSign s with
  | (down, t) =>
    match t with
    | [] => stopAt .endInValue []
    | c :: rest =>
      if c.isDigit then
        have shorter := length_skipDigits_lt_of_readSign h
        match pastExponentBound? 0 (c :: rest) with
        | some beyond =>
          if significand ≠ 0 && !down then stopAt .numberOutOfRange beyond
          else .ok ⟨.ofFloat negative 0.0, skipDigits rest, shorter⟩
        | none => do
          let written : Int := digitsValue (c :: rest.takeWhile Char.isDigit)
          let total := if down then exponent - written else exponent + written
          return ⟨← scaled negative significand total (skipDigits rest), skipDigits rest, shorter⟩
      else stopAt .invalidNumber (c :: rest) 1

/-- Reads an exponent, if one follows. -/
def readOptionalExponent {s : List Char} (negative : Bool) (significand : Nat) (exponent : Int)
    (t : List Char) (h : t.length < s.length) : Reading (Read Number s) :=
  match t with
  | 'e' :: rest | 'E' :: rest =>
    return (← readExponent negative significand exponent rest).underHead.below h
  | t => return ⟨← scaled negative significand exponent t, t, h⟩

/-- Reads the part of a number that follows its point. -/
def readFraction (negative : Bool) (significand : Nat) (exponent : Int) (s : List Char) :
    Reading (Read Number s) :=
  match s with
  | [] => stopAt .endInValue []
  | c :: rest =>
    if c.isDigit then
      let (significand, taken) := absorb significand 0 (c :: rest.takeWhile Char.isDigit)
      readOptionalExponent negative significand (exponent - taken) (skipDigits rest)
        (length_skipDigits_lt_length_cons c rest)
    else stopAt .invalidNumber (c :: rest) 1

/-- Whether a text goes on with an exponent. -/
def startsExponent : List Char → Bool
  | 'e' :: _ | 'E' :: _ => true
  | _ => false

/-- Reads what follows the integer digits of a number, `dropped` of which did not fit. -/
def readAfterInteger {s : List Char} (negative : Bool) (significand dropped : Nat)
    (t : List Char) (h : t.length < s.length) : Reading (Read Number s) :=
  match t with
  | '.' :: rest =>
    return (← readFraction negative significand dropped rest).underHead.below h
  | t =>
    if dropped = 0 && !startsExponent t then .ok ⟨.ofSignificand negative significand, t, h⟩
    else readOptionalExponent negative significand dropped t h

/-- Reads a number whose sign has been passed. -/
def readMagnitude (negative : Bool) (s : List Char) : Reading (Read Number s) :=
  match s with
  | [] => stopAt .endInValue []
  | '0' :: rest =>
    match rest with
    | c :: more =>
      if c.isDigit then stopAt .invalidNumber (c :: more) 1
      else readAfterInteger negative 0 0 (c :: more) (by simp)
    | [] => readAfterInteger negative 0 0 [] (by simp)
  | c :: rest =>
    if c.isDigit then
      let digits := c :: rest.takeWhile Char.isDigit
      let (significand, taken) := absorb 0 0 digits
      readAfterInteger negative significand (digits.length - taken) (skipDigits rest)
        (length_skipDigits_lt_length_cons c rest)
    else stopAt .invalidNumber (c :: rest) 1

/-- Reads a number. -/
def readNumber (s : List Char) : Reading (Read Number s) :=
  match s with
  | '-' :: rest => return (← readMagnitude true rest).underHead
  | s => readMagnitude false s

end ContractBindings.Json
