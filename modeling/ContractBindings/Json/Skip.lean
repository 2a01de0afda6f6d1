import ContractBindings.Json.Scalars

/-!
# Passing over JSON values

A value that nobody asks for is passed over without being built. Less is asked of it than of one
that is read: numbers may be out of range, escapes may name half a surrogate pair, and containers
may be nested to any depth. The open containers are kept in a list, the innermost first.
-/

namespace ContractBindings.Json

/-- Passes what follows the backslash of an escape. -/
def skipEscape (s : List Char) : Reading (Read Unit s) :=
  match s with
  | [] => stopAt .endInString []
  | 'u' :: rest => return (← readHexQuad rest).underHead.map fun _ ↦ ()
  | c :: rest =>
    match simpleEscape? c with
    | some _ => .ok (.ofHead ())
    | none => stopAt .invalidEscape (c :: rest) 1

/-- Passes the characters of a string and its closing quote. -/
def skipStringChars (s : List Char) : Reading (Read Unit s) :=
  match s with
  | [] => stopAt .endInString []
  | '"' :: _ => .ok (.ofHead ())
  | '\\' :: rest => do
    let escaped ← skipEscape rest
    have := escaped.shorter
    return (escaped.after (← skipStringChars escaped.rest)).underHead
  | c :: rest =>
    if c.toNat < 0x20 then stopAt .controlCharacter (c :: rest)
    else return (← skipStringChars rest).underHead
termination_by s.length

/-- Passes what follows the letter of an exponent. -/
def skipExponent (s : List Char) : Reading (Read Unit s) :=
  match h : readSign s with
  | (_, []) => stopAt .invalidNumber []
  | (_, c :: rest) =>
    if c.isDigit then
      .ok ⟨(), skipDigits rest, length_skipDigits_lt_of_readSign h⟩
    else stopAt .invalidNumber (c :: rest) 1

/-- Passes an exponent, if one follows. -/
def skipOptionalExponent {s : List Char} (t : List Char) (h : t.length < s.length) :
    Reading (Read Unit s) :=
  match t with
  | 'e' :: rest | 'E' :: rest =>
    return (← skipExponent rest).underHead.below h
  | t => .ok ⟨(), t, h⟩

/-- Passes what follows the integer digits of a number. -/
def skipAfterInteger {s : List Char} (t : List Char) (h : t.length < s.length) :
    Reading (Read Unit s) :=
  match t with
  | '.' :: c :: rest =>
    if c.isDigit then
      skipOptionalExponent (skipDigits rest) (by
        have := length_skipDigits_le rest
        simp only [List.length_cons] at h
        omega)
    else stopAt .invalidNumber (c :: rest) 1
  | ['.'] => stopAt .invalidNumber []
  | t => skipOptionalExponent t h

/-- Passes a number whose sign has been passed. -/
def skipMagnitude (s : List Char) : Reading (Read Unit s) :=
  match s with
  | [] => stopAt .invalidNumber []
  | c :: rest =>
    if c = '0' then
      if (rest.head?.map Char.isDigit).getD false then stopAt .invalidNumber rest 1
      else skipAfterInteger rest (length_lt_length_cons c rest)
    else if c.isDigit then
      skipAfterInteger (skipDigits rest) (length_skipDigits_lt_length_cons c rest)
    else stopAt .invalidNumber (c :: rest) 1

/-- Passes a value that is no container, `c` being its first character. -/
def skipScalar (c : Char) (rest : List Char) : Reading (Read Unit (c :: rest)) :=
  if c = 'n' then readKeyword ['u', 'l', 'l'] c rest
  else if c = 't' then readKeyword ['r', 'u', 'e'] c rest
  else if c = 'f' then readKeyword ['a', 'l', 's', 'e'] c rest
  else if c = '"' then return (← skipStringChars rest).underHead
  else if c = '-' then return (← skipMagnitude rest).underHead
  else if c.isDigit then skipMagnitude (c :: rest)
  else stopAt .valueExpected (c :: rest) 1

/-! ### Containers -/

/-- A container that has been opened. -/
inductive Container where
  | array
  | object
  deriving DecidableEq

namespace Container

/-- The character that closes a container. -/
def closing : Container → Char
  | array => ']'
  | object => '\x7d'

/-- A container that does not end. -/
def cutShort : Container → Fault
  | array => .endInArray
  | object => .endInObject

/-- A container that goes on with neither a comma nor its end. -/
def commaExpected : Container → Fault
  | array => .commaOrBracketExpected
  | object => .commaOrBraceExpected

/-- Passes what follows the bracket of a container, if that ends at once; tells whether it goes
on. -/
def skipOpening (container : Container) (s : List Char) : Reading (Option Container × Rest s) :=
  match h : skipBlanks s with
  | [] => stopAt container.cutShort []
  | c :: _ =>
    if c = container.closing then .ok (none, (Read.pastBlanks h ()).left)
    else .ok (some container, .all s)

/-- Passes what stands in front of a value in a container: the name of a member and a colon. -/
def skipName (container : Container) (s : List Char) : Reading (Rest s) :=
  match container with
  | array => .ok (.all s)
  | object =>
    match h : skipBlanks s with
    | '"' :: rest => do
      let name ← skipStringChars rest
      match h₁ : skipBlanks name.rest with
      | ':' :: _ => return ((name.after (.pastBlanks h₁ ())).behindBlanks h).left
      | [] => stopAt .endInObject []
      | c :: more => stopAt .colonExpected (c :: more) 1
    | [] => stopAt .endInObject []
    | c :: rest => stopAt .keyExpected (c :: rest) 1

end Container

/-- Passes what a value starts with: the opening bracket of a container, which is then handed
over, or the whole of a scalar or of an empty container. -/
def skipHead (s : List Char) : Reading (Read (Option Container) s) :=
  match h : skipBlanks s with
  | [] => stopAt .endInValue []
  | '[' :: rest => do
    let (opened, left) ← Container.array.skipOpening rest
    return (Read.pastBlanks h opened).upTo left
  | '\x7b' :: rest => do
    let (opened, left) ← Container.object.skipOpening rest
    return (Read.pastBlanks h opened).upTo left
  | c :: rest => return ((← skipScalar c rest).withBlanks h).map fun _ ↦ none

/-- Passes the ends of containers behind a value, and the comma in the first one that goes on;
gives the containers that do. -/
def skipEnds (s : List Char) : List Container → Reading (List Container × Rest s)
  | [] => .ok ([], .all s)
  | container :: above =>
    match h : skipBlanks s with
    | [] => stopAt container.cutShort []
    | c :: rest =>
      if c = ',' then .ok (container :: above, (Read.pastBlanks h ()).left)
      else if c = container.closing then do
        let (open_, left) ← skipEnds rest above
        return (open_, ((Read.pastBlanks h ()).upTo left).left)
      else stopAt container.commaExpected (c :: rest) 1

/-- Passes values until the containers `open_` are closed, starting in front of a value. -/
def skipValues (open_ : List Container) (s : List Char) : Reading (Read Unit s) := do
  let head ← skipHead s
  let (open_, left) ← match head.value with
    | some container => pure (container :: open_, Rest.all head.rest)
    | none => skipEnds head.rest open_
  match open_ with
  | [] => return (head.upTo left).map fun _ ↦ ()
  | container :: _ =>
    let name ← container.skipName left.rest
    have := head.shorter
    have := left.length_le
    have := name.length_le
    return head.after (((← skipValues open_ name.rest).within name).within left)
termination_by s.length

/-- Passes one value. -/
def skipValue (s : List Char) : Reading (Read Unit s) :=
  skipValues [] s

end ContractBindings.Json
