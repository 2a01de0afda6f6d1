import ContractBindings.Text.Hex
import ContractBindings.Yaml.Cursor

/-!
# Reading YAML scalars

The five styles of scalars: plain, single- and double-quoted, literal and folded. The readers
share how lines are joined: one line break between two lines becomes a space, further ones are
kept. Each reader gives the value and the place behind it.
-/

namespace ContractBindings.Yaml

/-- The style of a scalar, as far as its meaning depends on it. -/
inductive Style where
  | plain
  | quoted
  | literal
  | folded
  deriving DecidableEq, Repr

/-- Lines joined over the breaks between them; the first break is a space unless others follow or
it is a separator. -/
def foldBreaks : List Char → List Char
  | [] => []
  | '\n' :: [] => [' ']
  | '\n' :: more => more
  | breaks => breaks

/-- What blanks and line breaks between two parts of a scalar become. -/
def foldGap (gap : List Char) : List Char :=
  let breaks := gap.filter isBreak
  if breaks.isEmpty then gap else foldBreaks breaks

/-! ### Plain scalars -/

/-- Whether a character ends plain scalars and keys inside flow collections. -/
def isFlowIndicator (c : Char) : Bool :=
  c == ',' || c == '[' || c == ']' || c == '\x7b' || c == '\x7d'

/-- Splits off the characters of a plain scalar up to a blank, a line break or an indicator. -/
def plainRun (inFlow : Bool) : List Char → Reading (List Char × List Char)
  | [] => .ok ([], [])
  | c :: rest =>
    if isSpace c then .ok ([], c :: rest)
    else if inFlow && c == ':' && rest.head?.any (fun d ↦ isFlowIndicator d || d == '?') then
      .error .unexpectedIndicator
    else if (c == ':' && atSpace rest) || (inFlow && isFlowIndicator c) then .ok ([], c :: rest)
    else do
      let (run, after) ← plainRun inFlow rest
      return (c :: run, after)

/-- Whether a gap has a tab in front of column `indent` of one of its later lines. -/
def hasTabBefore (indent : Nat) : (column : Option Nat) → List Char → Bool
  | _, [] => false
  | column, c :: rest =>
    if isBreak c then hasTabBefore indent (some 0) rest
    else match column with
      | none => hasTabBefore indent none rest
      | some n => (c == '\t' && n < indent) || hasTabBefore indent (some (n + 1)) rest

/-- Reads a plain scalar whose lines are indented to `indent`; says whether line breaks follow
its last line. `bound` bounds the number of its runs. -/
def readPlain (inFlow : Bool) (indent : Nat) :
    (bound : Nat) → (gap : List Char) → Cursor → Reading (List Char × Bool × Cursor)
  | 0, _, cur => .ok ([], false, cur)
  | bound + 1, gap, cur => do
    if cur.atDocumentMark || cur.rest.head? == some '#' then
      return ([], gap.any isBreak, cur)
    let (run, _) ← plainRun inFlow cur.rest
    let afterRun := cur.pass run
    let joined := if run.isEmpty then [] else foldGap gap ++ run
    let pending := if run.isEmpty then gap else []
    if !(afterRun.rest.head?.any isSpace) then
      return (joined, pending.any isBreak, afterRun)
    let (blanks, afterGap) := afterRun.takeWhile isSpace
    if hasTabBefore indent (if pending.any isBreak then some afterRun.column else none) blanks then
      throw .tabIndentation
    let gap := pending ++ blanks
    if !inFlow && afterGap.column < indent then
      return (joined, gap.any isBreak, afterGap)
    let (tail, broken, after) ← readPlain inFlow indent bound gap afterGap
    return (joined ++ tail, broken, after)

/-! ### Quoted scalars -/

/-- The character that a one-letter escape stands for. -/
def simpleEscape? : Char → Option Char
  | '0' => some '\x00'
  | 'a' => some '\x07'
  | 'b' => some '\x08'
  | 't' => some '\t'
  | '\t' => some '\t'
  | 'n' => some '\n'
  | 'v' => some '\x0b'
  | 'f' => some '\x0c'
  | 'r' => some '\r'
  | 'e' => some '\x1b'
  | ' ' => some ' '
  | '"' => some '"'
  | '/' => some '/'
  | '\\' => some '\\'
  | 'N' => some '\u0085'
  | '_' => some '\u00a0'
  | 'L' => some '\u2028'
  | 'P' => some '\u2029'
  | _ => none

/-- The number of digits of an escape by code point. -/
def codeLength? : Char → Option Nat
  | 'x' => some 2
  | 'u' => some 4
  | 'U' => some 8
  | _ => none

/-- The character that hexadecimal digits name. -/
def codePoint? (digits : List Char) : Option Char := do
  let values ← digits.mapM Hex.digitValue?
  let code := values.foldl (fun n v ↦ 16 * n + v) 0
  if (0xD800 ≤ code && code ≤ 0xDFFF) || 0x10FFFF < code then none else some (Char.ofNat code)

/-- The character that an escape stands for, and how many characters follow its backslash. -/
def readEscape (s : List Char) : Reading (Char × Nat) :=
  match s with
  | [] => .error .badEscape
  | c :: rest =>
    match simpleEscape? c, codeLength? c with
    | some value, _ => .ok (value, 1)
    | none, some n =>
      if rest.length < n then .error .badEscape
      else match codePoint? (rest.take n) with
        | some value => .ok (value, n + 1)
        | none => .error .badEscape
    | none, none => .error .badEscape

/-- Reads the rest of a quoted scalar; `gap` holds the blanks and breaks before it, `joined` says
that an escaped break stands among them. `bound` bounds the number of characters. -/
def readQuoted (double : Bool) :
    (bound : Nat) → (gap : List Char) → (joined : Bool) → Cursor → Reading (List Char × Cursor)
  | 0, _, _, _ => .error .unexpectedEnd
  | bound + 1, gap, joined, cur => do
    let before :=
      if joined then gap.filter isBreak else foldGap gap
    let continue_ (chars : List Char) (n : Nat) : Reading (List Char × Cursor) := do
      let (tail, after) ← readQuoted double bound [] false (cur.skip n)
      return (before ++ chars ++ tail, after)
    if cur.atDocumentMark then throw .unexpectedIndicator
    match cur.rest with
    | [] => throw .unexpectedEnd
    | c :: rest =>
      if isSpace c then
        let (blanks, after) := cur.takeWhile isSpace
        readQuoted double bound (gap ++ blanks) joined after
      else if double then
        if c == '"' then return (before, cur.skip 1)
        else if c == '\\' then
          if rest.head?.any isBreak then
            let (tail, after) ← readQuoted double bound [] true (cur.skip 2)
            return (before ++ tail, after)
          else
            let (value, n) ← readEscape rest
            continue_ [value] (n + 1)
        else continue_ [c] 1
      else if c == '\'' then
        if rest.head? == some '\'' then continue_ ['\''] 2
        else return (before, cur.skip 1)
      else continue_ [c] 1

/-! ### Block scalars -/

/-- What becomes of the line breaks at the end of a block scalar. -/
inductive Chomping where
  | strip
  | clip
  | keep
  deriving DecidableEq, Repr

/-- Reads the chomping indicator and the indentation indicator behind `|` or `>`. -/
def readBlockHeader (cur : Cursor) : Reading (Chomping × Option Nat × Cursor) := do
  let chomping? (cur : Cursor) : Option Chomping × Cursor :=
    match cur.rest with
    | '+' :: _ => (some .keep, cur.skip 1)
    | '-' :: _ => (some .strip, cur.skip 1)
    | _ => (none, cur)
  let indent? (cur : Cursor) : Reading (Option Nat × Cursor) :=
    match cur.rest with
    | c :: _ =>
      if c == '0' then .error .badBlockHeader
      else if c.isDigit then .ok (some (c.toNat - '0'.toNat), cur.skip 1)
      else .ok (none, cur)
    | [] => .ok (none, cur)
  let (first, cur) := chomping? cur
  let (indent, cur) ← indent? cur
  let (chomping, cur) :=
    if first.isNone && indent.isSome then chomping? cur else (first, cur)
  let cur := cur.dropWhile isBlank
  let cur := if cur.rest.head? == some '#' then cur.dropWhile (!isBreak ·) else cur
  match cur.rest with
  | [] => return (chomping.getD .clip, indent, cur)
  | c :: _ =>
    if isBreak c then return (chomping.getD .clip, indent, cur.skip 1)
    else throw .badBlockHeader

/-- Passes empty lines and the indentation of the next line; gives the breaks, the greatest column
reached, and the place. Without `indent` any number of spaces is indentation. -/
def readIndentation (indent : Option Nat) :
    (bound : Nat) → (greatest : Nat) → Cursor → Reading (List Char × Nat × Cursor)
  | 0, greatest, cur => .ok ([], greatest, cur)
  | bound + 1, greatest, cur => do
    let spaces := (cur.rest.takeWhile (· == ' ')).length
    let cur := cur.skip (match indent with
      | some n => min spaces (n - cur.column)
      | none => spaces)
    let greatest := max greatest cur.column
    match cur.rest with
    | c :: _ =>
      if c == '\t' && indent.all (cur.column < ·) then throw .tabIndentation
      else if isBreak c then
        let (breaks, greatest, cur) ← readIndentation indent bound greatest (cur.skip 1)
        return (c :: breaks, greatest, cur)
      else return ([], greatest, cur)
    | [] => return ([], greatest, cur)

/-- The lines of a block scalar after the first breaks: its text, the break that ends it and the
breaks after that. -/
def readBlockLines (folded : Bool) (indent : Nat) :
    (bound : Nat) → (lead : List Char) → (trail : List Char) → (afterBlank : Bool) → Cursor →
      Reading (List Char × List Char × List Char × Cursor)
  | 0, lead, trail, _, cur => .ok ([], lead, trail, cur)
  | bound + 1, lead, trail, afterBlank, cur => do
    if cur.column != indent || cur.rest.isEmpty then return ([], lead, trail, cur)
    let blank := cur.rest.head?.any isBlank
    let gap :=
      if folded && lead == ['\n'] && !afterBlank && !blank then
        if trail.isEmpty then [' '] else trail
      else lead ++ trail
    let (line, cur) := cur.takeWhile (!isBreak ·)
    let lead := cur.rest.take 1
    let cur := cur.skip 1
    let (trail, _, cur) ← readIndentation (some indent) (cur.rest.length + 1) 0 cur
    let (text, lead, trail, cur) ← readBlockLines folded indent bound lead trail blank cur
    return (gap ++ line ++ text, lead, trail, cur)

/-- Reads a block scalar behind its `|` or `>`, in a collection indented to `parent`. -/
def readBlock (folded : Bool) (parent : Int) (cur : Cursor) : Reading (List Char × Cursor) := do
  let (chomping, increment, cur) ← readBlockHeader cur
  let bound := cur.rest.length + 1
  let given := increment.map fun n ↦ (max parent 0).toNat + n
  let (trail, greatest, cur) ← readIndentation given bound 0 cur
  let indent := given.getD (max greatest (max (parent + 1).toNat 1))
  let (text, lead, trail, cur) ← readBlockLines folded indent bound [] trail false cur
  return (text ++ (if chomping = .strip then [] else lead) ++
    (if chomping = .keep then trail else []), cur)

end ContractBindings.Yaml
