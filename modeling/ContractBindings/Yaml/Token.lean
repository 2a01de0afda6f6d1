import ContractBindings.Yaml.Scalar

/-!
# Tokens of a YAML text

A YAML text is cut into tokens that show its structure: indentation becomes tokens that open and
close collections, and a token stands before each key. That a scalar is a key shows only at the
colon behind it; the token for the key is then put in front of the scalar. A place where a key may
have started stays open until a colon follows, the line ends, or another token rules it out; at
the start of an indented line a key has to follow.
-/

namespace ContractBindings.Yaml

/-- Tokens of a YAML text. -/
inductive Token where
  | version (major minor : Nat)
  | tagDirective (handle expansion : String)
  | documentStart
  | documentEnd
  | blockSequenceStart
  | blockMappingStart
  | blockEnd
  | flowSequenceStart
  | flowSequenceEnd
  | flowMappingStart
  | flowMappingEnd
  | blockEntry
  | flowEntry
  | key
  | value
  | alias (name : String)
  | anchor (name : String)
  | tag (handle suffix : String)
  | scalar (style : Style) (value : String)
  deriving DecidableEq, Repr

/-- A place where a key may have started. -/
structure OpenKey where
  /-- Whether a key has to start there. -/
  required : Bool
  /-- The number of tokens before it. -/
  position : Nat
  line : Nat
  column : Nat
  index : Nat

/-- A text that is being cut into tokens. -/
structure Scanner where
  cursor : Cursor
  /-- The tokens so far. -/
  tokens : Array Token
  /-- The column of the innermost block collection, `-1` outside of all. -/
  indent : Int
  /-- The columns of the collections around it. -/
  outer : List Int
  /-- Where a key may have started in the innermost collection. -/
  openKey : Option OpenKey
  /-- The same for the collections around each flow collection, innermost first. -/
  outerKeys : List (Option OpenKey)
  /-- Whether a key may start at the next token. -/
  keyAllowed : Bool

namespace Scanner

/-- The start of a text. -/
def start (text : List Char) : Scanner where
  cursor := .start text
  tokens := #[]
  indent := -1
  outer := []
  openKey := none
  outerKeys := []
  keyAllowed := true

/-- Whether the next token stands in a flow collection. -/
def inFlow (s : Scanner) : Bool :=
  !s.outerKeys.isEmpty

/-- Adds a token. -/
def push (s : Scanner) (t : Token) : Scanner :=
  { s with tokens := s.tokens.push t }

/-- Adds a token and moves over the `n` characters that it is written with. -/
def take (s : Scanner) (t : Token) (n : Nat) : Scanner :=
  { s.push t with cursor := s.cursor.skip n }

/-- Gives up the place where a key may have started. -/
def dropKey (s : Scanner) : Reading Scanner :=
  if s.openKey.any (·.required) then .error .missingColon else .ok { s with openKey := none }

/-- Marks the next token as a place where a key may start, if one may. -/
def saveKey (s : Scanner) : Reading Scanner :=
  if s.keyAllowed then do
    let required := !s.inFlow && s.indent == s.cursor.column
    let s ← s.dropKey
    let key := ⟨required, s.tokens.size, s.cursor.line, s.cursor.column, s.cursor.index⟩
    return { s with openKey := some key }
  else .ok s

/-- The greatest number of characters of a key on one line. -/
def longestKey : Nat := 1024

/-- A place where a key may have started, unless the line or the length of a key has ended. -/
def keepKey (cur : Cursor) (key : Option OpenKey) : Reading (Option OpenKey) :=
  match key with
  | none => .ok none
  | some k =>
    if k.line < cur.line || k.index + longestKey < cur.index then
      if k.required then .error .missingColon else .ok none
    else .ok (some k)

/-- Gives up the places where a key can no longer have started. -/
def expireKeys (s : Scanner) : Reading Scanner := do
  let openKey ← keepKey s.cursor s.openKey
  let outerKeys ← s.outerKeys.mapM (keepKey s.cursor)
  return { s with openKey, outerKeys }

/-- Opens a block collection at a column that is further right than the innermost one, by a token
at `position`. -/
def openBlock (s : Scanner) (column : Nat) (position : Nat) (t : Token) : Scanner :=
  if !s.inFlow && s.indent < column then
    { s with
      indent := column
      outer := s.indent :: s.outer
      tokens := s.tokens.insertIdxIfInBounds position t }
  else s

/-- Closes `levels` block collections at most, as long as they are right of a column. -/
def closeBlocksUpTo (column : Int) : (levels : Nat) → Scanner → Scanner
  | 0, s => s
  | levels + 1, s =>
    if column < s.indent then
      closeBlocksUpTo column levels
        { s.push .blockEnd with indent := s.outer.headD (-1), outer := s.outer.tail }
    else s

/-- Closes the block collections that are right of a column. -/
def closeBlocks (s : Scanner) (column : Int) : Scanner :=
  if s.inFlow then s else closeBlocksUpTo column s.outer.length s

/-! ### Between tokens -/

/-- Moves over blanks, comments and line breaks to the next token. -/
def skipToToken (keyAllowed inFlow : Bool) : (bound : Nat) → Cursor → Cursor × Bool
  | 0, cur => (cur, keyAllowed)
  | bound + 1, cur =>
    let cur :=
      if cur.index == 0 && cur.rest.head? == some '\uFEFF' then cur.skip 1 else cur
    let cur := cur.dropWhile fun c ↦ c == ' ' || ((inFlow || !keyAllowed) && c == '\t')
    let cur := if cur.rest.head? == some '#' then cur.dropWhile (!isBreak ·) else cur
    if cur.rest.head?.any isBreak then
      skipToToken (keyAllowed || !inFlow) inFlow bound (cur.skip 1)
    else (cur, keyAllowed)

/-! ### Directives, anchors and tags -/

/-- Splits off a word; there has to be one. -/
def readWord (fault : Fault) (cur : Cursor) : Reading (String × Cursor) :=
  match cur.takeWhile isWordChar with
  | ([], _) => .error fault
  | (word, cur) => .ok (String.ofList word, cur)

/-- Splits off a number of at most nine digits. -/
def readVersionNumber (cur : Cursor) : Reading (Nat × Cursor) :=
  match cur.takeWhile Char.isDigit with
  | ([], _) => .error .badDirective
  | (digits, cur) =>
    if 9 < digits.length then .error .badDirective
    else .ok (digits.foldl (fun n c ↦ 10 * n + (c.toNat - '0'.toNat)) 0, cur)

/-- Characters of tags and of the expansions of handles. -/
def isTagChar (verbatim : Bool) (c : Char) : Bool :=
  isWordChar c || (";/?:@&=+$.!~*'()%".toList.contains c) ||
    (verbatim && (",[]".toList.contains c))

/-- The characters of a tag with the bytes that are written with `%` decoded. -/
def decodeTag (chars : List Char) : Reading String := do
  let bytes ← go chars
  match String.fromUTF8? (ByteArray.mk bytes.toArray) with
  | some text => return text
  | none => throw .badTag
where
  /-- The bytes of the characters. -/
  go : List Char → Reading (List UInt8)
    | '%' :: a :: b :: rest =>
      match Hex.digitValue? a, Hex.digitValue? b with
      | some a, some b => return UInt8.ofNat (16 * a + b) :: (← go rest)
      | _, _ => .error .badTag
    | '%' :: _ => .error .badTag
    | c :: rest => return String.utf8EncodeChar c ++ (← go rest)
    | [] => .ok []

/-- Splits off a handle: `!`, `!!` or `!word!`; a word without its second mark is none unless
`lenient` allows it. -/
def readHandle (lenient : Bool) (cur : Cursor) : Reading (String × Cursor) := do
  if cur.rest.head? != some '!' then throw .badTag
  let (word, after) := (cur.skip 1).takeWhile isWordChar
  if after.rest.head? == some '!' then
    return (String.ofList ('!' :: word ++ ['!']), after.skip 1)
  else if lenient || word.isEmpty then return (String.ofList ('!' :: word), after)
  else throw .badTag

/-- Reads a directive behind its `%`, up to the end of its line. -/
def readDirective (cur : Cursor) : Reading (Token × Cursor) := do
  let (name, cur) ← readWord .badDirective cur
  if !atSpace cur.rest then throw .badDirective
  let (token, cur) ←
    if name == "YAML" then
      let (major, cur) ← readVersionNumber (cur.dropWhile isBlank)
      if cur.rest.head? != some '.' then throw .badDirective
      let (minor, cur) ← readVersionNumber (cur.skip 1)
      pure (Token.version major minor, cur)
    else if name == "TAG" then
      let (handle, cur) ← readHandle false (cur.dropWhile isBlank)
      if !(cur.rest.head?.any isBlank) then throw .badDirective
      let (expansion, cur) := (cur.dropWhile isBlank).takeWhile (isTagChar true)
      if expansion.isEmpty || !atSpace cur.rest then throw .badDirective
      pure (Token.tagDirective handle (← decodeTag expansion), cur)
    else throw .badDirective
  let cur := cur.dropWhile isBlank
  let cur := if cur.rest.head? == some '#' then cur.dropWhile (!isBreak ·) else cur
  match cur.rest with
  | [] => return (token, cur)
  | c :: _ => if isBreak c then return (token, cur.skip 1) else throw .badDirective

/-- Reads the name of an anchor or alias. -/
def readAnchor (cur : Cursor) : Reading (String × Cursor) := do
  let (name, cur) ← readWord .badAnchor cur
  if atSpace cur.rest || cur.rest.head?.any ("?:,]\x7d%@`".toList.contains ·) then
    return (name, cur)
  else throw .badAnchor

/-- Reads a tag. -/
def readTag (inFlow : Bool) (cur : Cursor) : Reading (Token × Cursor) := do
  let (token, cur) ←
    if cur.rest.tail.head? == some '<' then
      let (uri, cur) := (cur.skip 2).takeWhile (isTagChar true)
      if uri.isEmpty || cur.rest.head? != some '>' then throw .badTag
      pure (Token.tag "" (← decodeTag uri), cur.skip 1)
    else
      let (handle, afterHandle) ← readHandle true cur
      let (rest, cur) := afterHandle.takeWhile (isTagChar false)
      if 2 ≤ handle.length && handle.endsWith "!" then
        if rest.isEmpty then throw .badTag
        pure (Token.tag handle (← decodeTag rest), cur)
      else
        let suffix ← decodeTag (handle.toList.drop 1 ++ rest)
        pure (if suffix.isEmpty then Token.tag "" "!" else Token.tag "!" suffix, cur)
  if atSpace cur.rest || (inFlow && cur.rest.head? == some ',') then return (token, cur)
  else throw .badTag

/-! ### Tokens -/

/-- Closes all block collections, as a new document or the end of the text does. -/
def leaveDocument (s : Scanner) : Reading Scanner := do
  let s ← (s.closeBlocks (-1)).dropKey
  return { s with keyAllowed := false }

/-- Opens a flow collection. -/
def openFlow (s : Scanner) (t : Token) : Reading Scanner := do
  let s ← s.saveKey
  return { s.take t 1 with
    openKey := none
    outerKeys := s.openKey :: s.outerKeys
    keyAllowed := true }

/-- Closes a flow collection. -/
def closeFlow (s : Scanner) (t : Token) : Reading Scanner := do
  let s ← s.dropKey
  let s := match s.outerKeys with
    | [] => s
    | key :: outerKeys => { s with openKey := key, outerKeys }
  return { s.take t 1 with keyAllowed := false }

/-- Opens a block collection at the next token, where a key or an entry has to be allowed. -/
def beginBlock (s : Scanner) (t : Token) : Reading Scanner :=
  if s.inFlow then .ok s
  else if s.keyAllowed then .ok (s.openBlock s.cursor.column s.tokens.size t)
  else .error .keyNotAllowed

/-- The token for a colon. -/
def scanColon (s : Scanner) : Reading Scanner := do
  let s ← match s.openKey with
    | some key =>
      let tokens := s.tokens.insertIdxIfInBounds key.position .key
      let s := { s with tokens, openKey := none, keyAllowed := false }
      pure (s.openBlock key.column key.position .blockMappingStart)
    | none =>
      let s ← s.beginBlock .blockMappingStart
      pure { s with keyAllowed := !s.inFlow }
  return s.take .value 1

/-- A token that may be a key, read from the next characters. -/
def scanNode (s : Scanner) (read : Cursor → Reading (Token × Cursor)) : Reading Scanner := do
  let s ← s.saveKey
  let (token, cursor) ← read s.cursor
  return { s.push token with cursor, keyAllowed := false }

/-- A plain scalar. A key may start behind it if it ends a line. -/
def scanPlain (s : Scanner) : Reading Scanner := do
  let s ← s.saveKey
  let (value, broken, cursor) ←
    readPlain s.inFlow (s.indent + 1).toNat (s.cursor.rest.length + 1) [] s.cursor
  return { s.push (.scalar .plain (String.ofList value)) with cursor, keyAllowed := broken }

/-- A quoted scalar. -/
def scanQuoted (s : Scanner) (double : Bool) : Reading Scanner :=
  s.scanNode fun cur ↦ do
    let (value, cur) ← readQuoted double cur.rest.length [] false (cur.skip 1)
    return (.scalar .quoted (String.ofList value), cur)

/-- A block scalar. -/
def scanBlock (s : Scanner) (folded : Bool) : Reading Scanner := do
  let s ← s.dropKey
  let (value, cursor) ← readBlock folded s.indent (s.cursor.skip 1)
  let style := if folded then Style.folded else Style.literal
  return { s.push (.scalar style (String.ofList value)) with cursor, keyAllowed := true }

/-- Whether a plain scalar may start with `c`, followed by `rest`. -/
def startsPlain (inFlow : Bool) (c : Char) (rest : List Char) : Bool :=
  (!isSpace c && !("-?:,[]\x7b\x7d#&*!|>'\"%@`".toList.contains c)) ||
    (c == '-' && !rest.head?.any isBlank) ||
    (!inFlow && (c == '?' || c == ':') && !atSpace rest)

/-- Reads the token that starts with `c`, followed by `rest`. -/
def scanToken (s : Scanner) (c : Char) (rest : List Char) : Reading Scanner := do
  if c == '%' && s.cursor.column == 0 then
    let s ← s.leaveDocument
    let (token, cursor) ← readDirective (s.cursor.skip 1)
    return { s.push token with cursor }
  else if s.cursor.atDocumentMark then
    let s ← s.leaveDocument
    return s.take (if c == '-' then .documentStart else .documentEnd) 3
  else if c == '[' then s.openFlow .flowSequenceStart
  else if c == '\x7b' then s.openFlow .flowMappingStart
  else if c == ']' then s.closeFlow .flowSequenceEnd
  else if c == '\x7d' then s.closeFlow .flowMappingEnd
  else if c == ',' then
    let s ← s.dropKey
    return { s.take .flowEntry 1 with keyAllowed := true }
  else if c == '-' && atSpace rest then
    let s ← (← s.beginBlock .blockSequenceStart).dropKey
    return { s.take .blockEntry 1 with keyAllowed := true }
  else if c == '?' && (s.inFlow || atSpace rest) then
    let s ← (← s.beginBlock .blockMappingStart).dropKey
    return { s.take .key 1 with keyAllowed := !s.inFlow }
  else if c == ':' && (s.inFlow || atSpace rest) then s.scanColon
  else if c == '*' then
    s.scanNode fun cur ↦ do
      let (name, cur) ← readAnchor (cur.skip 1)
      return (.alias name, cur)
  else if c == '&' then
    s.scanNode fun cur ↦ do
      let (name, cur) ← readAnchor (cur.skip 1)
      return (.anchor name, cur)
  else if c == '!' then s.scanNode (readTag s.inFlow)
  else if c == '|' && !s.inFlow then s.scanBlock false
  else if c == '>' && !s.inFlow then s.scanBlock true
  else if c == '\'' then s.scanQuoted false
  else if c == '"' then s.scanQuoted true
  else if startsPlain s.inFlow c rest then s.scanPlain
  else throw .unexpectedIndicator

/-- Reads tokens to the end of the text; `bound` bounds their number. -/
def scan : (bound : Nat) → Scanner → Reading Scanner
  | 0, s => .ok s
  | bound + 1, s => do
    let (cursor, keyAllowed) :=
      skipToToken s.keyAllowed s.inFlow (s.cursor.rest.length + 1) s.cursor
    let s ← { s with cursor, keyAllowed }.expireKeys
    match s.cursor.rest with
    | [] => s.leaveDocument
    | c :: rest =>
      let s := s.closeBlocks s.cursor.column
      scan bound (← s.scanToken c rest)

end Scanner

/-- A text without the byte order mark in front of it. -/
def dropByteOrderMark : List Char → List Char
  | '\uFEFF' :: rest => rest
  | s => s

/-- The tokens of a text. -/
def tokenize (text : String) : Reading (List Token) := do
  let chars := dropByteOrderMark text.toList
  if !chars.all isAllowed then throw .controlCharacter
  let chars := unifyBreaks chars
  let s ← Scanner.scan (chars.length + 1) (.start chars)
  return s.tokens.toList

end ContractBindings.Yaml
