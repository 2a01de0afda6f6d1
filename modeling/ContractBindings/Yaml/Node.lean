import ContractBindings.Yaml.Token

/-!
# YAML documents

A document is a tree of scalars, sequences and mappings; an alias stands for the node that bore
its anchor. The tokens of a text are read into the nodes of its document by descent. A stream
holds one document at most: an empty stream stands for a document that is void.

Anchors are numbered as they are met, and an alias refers to the number that its name had at that
point. A name that is used again gets the count of distinct names as its new number, which a later
name may get too; the last node with a number is the one that counts.
-/

namespace ContractBindings.Yaml

/-- Nodes of a document. -/
inductive Node where
  /-- The content of an empty stream. -/
  | void
  | scalar (style : Style) (tag : Option String) (value : String)
  | sequence (elements : List Node)
  | mapping (entries : List (Node × Node))
  | alias (number : Nat)
  deriving Repr

/-- A document: its root and the nodes that bear anchors, by number. -/
structure Document where
  root : Node
  anchored : List (Nat × Node)

namespace Node

/-- The empty node that stands where none is written. -/
def empty : Node :=
  scalar .plain none ""

/-- Puts an element in front of a sequence. -/
def prepend (element : Node) : Node → Node
  | sequence elements => sequence (element :: elements)
  | other => other

/-- Puts an entry in front of a mapping. -/
def prependEntry (key value : Node) : Node → Node
  | mapping entries => mapping ((key, value) :: entries)
  | other => other

end Node

/-- What has been met while nodes are read. -/
structure Context where
  /-- The expansions of handles. -/
  handles : List (String × String)
  /-- The numbers that anchors have. -/
  numbers : List (String × Nat)
  /-- The nodes that bear anchors, later ones first. -/
  anchored : List (Nat × Node)

namespace Context

/-- The expansions of handles that no directive gives. -/
def defaultHandles : List (String × String) :=
  [("!", "!"), ("!!", "tag:yaml.org,2002:")]

/-- The start of a document. -/
def start (handles : List (String × String)) : Context :=
  ⟨handles ++ defaultHandles, [], []⟩

/-- The tag that a handle and a suffix stand for. -/
def expand (ctx : Context) (handle suffix : String) : Reading String :=
  if handle.isEmpty then .ok suffix
  else match ctx.handles.lookup handle with
    | some expansion => .ok (expansion ++ suffix)
    | none => .error .badTag

/-- Gives an anchor its number. -/
def declare (ctx : Context) (name : String) : Nat × Context :=
  let number := ctx.numbers.length
  let others := ctx.numbers.filter (·.1 != name)
  (number, { ctx with numbers := (name, number) :: others })

end Context

/-- The anchor and the tag of a node. -/
structure Properties where
  anchor : Option String
  tag : Option (String × String)

/-- Splits off the anchor and the tag in front of a node, in either order. -/
def readProperties : List Token → Properties × List Token
  | .anchor name :: .tag handle suffix :: rest => (⟨some name, some (handle, suffix)⟩, rest)
  | .tag handle suffix :: .anchor name :: rest => (⟨some name, some (handle, suffix)⟩, rest)
  | .anchor name :: rest => (⟨some name, none⟩, rest)
  | .tag handle suffix :: rest => (⟨none, some (handle, suffix)⟩, rest)
  | rest => (⟨none, none⟩, rest)

/-- What reading nodes gives: a node, the context and the tokens behind it. -/
abbrev NodeRead := Node × Context × List Token

/-- Whether the next token is one of a list. -/
def nextIs (tokens : List Token) (among : List Token) : Bool :=
  tokens.head?.any (among.contains ·)

mutual

/-- Reads a node. Inside a mapping a sequence may stand without indentation; `bound` bounds the
number of calls. -/
def readNode (bound : Nat) (block inMapping : Bool) (ctx : Context) (tokens : List Token) :
    Reading NodeRead :=
  match bound with
  | 0 => .error .badStructure
  | bound + 1 =>
    match tokens with
    | .alias name :: rest =>
      match ctx.numbers.lookup name with
      | some number => .ok (.alias number, ctx, rest)
      | none => .error .unknownAlias
    | tokens => do
      let (properties, rest) := readProperties tokens
      let tag ← properties.tag.mapM fun (handle, suffix) ↦ ctx.expand handle suffix
      let (number, ctx) := match properties.anchor with
        | some name =>
          let (number, ctx) := ctx.declare name
          (some number, ctx)
        | none => (none, ctx)
      let (node, ctx, rest) ←
        match rest with
        | .scalar style value :: rest => pure (Node.scalar style tag value, ctx, rest)
        | .flowSequenceStart :: rest => readFlowSequence bound true ctx rest
        | .flowMappingStart :: rest => readFlowMapping bound true ctx rest
        | .blockSequenceStart :: rest =>
          if block then readBlockSequence bound ctx rest
          else if properties.anchor.isSome || tag.isSome then
            pure (.scalar .plain tag "", ctx, .blockSequenceStart :: rest)
          else throw .badStructure
        | .blockMappingStart :: rest =>
          if block then readBlockMapping bound ctx rest
          else if properties.anchor.isSome || tag.isSome then
            pure (.scalar .plain tag "", ctx, .blockMappingStart :: rest)
          else throw .badStructure
        | rest =>
          if inMapping && nextIs rest [.blockEntry] then readPlainSequence bound ctx rest
          else if properties.anchor.isSome || tag.isSome then
            pure (.scalar .plain tag "", ctx, rest)
          else throw .badStructure
      let ctx := match number with
        | some number => { ctx with anchored := (number, node) :: ctx.anchored }
        | none => ctx
      return (node, ctx, rest)

/-- Reads a node, or an empty one if the next token ends its place. -/
def readOptional (bound : Nat) (block inMapping : Bool) (ends : List Token) (ctx : Context)
    (tokens : List Token) : Reading NodeRead :=
  match bound with
  | 0 => .error .badStructure
  | bound + 1 =>
    if nextIs tokens ends then .ok (.empty, ctx, tokens)
    else readNode bound block inMapping ctx tokens

/-- Reads the entries of an indented sequence. -/
def readBlockSequence (bound : Nat) (ctx : Context) (tokens : List Token) : Reading NodeRead :=
  match bound with
  | 0 => .error .badStructure
  | bound + 1 =>
    match tokens with
    | .blockEntry :: rest => do
      let (first, ctx, rest) ← readOptional bound true false [.blockEntry, .blockEnd] ctx rest
      let (tail, ctx, rest) ← readBlockSequence bound ctx rest
      return (Node.prepend first tail, ctx, rest)
    | .blockEnd :: rest => .ok (.sequence [], ctx, rest)
    | _ => .error .badStructure

/-- Reads the entries of a sequence that is not indented. -/
def readPlainSequence (bound : Nat) (ctx : Context) (tokens : List Token) : Reading NodeRead :=
  match bound with
  | 0 => .error .badStructure
  | bound + 1 =>
    match tokens with
    | .blockEntry :: rest => do
      let ends := [.blockEntry, .key, .value, .blockEnd]
      let (first, ctx, rest) ← readOptional bound true false ends ctx rest
      let (tail, ctx, rest) ← readPlainSequence bound ctx rest
      return (Node.prepend first tail, ctx, rest)
    | rest => .ok (.sequence [], ctx, rest)

/-- Reads the entries of an indented mapping. -/
def readBlockMapping (bound : Nat) (ctx : Context) (tokens : List Token) : Reading NodeRead :=
  match bound with
  | 0 => .error .badStructure
  | bound + 1 =>
    match tokens with
    | .blockEnd :: rest => .ok (.mapping [], ctx, rest)
    | .key :: rest => do
      let ends := [.key, .value, .blockEnd]
      let (key, ctx, rest) ← readOptional bound true true ends ctx rest
      let (value, ctx, rest) ←
        match rest with
        | .value :: rest => readOptional bound true true ends ctx rest
        | rest => pure (.empty, ctx, rest)
      let (tail, ctx, rest) ← readBlockMapping bound ctx rest
      return (Node.prependEntry key value tail, ctx, rest)
    | _ => .error .badStructure

/-- Reads the value behind a key of a flow collection, if there is one. -/
def readFlowValue (bound : Nat) (ends : List Token) (ctx : Context) (tokens : List Token) :
    Reading NodeRead :=
  match bound with
  | 0 => .error .badStructure
  | bound + 1 =>
    match tokens with
    | .value :: rest => readOptional bound false false ends ctx rest
    | rest => .ok (.empty, ctx, rest)

/-- Reads the elements of a flow sequence; a key makes an element a mapping of its own. -/
def readFlowSequence (bound : Nat) (first : Bool) (ctx : Context) (tokens : List Token) :
    Reading NodeRead :=
  match bound with
  | 0 => .error .badStructure
  | bound + 1 => do
    let tokens ← match first, tokens with
      | _, .flowSequenceEnd :: _ => pure tokens
      | true, _ => pure tokens
      | false, .flowEntry :: rest => pure rest
      | false, _ => throw .badStructure
    match tokens with
    | .flowSequenceEnd :: rest => return (.sequence [], ctx, rest)
    | .key :: rest =>
      let (key, ctx, rest) ←
        if nextIs rest [.value, .flowEntry, .flowSequenceEnd] then
          pure (.empty, ctx, rest.drop 1)
        else readNode bound false false ctx rest
      let (value, ctx, rest) ← readFlowValue bound [.flowEntry, .flowSequenceEnd] ctx rest
      let (tail, ctx, rest) ← readFlowSequence bound false ctx rest
      return (Node.prepend (.mapping [(key, value)]) tail, ctx, rest)
    | tokens =>
      let (element, ctx, rest) ← readNode bound false false ctx tokens
      let (tail, ctx, rest) ← readFlowSequence bound false ctx rest
      return (Node.prepend element tail, ctx, rest)

/-- Reads the entries of a flow mapping; an entry without a key token has no value. -/
def readFlowMapping (bound : Nat) (first : Bool) (ctx : Context) (tokens : List Token) :
    Reading NodeRead :=
  match bound with
  | 0 => .error .badStructure
  | bound + 1 => do
    let tokens ← match first, tokens with
      | _, .flowMappingEnd :: _ => pure tokens
      | true, _ => pure tokens
      | false, .flowEntry :: rest => pure rest
      | false, _ => throw .badStructure
    match tokens with
    | .flowMappingEnd :: rest => return (.mapping [], ctx, rest)
    | .key :: rest =>
      let (key, ctx, rest) ←
        readOptional bound false false [.value, .flowEntry, .flowMappingEnd] ctx rest
      let (value, ctx, rest) ← readFlowValue bound [.flowEntry, .flowMappingEnd] ctx rest
      let (tail, ctx, rest) ← readFlowMapping bound false ctx rest
      return (Node.prependEntry key value tail, ctx, rest)
    | tokens =>
      let (key, ctx, rest) ← readNode bound false false ctx tokens
      let (tail, ctx, rest) ← readFlowMapping bound false ctx rest
      return (Node.prependEntry key .empty tail, ctx, rest)

end

/-! ### Documents -/

/-- Reads the directives in front of a document; gives the expansions of handles. -/
def readDirectives (version : Bool) (handles : List (String × String)) :
    List Token → Reading (Bool × List (String × String) × List Token)
  | .version major minor :: rest =>
    if version || major != 1 || (minor != 1 && minor != 2) then .error .badDirective
    else readDirectives true handles rest
  | .tagDirective handle expansion :: rest =>
    if (handles.lookup handle).isSome then .error .badDirective
    else readDirectives version ((handle, expansion) :: handles) rest
  | rest => .ok (version || !handles.isEmpty, handles, rest)

/-- Reads the root of a document behind its start. -/
def readRoot (handles : List (String × String)) (tokens : List Token) :
    Reading (Document × List Token) := do
  let ctx := Context.start handles
  let ends := [.documentStart, .documentEnd]
  if tokens.isEmpty || nextIs tokens ends || directive tokens then
    return (⟨.empty, []⟩, tokens)
  else
    let (root, ctx, rest) ← readNode (4 * tokens.length + 4) true false ctx tokens
    return (⟨root, ctx.anchored⟩, rest)
where
  /-- Whether the next token is a directive. -/
  directive : List Token → Bool
    | .version _ _ :: _ => true
    | .tagDirective _ _ :: _ => true
    | _ => false

/-- Passes the marks that end documents. -/
def skipDocumentEnds : List Token → List Token
  | .documentEnd :: rest => skipDocumentEnds rest
  | rest => rest

/-- The document of a text. -/
def Document.parse (text : String) : Reading Document := do
  let tokens ← tokenize text
  let (directed, handles, rest) ← readDirectives false [] tokens
  match rest with
  | [] => if directed then throw .badStructure else return ⟨.void, []⟩
  | rest =>
    let (document, rest) ← match rest with
      | .documentStart :: rest => readRoot handles rest
      | rest =>
        if directed then throw .badStructure
        else
          let (root, ctx, rest) ←
            readNode (4 * rest.length + 4) true false (.start handles) rest
          pure (⟨root, ctx.anchored⟩, rest)
    if (skipDocumentEnds rest).isEmpty then return document else throw .manyDocuments

end ContractBindings.Yaml
