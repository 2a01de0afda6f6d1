import ContractBindings.Log

/-!
# Filters of notices

Which notices are shown is said by directives such as `warn` or `manifest_loader=debug`. A
directive applies to the notices whose target starts with its own, and of those that apply to a
notice the most specific one decides. A directive may also name a span or fields: no notice
belongs to a span, and the only field of a notice is its message.
-/

namespace ContractBindings.Log

/-- A rule on notices. -/
structure Directive where
  target : List Char
  /-- The fields that a notice has to have. -/
  fields : List (List Char)
  /-- The least important level that is shown, if any is. -/
  level : Option Level
  deriving DecidableEq

/-- Rules on notices. -/
abbrev Filter := List Directive

namespace Directive

/-- Whether a directive applies to a notice. -/
def applies (d : Directive) (notice : Notice) : Bool :=
  d.target.isPrefixOf notice.target.toList && d.fields.all (· == "message".toList)

/-- Whether a directive is at least as specific as another one. -/
def isAsSpecific (d other : Directive) : Bool :=
  other.target.length < d.target.length ||
    (d.target.length == other.target.length && other.fields.length ≤ d.fields.length)

/-- Whether a directive shows the notices of a level. -/
def shows (d : Directive) (level : Level) : Bool :=
  (d.level.map fun least ↦ decide (level.rank ≤ least.rank)).getD false

end Directive

namespace Filter

/-- The directive that decides about a notice: the most specific one, and of equals the last. -/
def deciding (filter : Filter) (notice : Notice) : Option Directive :=
  filter.foldl
    (fun best d ↦
      if d.applies notice && (best.map d.isAsSpecific).getD true then some d else best) none

/-- Whether a notice is shown. -/
def shows (filter : Filter) (notice : Notice) : Bool :=
  ((filter.deciding notice).map (·.shows notice.level)).getD false

/-- Shows notices down to a level. -/
def ofLevel (level : Level) : Filter :=
  [⟨[], [], some level⟩]

end Filter

/-! ### Reading -/

/-- The level that a text names, in any case or by number; `off` and 0 name none. -/
def readLevel? (s : List Char) : Option (Option Level) :=
  let digits := match s with
    | '+' :: rest => rest
    | s => s
  match Hex.number? 10 digits with
  | some 0 => some none
  | some n => (Level.all.find? (·.rank == n)).map some
  | none =>
    let name := String.ofList (s.map Char.toUpper)
    if name = "OFF" then some none else (Level.all.find? (·.name == name)).map some

/-- The level behind an equals sign; left out, it is the least important one. -/
def levelAfterSign? (s : List Char) : Option (Option Level) :=
  if s.isEmpty then some (some .trace) else readLevel? s

/-- Whether a directive may start with a character. -/
def startsDirective (c : Char) : Bool :=
  c.isAlphanum || 0x80 ≤ c.toNat || ['-', ':', '_', '['].contains c

/-- Reads what follows the target of a directive from an opening bracket on: a span, fields in
braces, and a level. A directive with a span, or with the value of a field, comes to nothing. -/
def readScope? (target s : List Char) : Option (List Directive) :=
  let span := s.takeWhile fun c ↦ c != ']' && c != '\x7b'
  let behind (rest : List Char) (directive : Option Level → List Directive) :=
    match rest with
    | [] => some (directive (some .trace))
    | '=' :: level => (levelAfterSign? level).map directive
    | _ => none
  match s.dropWhile fun c ↦ c != ']' && c != '\x7b' with
  | ']' :: rest => behind rest fun _ ↦ []
  | '\x7b' :: rest =>
    let field := rest.takeWhile (· != '\x7d')
    match field, rest.dropWhile (· != '\x7d') with
    | _ :: _, '\x7d' :: ']' :: rest =>
      behind rest fun level ↦
        if span.isEmpty && !field.contains '=' then [⟨target, [field], level⟩] else []
    | _, _ => none
  | _ => none

/-- The directive that a text writes. Blanks around it are not looked at, yet the target and the
level are cut from the text with them, so that a directive among blanks names neither. -/
def readDirective? (s : List Char) : Option (List Directive) :=
  let shown := Text.trim s
  let length := (shown.takeWhile fun c ↦ c != '=' && c != '[').length
  if !(shown.head?.map startsDirective).getD false then none
  else match shown.drop length with
    | '[' :: _ => readScope? (s.take length) (s.drop (length + 1))
    | '=' :: _ => do
      return [⟨s.take length, [], ← levelAfterSign? (s.drop (length + 1))⟩]
    | _ =>
      match readLevel? s with
      | some level => some [⟨[], [], level⟩]
      | none => some [⟨s, [], some .trace⟩]

/-- The filter that a text writes, if every directive in it is one. -/
def Filter.parse? (text : String) : Option Filter :=
  let directives := (Text.splitOn ',' text.toList).filter (!·.isEmpty)
  if directives.isEmpty then some (ofLevel .error)
  else do return (← directives.mapM readDirective?).flatten

/-- The filter of a run: the one of the environment if it is one, and otherwise warnings, or with
`verbose` all but the finest notices. -/
def Filter.choose (environment : Option String) (verbose : Bool) : Filter :=
  (environment.bind parse?).getD (ofLevel (if verbose then .debug else .warn))

end ContractBindings.Log
