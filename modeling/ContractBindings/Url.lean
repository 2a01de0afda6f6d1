import ContractBindings.Url.Host
import ContractBindings.Word

/-!
# URLs

A URL is read leniently, as browsers do, and written in one normal form: blanks around it are
dropped, the scheme and the host are lower case, a port that the scheme implies is left out, dots
in the path are resolved, and characters that do not belong are percent-encoded. User names and
passwords are sent apart from the URL and are no part of it.

Schemes that are looked up by host and port have a host in any case, and a backslash counts as a
slash in them.
-/

namespace ContractBindings

/-- A URL in its normal form. -/
structure Url where
  scheme : String
  /-- The host, with the port unless the scheme implies it. It may be left out or be empty. -/
  authority : Option String
  /-- The path, the query and the fragment. -/
  resource : String
  deriving DecidableEq, Repr

namespace Url

/-- The written form of a URL. -/
def text (url : Url) : String :=
  url.scheme ++ ":" ++ (url.authority.map ("//" ++ ·)).getD "" ++ url.resource

/-- Whether a URL names a host. -/
def hasHost (url : Url) : Bool :=
  !(url.authority.getD "").isEmpty

/-- The port that a scheme implies, for schemes that are looked up by host and port. -/
def impliedPort? (scheme : String) : Option Nat :=
  [("http", 80), ("https", 443), ("ws", 80), ("wss", 443), ("ftp", 21)].lookup scheme

/-! ### Parts -/

/-- A text without controls and blanks at its ends, and without line breaks and tabs. -/
def tidy (s : List Char) : List Char :=
  let blank (c : Char) := c.toNat ≤ 0x20
  (((s.dropWhile blank).reverse.dropWhile blank).reverse).filter fun c ↦
    !(['\t', '\n', '\r'].contains c)

/-- Splits off a scheme and its colon. -/
def splitScheme? (s : List Char) : Option (String × List Char) :=
  let isPart (c : Char) := c.isAlphanum || ['+', '-', '.'].contains c
  match s.takeWhile isPart, s.dropWhile isPart with
  | c :: scheme, ':' :: rest =>
    if c.isAlpha then some (String.ofList ((c :: scheme).map Char.toLower), rest) else none
  | _, _ => none

/-- A text up to the first occurrence of a character, and what follows that. -/
def cut (mark : Char) (s : List Char) : List Char × Option (List Char) :=
  match s.dropWhile (· != mark) with
  | [] => (s, none)
  | _ :: rest => (s.takeWhile (· != mark), some rest)

/-- The text behind the last `@`, and whether there is one with something in front of it. -/
def dropUser (authority : List Char) : List Char × Bool :=
  match authority.reverse.dropWhile (· != '@') with
  | [] => (authority, false)
  | _ :: user => ((authority.reverse.takeWhile (· != '@')).reverse, !user.isEmpty)

/-- The host of an authority, and what follows its colon. Colons in brackets are part of it. -/
def splitPort (inBrackets : Bool) : List Char → List Char × Option (List Char)
  | [] => ([], none)
  | c :: rest =>
    if c = ':' && !inBrackets then ([], some rest)
    else
      let (host, port) := splitPort (c == '[' || (inBrackets && c != ']')) rest
      (c :: host, port)

/-- The port that digits write; none at all leaves it to the scheme. -/
def port? (digits : List Char) : Option (Option Nat) :=
  if digits.isEmpty then some none
  else do
    let n ← Hex.number? 10 digits
    if n < Word.count16 then some (some n) else none

/-- The normal form of an authority without its user; `implied` is the port of the scheme. -/
def authority? (implied : Option Nat) (authority : List Char) : Option String := do
  let (host, digits) := splitPort false authority
  if host.isEmpty && (implied.isSome || digits.isSome) then none
  else
    let host ← if implied.isSome then host? host else opaqueHost? host
    let port ← port? (digits.getD [])
    match port with
    | none => return host
    | some port => return if implied = some port then host else host ++ s!":{port}"

/-! ### Paths -/

/-- The spellings of a dot in a path. -/
def isDot (s : List Char) : Bool :=
  [".", "%2e", "%2E"].contains (String.ofList s)

/-- The spellings of two dots in a path. -/
def isDoubleDot (s : List Char) : Bool :=
  ["..", ".%2e", ".%2E", "%2e.", "%2E.", "%2e%2e", "%2e%2E", "%2E%2e", "%2E%2E"].contains
    (String.ofList s)

/-- Resolves the dots among the segments of a path, `above` being those in front of them, the
last first. -/
def resolveDots (above : List (List Char)) : List (List Char) → List (List Char)
  | [] => above.reverse
  | segment :: rest =>
    let above :=
      if isDoubleDot segment then above.drop 1
      else if isDot segment then above
      else segment :: above
    if rest.isEmpty && (isDoubleDot segment || isDot segment) then ([] :: above).reverse
    else resolveDots above rest

/-- The normal form of a path whose first slash has been dropped. -/
def pathText (isSlash : Char → Bool) (path : List Char) : List Char :=
  let segments := (Text.splitWhere isSlash path).map (percentEncode pathReserved)
  '/' :: ['/'].intercalate (resolveDots [] segments)

/-! ### Reading -/

/-- The normal form of a query and a fragment, with their marks. -/
def tailText (query fragment : Option (List Char)) (reserved : List Char) : String :=
  let part (mark : Char) (reserved : List Char) (text : Option (List Char)) :=
    (text.map fun s ↦ String.ofList (mark :: percentEncode reserved s)).getD ""
  part '?' reserved query ++ part '#' fragmentReserved fragment

/-- Reads what follows the colon of a scheme that is looked up by host and port. -/
def readLocated? (scheme : String) (implied : Nat) (s : List Char) (tail : String) : Option Url :=
  let isSlash (c : Char) := c == '/' || c == '\\'
  let s := s.dropWhile isSlash
  let (host, _) := dropUser (s.takeWhile (!isSlash ·))
  let path := (s.dropWhile (!isSlash ·)).drop 1
  (authority? (some implied) host).map fun authority ↦
    ⟨scheme, some authority, String.ofList (pathText isSlash path) ++ tail⟩

/-- Reads what follows the colon of any other scheme. -/
def readOther? (scheme : String) (s : List Char) (tail : String) : Option Url :=
  let absolute (path : List Char) := String.ofList (pathText (· == '/') path)
  match s with
  | '/' :: '/' :: rest =>
    let (host, named) := dropUser (rest.takeWhile (· != '/'))
    let path := match rest.dropWhile (· != '/') with
      | [] => ""
      | _ :: path => absolute path
    if named && host.isEmpty then none
    else (authority? none host).map fun authority ↦ ⟨scheme, some authority, path ++ tail⟩
  | '/' :: path => some ⟨scheme, none, absolute path ++ tail⟩
  | path => some ⟨scheme, none, String.ofList (percentEncode [] path) ++ tail⟩

/-- The URL that a text writes. -/
def parse? (text : String) : Option Url := do
  let (scheme, rest) ← splitScheme? (tidy text.toList)
  let (rest, fragment) := cut '#' rest
  let (rest, query) := cut '?' rest
  match impliedPort? scheme with
  | some port =>
    readLocated? scheme port rest (tailText query fragment ('\'' :: queryReserved))
  | none => readOther? scheme rest (tailText query fragment queryReserved)

/-! ### Requests -/

/-- Why nothing can be sent to a URL. -/
inductive Fault where
  | malformed
  /-- The URL, which is written so, is not one of a web server. -/
  | notWeb (url : String)
  deriving DecidableEq, Repr

/-- The wording of a fault. -/
def Fault.message : Fault → String
  | malformed => "builder error"
  | notWeb url => "builder error for url (" ++ url ++ ")"

/-- The URL of a web server. -/
def parseWeb (text : String) : Except Fault Url :=
  match parse? text with
  | none => .error .malformed
  | some url =>
    if url.hasHost && (url.scheme = "http" || url.scheme = "https") then .ok url
    else .error (.notWeb url.text)

end Url

end ContractBindings
