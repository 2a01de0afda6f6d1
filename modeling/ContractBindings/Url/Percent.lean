import ContractBindings.Text.Hex

/-!
# Percent encoding

A character that a part of a URL cannot hold is written as its bytes, each as a percent sign and
two upper-case digits. Controls and all characters beyond ASCII are written so everywhere; what
else is depends on the part.
-/

namespace ContractBindings.Url

/-- A byte in percent encoding. -/
def percentByte (b : UInt8) : List Char :=
  '%' :: (Hex.encodeByte b).map Char.toUpper

/-- Whether every part of a URL encodes a character. -/
def isAlwaysEncoded (c : Char) : Bool :=
  c.toNat < 0x20 || 0x7F ≤ c.toNat

/-- A text in which the characters of `reserved` are encoded. -/
def percentEncode (reserved : List Char) (s : List Char) : List Char :=
  s.flatMap fun c ↦
    if isAlwaysEncoded c || reserved.contains c then
      (String.utf8EncodeChar c).flatMap percentByte
    else [c]

/-- What a fragment encodes. -/
def fragmentReserved : List Char := [' ', '"', '<', '>', '`']

/-- What a path encodes. -/
def pathReserved : List Char := fragmentReserved ++ ['#', '?', '\x7b', '\x7d']

/-- What a query encodes. -/
def queryReserved : List Char := [' ', '"', '#', '<', '>']

/-- The bytes that a text in percent encoding stands for. -/
def percentDecode : List Char → List UInt8
  | '%' :: a :: b :: rest =>
    match Hex.digitValue? a, Hex.digitValue? b with
    | some high, some low => UInt8.ofNat (16 * high + low) :: percentDecode rest
    | _, _ => String.utf8EncodeChar '%' ++ percentDecode (a :: b :: rest)
  | c :: rest => String.utf8EncodeChar c ++ percentDecode rest
  | [] => []

end ContractBindings.Url
