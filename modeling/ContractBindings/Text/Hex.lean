/-!
# Hexadecimal digits

Digits are read in either case and written in lower case, two for a byte. Numbers in smaller
bases are read with the same digits.
-/

namespace ContractBindings

namespace Hex

/-- The value of a hexadecimal digit in either case. -/
def digitValue? (c : Char) : Option Nat :=
  if '0' ≤ c ∧ c ≤ '9' then some (c.toNat - '0'.toNat)
  else if 'a' ≤ c ∧ c ≤ 'f' then some (c.toNat - 'a'.toNat + 10)
  else if 'A' ≤ c ∧ c ≤ 'F' then some (c.toNat - 'A'.toNat + 10)
  else none

/-- The number that digits of a base up to 16 spell, if there are any. -/
def number? (base : Nat) (digits : List Char) : Option Nat := do
  let values ← digits.mapM digitValue?
  if values.isEmpty || values.any (base ≤ ·) then none
  else some (values.foldl (fun n v ↦ base * n + v) 0)

/-- The lower-case hexadecimal digit of a value below 16. -/
def digit (n : Nat) : Char :=
  Nat.digitChar n

/-- The two digits of a byte. -/
def encodeByte (b : UInt8) : List Char :=
  [digit (b.toNat / 16), digit (b.toNat % 16)]

/-- The digits of a sequence of bytes. -/
def encode (bytes : List UInt8) : List Char :=
  bytes.flatMap encodeByte

end Hex

end ContractBindings
