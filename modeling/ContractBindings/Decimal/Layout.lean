import ContractBindings.Decimal.Shortest
import ContractBindings.Word

/-!
# Writing floating-point numbers

The text of a binary64 number is its shortest decimal, written positionally while the point
stays near the digits and with an exponent otherwise. The choices are fields of one record.
-/

namespace ContractBindings.Decimal

/-- How decimals are written. -/
structure Layout where
  /-- The least and the greatest exponent of the leading digit that are written positionally. -/
  leastPositional : Int
  greatestPositional : Int
  /-- Whether a positional number without a fraction ends in `.0`. -/
  pointZero : Bool
  /-- Whether an exponent that is not negative has a plus sign. -/
  plusSign : Bool

/-- Numbers are positional from `0.00001` to below `10 ^ 16` and always show a point there;
exponents carry their sign. -/
def Layout.json : Layout where
  leastPositional := -5
  greatestPositional := 15
  pointZero := true
  plusSign := true

/-- The digits of a number without its trailing zeros, and how many zeros these are. -/
def stripZeros (digits : List Char) : List Char × Nat :=
  let kept := (digits.reverse.dropWhile (· == '0')).reverse
  (kept, digits.length - kept.length)

/-- Writes the decimal `0.d₁d₂… · 10 ^ point`. -/
def Layout.write (layout : Layout) (digits : List Char) (point : Int) : List Char :=
  let leading := point - 1
  if layout.leastPositional ≤ leading && leading ≤ layout.greatestPositional then
    if point ≤ 0 then '0' :: '.' :: List.replicate (-point).toNat '0' ++ digits
    else if digits.length ≤ point.toNat then
      digits ++ List.replicate (point.toNat - digits.length) '0' ++
        (if layout.pointZero then ['.', '0'] else [])
    else digits.take point.toNat ++ '.' :: digits.drop point.toNat
  else
    let fraction := if digits.length ≤ 1 then [] else '.' :: digits.drop 1
    let sign := if leading < 0 then ['-'] else if layout.plusSign then ['+'] else []
    digits.take 1 ++ fraction ++ 'e' :: sign ++ Nat.toDigits 10 leading.natAbs

/-- Writes the finite binary64 number with the given bits. -/
def Layout.writeBits (layout : Layout) (bits : UInt64) : String :=
  let sign := if Word.count63 ≤ bits.toNat then ['-'] else []
  let x := Binary.ofBits bits
  if x.significand = 0 then String.ofList (sign ++ layout.write ['0'] 1)
  else
    let d := x.shortest
    let (digits, _) := stripZeros (Nat.toDigits 10 d.digits)
    let point := d.exponent + (Nat.toDigits 10 d.digits).length
    String.ofList (sign ++ layout.write digits point)

end ContractBindings.Decimal
