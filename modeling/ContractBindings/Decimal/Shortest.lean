/-!
# The fewest digits that read back

A finite binary64 number is `m · 2^q` for natural numbers `m < 2^53` and integers `q`. Many
decimals lie nearer to it than to any other such number; the one written for it has the fewest
digits, and among those the nearest value. Everything here is exact arithmetic on natural
numbers: the reals that round to `m · 2^q` form an interval, whose ends belong to it when `m` is
even, and for each count of digits only the two decimals around the value need to be tried.
-/

namespace ContractBindings.Decimal

/-- The magnitude `significand · 2 ^ exponent` of a finite binary64 number. -/
structure Binary where
  significand : Nat
  exponent : Int
  /-- Whether the numbers below are twice as dense as those above: the significand is the least
  of its exponent, and the exponent is not the least of all. -/
  atBoundary : Bool
  deriving DecidableEq, Repr

/-- The greatest significand is less than twice this one, which is `2 ^ 52`. -/
def hiddenBit : Nat := 4503599627370496

/-- The magnitude of a binary64 number that is given by its bits. -/
def Binary.ofBits (bits : UInt64) : Binary :=
  let fraction : Nat := bits.toNat % hiddenBit
  let field : Nat := bits.toNat / hiddenBit % 2048
  if field = 0 then ⟨fraction, -1074, false⟩
  else ⟨hiddenBit + fraction, (field : Int) - 1075, fraction == 0 && 1 < field⟩

/-- A positive decimal `digits · 10 ^ exponent`. -/
structure Digits where
  digits : Nat
  exponent : Int
  deriving DecidableEq, Repr

/-- The fraction `numerator / denominator` of natural numbers. -/
structure Ratio where
  numerator : Nat
  denominator : Nat

/-- The fraction `n · base ^ exponent`. -/
def Ratio.scaled (n base : Nat) (exponent : Int) : Ratio :=
  if 0 ≤ exponent then ⟨n * Nat.pow base exponent.toNat, 1⟩
  else ⟨n, Nat.pow base (-exponent).toNat⟩

/-- Whether one fraction is less than another. -/
def Ratio.less (a b : Ratio) : Bool :=
  a.numerator * b.denominator < b.numerator * a.denominator

namespace Binary

/-- The value of a number, as a fraction. -/
def value (x : Binary) : Ratio :=
  Ratio.scaled x.significand 2 x.exponent

/-- The lower end of the reals that round to a number. -/
def lower (x : Binary) : Ratio :=
  if x.atBoundary then Ratio.scaled (4 * x.significand - 1) 2 (x.exponent - 2)
  else Ratio.scaled (2 * x.significand - 1) 2 (x.exponent - 1)

/-- The upper end of the reals that round to a number. -/
def upper (x : Binary) : Ratio :=
  Ratio.scaled (2 * x.significand + 1) 2 (x.exponent - 1)

/-- Whether a decimal rounds to a number; a tie goes to the even significand. -/
def roundsTo (x : Binary) (d : Digits) : Bool :=
  let v := Ratio.scaled d.digits 10 d.exponent
  if x.significand % 2 = 0 then !v.less x.lower && !x.upper.less v
  else x.lower.less v && v.less x.upper

/-- The greatest multiple of `10 ^ exponent` that is at most the number, over that power. -/
def floorAt (x : Binary) (exponent : Int) : Nat :=
  let v := x.value
  if 0 ≤ exponent then v.numerator / (v.denominator * Nat.pow 10 exponent.toNat)
  else v.numerator * Nat.pow 10 (-exponent).toNat / v.denominator

/-- Whether a number lies nearer to `(floor + 1) · 10 ^ exponent` than to `floor · 10 ^ exponent`,
or as near and `floor` is odd. -/
def nearerAbove (x : Binary) (floor : Nat) (exponent : Int) : Bool :=
  let v := x.value
  let half := Ratio.scaled (2 * floor + 1) 10 exponent
  let twice : Ratio := ⟨2 * v.numerator, v.denominator⟩
  half.less twice || (!twice.less half && floor % 2 == 1)

/-- The decimal with the exponent `exponent` that rounds to a number, the nearer one if both
neighbours do. -/
def candidateAt? (x : Binary) (exponent : Int) : Option Digits :=
  let floor := x.floorAt exponent
  let below : Digits := ⟨floor, exponent⟩
  let above : Digits := ⟨floor + 1, exponent⟩
  match 0 < floor && x.roundsTo below, x.roundsTo above with
  | true, true => some (if x.nearerAbove floor exponent then above else below)
  | true, false => some below
  | false, true => some above
  | false, false => none

/-- The exponent of the leading decimal digit of a number that is not zero. -/
def leadingExponent (x : Binary) : Int :=
  let v := x.value
  let floor := v.numerator / v.denominator
  if 0 < floor then ((Nat.toDigits 10 floor).length : Int) - 1
  else
    let inverse := v.denominator / v.numerator
    let k : Int := (Nat.toDigits 10 inverse).length
    -- the number is at most 1 / inverse, and 10 ^ (-k) if it is a power of ten
    if (Ratio.scaled 1 10 (-(k - 1))).less v || !v.less (Ratio.scaled 1 10 (-(k - 1))) then -(k - 1)
    else -k

end Binary

/-- The first hit among the decimals whose last digit stands `down` places below `exponent`, for
`down` from `count` on. -/
def Binary.search (x : Binary) (exponent : Int) : (tries : Nat) → (down : Nat) → Digits
  | 0, _ => ⟨x.floorAt (exponent - 16), exponent - 16⟩
  | tries + 1, down =>
    match x.candidateAt? (exponent - down) with
    | some d => d
    | none => x.search exponent tries (down + 1)

/-- The shortest decimal that rounds to a number that is not zero. Seventeen digits always do. -/
def Binary.shortest (x : Binary) : Digits :=
  x.search x.leadingExponent 18 0

end ContractBindings.Decimal
