/-!
# The fewest digits that read back

A finite positive double stands for every real that rounds to it. `Decimal.ofFloat` names it by
the decimal with the fewest digits in that interval, and of those by the one nearest to the
double itself.

## Main definitions

* `Binary`, `Binary.ofBits`: the magnitude `mantissa * 2 ^ exponent` behind the bits of a double.
* `Binary.interval`: the reals that round to it, as integers over one denominator.
* `Decimal.ofBinary`: the shortest decimal inside that interval.

## Implementation notes

Everything is exact `Nat` arithmetic: the value and both ends of its interval are brought to one
denominator, and the decimal grids of 1, 2, … 17 digits are tried in turn. On each grid only the
two neighbours of the value matter, for if any point of the grid lies in the interval, then so
does one of these two.
-/

namespace JoinPlan

/-- The magnitude of a finite double, `mantissa * 2 ^ exponent`. -/
structure Binary where
  mantissa : Nat
  exponent : Int
  /-- The next smaller double is only half as far away as the next larger one. -/
  belowIsCloser : Bool
  deriving DecidableEq, Repr

/-- The magnitude behind the bits of a finite double; the sign bit is left out. -/
def Binary.ofBits (bits : UInt64) : Binary :=
  let fraction : Nat := bits.toNat % Nat.pow 2 52
  let biased : Nat := bits.toNat / Nat.pow 2 52 % Nat.pow 2 11
  if biased = 0 then
    ⟨fraction, -1074, false⟩
  else
    ⟨Nat.pow 2 52 + fraction, (biased : Int) - 1075, fraction = 0 && 1 < biased⟩

/-- A value, the two ends of the reals that round to it, and their common denominator. -/
structure RoundingInterval where
  low : Nat
  value : Nat
  high : Nat
  denominator : Nat
  /-- The ends themselves round to the value. -/
  closed : Bool
  deriving DecidableEq, Repr

/-- The reals that round to a double lie half way to each neighbour. The ends belong to it
exactly when the mantissa is even. -/
def Binary.interval (x : Binary) : RoundingInterval :=
  let quarter := x.exponent - 2
  let scale := Nat.pow 2 quarter.toNat
  { low := (if x.belowIsCloser then 4 * x.mantissa - 1 else 4 * x.mantissa - 2) * scale
    value := 4 * x.mantissa * scale
    high := (4 * x.mantissa + 2) * scale
    denominator := Nat.pow 2 (-quarter).toNat
    closed := x.mantissa % 2 = 0 }

/-- How many decimal digits a number has; zero has none. -/
def decimalLength (n : Nat) : Nat :=
  if n = 0 then 0 else (Nat.toDigits 10 n).length

/-- The place of the first digit of `value / denominator`: the least `p` with the quotient below
`10 ^ p`. -/
def leadingPlace (value denominator : Nat) : Int :=
  if denominator ≤ value then decimalLength (value / denominator)
  else 1 - (decimalLength ((denominator - 1) / value) : Int)

/-- A positive decimal, `digits * 10 ^ exponent`. -/
structure Decimal where
  digits : Nat
  exponent : Int
  deriving DecidableEq, Repr

namespace Decimal

/-- The interval holds `point / scaleDown * scaleUp`. -/
private def holds (i : RoundingInterval) (point scaleUp scaleDown : Nat) : Bool :=
  let x := point * scaleUp * i.denominator
  if i.closed then i.low * scaleDown ≤ x && x ≤ i.high * scaleDown
  else i.low * scaleDown < x && x < i.high * scaleDown

/-- The point of the grid of multiples of `10 ^ place` that is nearest to the value among those
in the interval, an exact tie going to the even one. -/
def nearestOnGrid (i : RoundingInterval) (place : Int) : Option Nat :=
  let scaleUp := Nat.pow 10 place.toNat
  let scaleDown := Nat.pow 10 (-place).toNat
  let unit := scaleUp * i.denominator
  let below := i.value * scaleDown / unit
  let rest := i.value * scaleDown % unit
  let above := below + 1
  let preferAbove := unit < 2 * rest || (unit = 2 * rest && below % 2 = 1)
  let (first, second) := if preferAbove then (above, below) else (below, above)
  if holds i first scaleUp scaleDown then some first
  else if holds i second scaleUp scaleDown then some second
  else none

/-- The first grid, from `count` digits on, that has a point in the interval; `tries` bounds how
many grids are looked at. -/
private def firstGrid (i : RoundingInterval) (leading : Int) : Nat → Nat → Decimal
  | 0, _ => ⟨i.value / i.denominator, 0⟩
  | tries + 1, count =>
    let place := leading - count
    match nearestOnGrid i place with
    | some digits => ⟨digits, place⟩
    | none => firstGrid i leading tries (count + 1)

/-- Moves the zeros at the end of the digits into the exponent; `tries` bounds how many. -/
private def dropTrailingZeros : Nat → Decimal → Decimal
  | 0, d => d
  | tries + 1, d =>
    if d.digits % 10 = 0 then dropTrailingZeros tries ⟨d.digits / 10, d.exponent + 1⟩ else d

/-- The shortest decimal that rounds to a positive magnitude. Seventeen digits always suffice. -/
def ofBinary (x : Binary) : Decimal :=
  let i := x.interval
  dropTrailingZeros 17 (firstGrid i (leadingPlace i.value i.denominator) 17 1)

/-- The shortest decimal that reads back as the magnitude of a finite double other than zero. -/
def ofFloat (x : Float) : Decimal :=
  ofBinary (Binary.ofBits x.toBits)

/-- The decimal digits, first to last. -/
def digitList (d : Decimal) : List Char :=
  Nat.toDigits 10 d.digits

end Decimal

/-- How the text of a number is laid out. -/
structure DecimalStyle where
  /-- The least exponent of ten, in scientific notation, that is written positionally. -/
  leastPositional : Int
  /-- The greatest such exponent. -/
  greatestPositional : Int
  /-- What precedes the exponent. -/
  exponentMark : String
  /-- What precedes an exponent that is not negative. -/
  plusSign : String
  /-- What closes a positional number without a fraction. -/
  wholeEnding : String
  deriving DecidableEq, Repr

namespace Decimal

private def positional (style : DecimalStyle) (d : Decimal) : String :=
  let digits := d.digitList
  if 0 ≤ d.exponent then
    String.ofList (digits ++ List.replicate d.exponent.toNat '0') ++ style.wholeEnding
  else
    let fraction := (-d.exponent).toNat
    let padded := List.replicate (fraction + 1 - digits.length) '0' ++ digits
    let whole := padded.length - fraction
    String.ofList (padded.take whole) ++ "." ++ String.ofList (padded.drop whole)

private def scientific (style : DecimalStyle) (d : Decimal) : String :=
  let digits := d.digitList
  let power := d.exponent + (digits.length - 1 : Nat)
  let fraction := if digits.length ≤ 1 then "" else "." ++ String.ofList (digits.drop 1)
  let sign := if 0 ≤ power then style.plusSign else "-"
  String.ofList (digits.take 1) ++ fraction ++ style.exponentMark ++ sign ++
    toString power.natAbs

/-- The text of a decimal in a style. -/
def render (style : DecimalStyle) (d : Decimal) : String :=
  let power := d.exponent + (d.digitList.length - 1 : Nat)
  if style.leastPositional ≤ power && power ≤ style.greatestPositional then positional style d
  else scientific style d

end Decimal

end JoinPlan
