import JoinPlan.Decimal.Shortest
import JoinPlan.Json.Basic

/-!
# The text of a JSON number

Whole numbers of 64 bits, signed or not, stay whole; every other number is a double.

## Main definitions

* `Json.Number.text`: whole numbers in full, doubles by their shortest digits.
* `Json.Literal`, `Json.Literal.number?`: a number as it was written, and its value. There is
  none for a literal too large for a double.
-/

namespace JoinPlan

namespace Json

/-- Positional notation runs from `0.00001` up to below `1e+16`; a whole double ends in `.0`. -/
def doubleStyle : DecimalStyle :=
  { leastPositional := -5
    greatestPositional := 15
    exponentMark := "e"
    plusSign := "+"
    wholeEnding := ".0" }

/-- The text of a double. JSON has no infinities, which become `null`. -/
def doubleText (x : Float) : String :=
  if x.isNaN || x.isInf then "null"
  else
    let sign := if Nat.pow 2 63 ≤ x.toBits.toNat then "-" else ""
    if x == 0.0 then sign ++ "0.0" else sign ++ (Decimal.ofFloat x).render doubleStyle

/-- The text of a number. -/
def Number.text : Number → String
  | .int value => toString value
  | .float value => doubleText value

/-- A number as it was written: sign, digits before and after the point, and exponent. -/
structure Literal where
  negative : Bool
  whole : List Nat
  /-- Absent when there is no point. -/
  fraction : Option (List Nat)
  /-- Absent when no exponent is written. -/
  exponent : Option Int
  deriving DecidableEq, Repr

namespace Literal

/-- The number that a list of digits writes. -/
def natOfDigits (digits : List Nat) : Nat :=
  digits.foldl (fun n d => 10 * n + d) 0

/-- The digits that are kept and the power of ten they are to be multiplied by. -/
structure Scaled where
  significand : Nat
  power : Int
  deriving DecidableEq, Repr

/-- Takes digits in as long as the significand stays within 64 bits; tells how many were left
over. -/
def takeDigits : List Nat → Nat → Nat × Nat
  | [], n => (n, 0)
  | d :: rest, n =>
    if 10 * n + d < Nat.pow 2 64 then takeDigits rest (10 * n + d) else (n, rest.length + 1)

/-- The digits that fit into 64 bits. Digits of the whole part that do not fit still count as
places; those of the fraction are dropped. -/
def scaled (literal : Literal) : Scaled :=
  let (whole, leftOver) := takeDigits literal.whole 0
  let fraction := literal.fraction.getD []
  let (significand, dropped) := takeDigits fraction whole
  ⟨significand, (leftOver : Int) - (fraction.length - dropped : Nat) + literal.exponent.getD 0⟩

/-- Divides by `10 ^ 308` until the remaining power of ten is a double itself; `tries` bounds how
often. -/
private def shrink : Nat → Float → Int → Option Float
  | 0, _, _ => some 0.0
  | tries + 1, x, power =>
    if 0 ≤ power then
      let y := x * Float.ofScientific 1 false power.toNat
      if y.isInf then none else some y
    else if -308 ≤ power then some (x / Float.ofScientific 1 false power.natAbs)
    else if x == 0.0 then some 0.0
    else shrink tries (x / 1e308) (power + 308)

/-- The significand as a double, multiplied or divided by the power of ten. There is no value
where that exceeds every double. -/
def Scaled.toFloat? (s : Scaled) : Option Float :=
  if s.significand = 0 then some 0.0
  else if 308 < s.power then none
  else shrink 4 (Float.ofNat s.significand) s.power

/-- The double a literal stands for. -/
def float? (literal : Literal) : Option Float :=
  literal.scaled.toFloat?.map fun x => if literal.negative then -x else x

/-- The value of a literal: whole if it has neither point nor exponent and fits into 64 bits,
signed or not, and a double otherwise. A negative zero is a double. -/
def number? (literal : Literal) : Option Number :=
  let value := natOfDigits literal.whole
  match literal.fraction, literal.exponent with
  | none, none =>
    if literal.negative then
      if 0 < value ∧ value ≤ Nat.pow 2 63 then some (.int (-value)) else literal.float?.map .float
    else if value < Nat.pow 2 64 then some (.int value)
    else literal.float?.map .float
  | _, _ => literal.float?.map .float

end Literal

end Json

end JoinPlan
