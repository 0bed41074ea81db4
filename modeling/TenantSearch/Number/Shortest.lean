-- Of the decimals that read back as the double, the ones with the fewest digits, and of
-- those the nearest. Each digit count gives a decimal grid; if the interval of reals
-- that round to the double holds a point of the grid, it holds one of the two grid
-- points next to the double itself.
import TenantSearch.Number.Double

namespace TenantSearch

/-- The number `digits * 10 ^ exponent`. -/
structure Decimal where
  digits : Nat
  exponent : Int
deriving DecidableEq, Repr

namespace Shortest

/-- `a / b ≤ c / d` for positive `b` and `d`. -/
def ratioLe (a b c d : Nat) : Bool := a * d ≤ c * b

/-- The exact value `mantissa * 2 ^ power` as a fraction. -/
def asRatio (mantissa : Nat) (power : Int) : Nat × Nat :=
  if 0 ≤ power then (mantissa * Nat.pow 2 power.toNat, 1)
  else (mantissa, Nat.pow 2 (-power).toNat)

/-- A point of the grid with unit `10 ^ exponent` as a fraction. -/
def pointRatio (point : Nat) (exponent : Int) : Nat × Nat :=
  if 0 ≤ exponent then (point * Nat.pow 10 exponent.toNat, 1)
  else (point, Nat.pow 10 (-exponent).toNat)

/-- The grid point at or below the value. -/
def floorPoint (value : Nat × Nat) (exponent : Int) : Nat :=
  if 0 ≤ exponent then value.1 / (value.2 * Nat.pow 10 exponent.toNat)
  else value.1 * Nat.pow 10 (-exponent).toNat / value.2

/-- The ends of the interval that rounds to `mantissa * 2 ^ power`, in units of a quarter of the
last place. Below a power of two the neighbour is half as far. -/
def interval (mantissa : Nat) (power : Int) : (Nat × Nat) × (Nat × Nat) :=
  let low :=
    if mantissa = Nat.pow 2 52 ∧ -1074 < power then 4 * mantissa - 1 else 4 * mantissa - 2
  (asRatio low (power - 2), asRatio (4 * mantissa + 2) (power - 2))

/-- Whether the point rounds to the double: inside the interval, whose ends count when the
mantissa is even. -/
def readsBack (mantissa : Nat) (power : Int) (point : Nat × Nat) : Bool :=
  let ends := interval mantissa power
  if mantissa % 2 = 0 then
    ratioLe ends.1.1 ends.1.2 point.1 point.2 && ratioLe point.1 point.2 ends.2.1 ends.2.2
  else
    !ratioLe point.1 point.2 ends.1.1 ends.1.2 && !ratioLe ends.2.1 ends.2.2 point.1 point.2

/-- Whether the point below is the one to take when both points read back: it is nearer, or as
near and even. -/
def lowerWins (value : Nat × Nat) (low : Nat) (exponent : Int) : Bool :=
  let middle := pointRatio (2 * low + 1) exponent
  let doubled := (2 * value.1, value.2)
  if ratioLe middle.1 middle.2 doubled.1 doubled.2 then
    ratioLe doubled.1 doubled.2 middle.1 middle.2 && low % 2 == 0
  else true

/-- The number of digits before the point, at least for values of one and above; the exponent of
the leading digit plus one in general. Below one it is one of two counts of zeros. -/
def magnitude (value : Nat × Nat) : Int :=
  if value.2 ≤ value.1 then ((Nat.toDigits 10 (value.1 / value.2)).length : Int)
  else
    let zeros := (Nat.toDigits 10 (value.2 / value.1)).length
    if value.2 ≤ value.1 * Nat.pow 10 (zeros - 1) then 2 - (zeros : Int) else 1 - (zeros : Int)

/-- The decimal of this many digits, when one of the two grid points reads back. -/
def onGrid (mantissa : Nat) (power : Int) (value : Nat × Nat) (exponent : Int) : Option Decimal :=
  let low := floorPoint value exponent
  let lowBack := readsBack mantissa power (pointRatio low exponent)
  let highBack := readsBack mantissa power (pointRatio (low + 1) exponent)
  if lowBack && (!highBack || lowerWins value low exponent) then some ⟨low, exponent⟩
  else if highBack then some ⟨low + 1, exponent⟩
  else none

/-- The first grid, from one digit to seventeen, that has a point reading back. -/
def search (mantissa : Nat) (power : Int) : Decimal :=
  let value := asRatio mantissa power
  let last := magnitude value - 1
  let found := (List.range 17).findSome? fun (n : Nat) => onGrid mantissa power value (last - n)
  found.getD ⟨mantissa, power⟩

/-- The same number without zeros at the end of its digits; at most so many are dropped. -/
def dropZeros : Nat → Decimal → Decimal
  | 0, d => d
  | most + 1, d =>
    if d.digits % 10 = 0 ∧ d.digits ≠ 0 then dropZeros most ⟨d.digits / 10, d.exponent + 1⟩ else d

end Shortest

/-- The digits and exponent of the shortest decimal of a positive finite double, without a
trailing zero digit. -/
def Double.shortest (d : Double) : Decimal :=
  Shortest.dropZeros 20 (Shortest.search d.mantissa d.power)

/-! ## The text of a double -/

/-- How a double is written: positional when the exponent of the leading digit lies in this
range, with a mark for the exponent otherwise, perhaps with a point before the mark in any case. -/
structure DoubleStyle where
  leastPositional : Int
  positionalBelow : Int
  exponentDigits : Nat
  alwaysPoint : Bool

/-- Positional from `0.0001` up to but excluding `1e+16`; a whole number keeps its `.0`; an
exponent carries its sign and at least two digits. -/
def standardStyle : DoubleStyle := ⟨-4, 16, 2, false⟩

/-- The digits of an exponent, with its sign, padded with zeros. -/
def exponentText (style : DoubleStyle) (exponent : Int) : String :=
  let digits := Nat.toDigits 10 exponent.natAbs
  (if exponent < 0 then "-" else "+") ++
    String.ofList (List.replicate (style.exponentDigits - digits.length) '0' ++ digits)

/-- The text of a positive decimal. -/
def Decimal.text (style : DoubleStyle) (d : Decimal) : String :=
  let digits := Nat.toDigits 10 d.digits
  let leading : Int := d.exponent + digits.length - 1
  if style.leastPositional ≤ leading ∧ leading < style.positionalBelow then
    if 0 ≤ d.exponent then
      String.ofList (digits ++ List.replicate d.exponent.toNat '0') ++ ".0"
    else if 0 ≤ leading then
      let whole := leading.toNat + 1
      String.ofList (digits.take whole) ++ "." ++ String.ofList (digits.drop whole)
    else
      "0." ++ String.ofList (List.replicate (-leading - 1).toNat '0' ++ digits)
  else
    let rest := digits.drop 1
    let point := if rest.isEmpty then (if style.alwaysPoint then ".0" else "")
      else "." ++ String.ofList rest
    String.ofList (digits.take 1) ++ point ++ "e" ++ exponentText style leading

/-- The text of a double. -/
def Double.text (d : Double) : String :=
  let sign := if d.negative then "-" else ""
  if d.isNaN then "nan"
  else if !d.isFinite then sign ++ "inf"
  else if d.isZero then sign ++ "0.0"
  else sign ++ d.shortest.text standardStyle

/-! ## The text of a double in a column -/

/-- The decimal of so many digits that is nearest to a positive finite double, the larger of two,
without a trailing zero digit. -/
def Double.roundedTo (digits : Nat) (d : Double) : Decimal :=
  let value := Shortest.asRatio d.mantissa d.power
  let exponent := Shortest.magnitude value - digits
  let point := (Shortest.floorPoint (2 * value.1, value.2) exponent + 1) / 2
  Shortest.dropZeros 20 ⟨point, exponent⟩

/-- Positional from `0.0001` up to but excluding `1.0e+15`; there is a point in any case. -/
def columnStyle : DoubleStyle := ⟨-4, 15, 2, true⟩

/-- The text that a text column makes of a double: fifteen digits, and nothing for what is no
number. -/
def Double.columnText? (d : Double) : Option String :=
  let sign := if d.negative then "-" else ""
  if d.isNaN then none
  else if !d.isFinite then some (sign ++ "Inf")
  else if d.isZero then some "0.0"
  else some (sign ++ (d.roundedTo 15).text columnStyle)

end TenantSearch
