-- A double is its 64 bits. Everything about it is read off exact integers: a finite
-- double is `mantissa * 2 ^ power`, and rounding goes to the nearest double, a tie to
-- the even mantissa.

namespace TenantSearch

/-- A binary64 number, kept as its bit pattern. -/
structure Double where
  bits : UInt64
deriving DecidableEq, Repr, Inhabited

namespace Double

/-- The sign bit. -/
def negative (d : Double) : Bool := Nat.pow 2 63 ≤ d.bits.toNat

/-- The eleven exponent bits. -/
def exponentField (d : Double) : Nat := d.bits.toNat / Nat.pow 2 52 % 2048

/-- The fifty-two fraction bits. -/
def fractionField (d : Double) : Nat := d.bits.toNat % Nat.pow 2 52

/-- Neither an infinity nor a NaN. -/
def isFinite (d : Double) : Bool := d.exponentField != 2047

def isNaN (d : Double) : Bool := d.exponentField == 2047 && d.fractionField != 0

/-- The magnitude of a finite double is `mantissa * 2 ^ power`. -/
def mantissa (d : Double) : Nat :=
  if d.exponentField = 0 then d.fractionField else d.fractionField + Nat.pow 2 52

def power (d : Double) : Int :=
  if d.exponentField = 0 then -1074 else (d.exponentField : Int) - 1075

/-- Plus or minus zero. -/
def isZero (d : Double) : Bool := d.isFinite && d.mantissa == 0

/-- The double with this sign and these magnitude bits. -/
def ofMagnitude (negative : Bool) (magnitude : Nat) : Double :=
  ⟨UInt64.ofNat (magnitude + if negative then Nat.pow 2 63 else 0)⟩

def infinity (negative : Bool) : Double := ofMagnitude negative (2047 * Nat.pow 2 52)

/-- The quiet NaN. -/
def nan : Double := ofMagnitude false (2047 * Nat.pow 2 52 + Nat.pow 2 51)

/-- `num / den` rounded to the nearest whole number, a tie to the even one. -/
def roundHalfEven (num den : Nat) : Nat :=
  let low := num / den
  let rest := 2 * (num % den)
  if rest < den ∨ (rest = den ∧ low % 2 = 0) then low else low + 1

/-- `num / den` in units of `2 ^ power`, rounded half to even. -/
def scaledRound (num den : Nat) (power : Int) : Nat :=
  if 0 ≤ power then roundHalfEven num (den * Nat.pow 2 power.toNat)
  else roundHalfEven (num * Nat.pow 2 (-power).toNat) den

/-- The double nearest to `num / den`. The power is chosen so that the mantissa has fifty-three
bits, or is as large as the smallest power allows. -/
def ofRatio (negative : Bool) (num den : Nat) : Double :=
  if num = 0 then ofMagnitude negative 0
  else
    let guess : Int := (num.log2 : Int) - (den.log2 : Int) - 53
    let power := max (if scaledRound num den guess < Nat.pow 2 53 then guess else guess + 1) (-1074)
    let power := if scaledRound num den power < Nat.pow 2 53 then power else power + 1
    let mantissa := scaledRound num den power
    if mantissa < Nat.pow 2 52 then ofMagnitude negative mantissa
    else if 971 < power then infinity negative
    else ofMagnitude negative (((power + 1074).toNat) * Nat.pow 2 52 + mantissa)

/-- The double nearest to `digits * 10 ^ exponent`. Exponents past the range of doubles are
settled first, so that no huge power of ten is computed. -/
def ofDecimal (negative : Bool) (digits : Nat) (exponent : Int) : Double :=
  let size : Int := (Nat.toDigits 10 digits).length
  if digits = 0 then ofMagnitude negative 0
  else if 400 < exponent + size then infinity negative
  else if exponent + size < -400 then ofMagnitude negative 0
  else if 0 ≤ exponent then ofRatio negative (digits * Nat.pow 10 exponent.toNat) 1
  else ofRatio negative digits (Nat.pow 10 (-exponent).toNat)

/-- The whole part, toward zero. -/
def truncate (d : Double) : Int :=
  let size := if 0 ≤ d.power then d.mantissa * Nat.pow 2 d.power.toNat
    else d.mantissa / Nat.pow 2 (-d.power).toNat
  if d.negative then -(size : Int) else size

/-- A finite double without a fractional part. -/
def isWhole (d : Double) : Bool :=
  d.isFinite && (decide (0 ≤ d.power) || d.mantissa % Nat.pow 2 (-d.power).toNat == 0)

end Double

end TenantSearch
