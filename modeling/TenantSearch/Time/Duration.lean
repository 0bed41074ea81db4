-- A duration is a whole number of microseconds. A number of minutes or seconds, whole or
-- not, gives one; what is left below a microsecond is rounded, a half to the even
-- neighbour.
import TenantSearch.Json.Unchecked
import TenantSearch.Time.Timestamp

namespace TenantSearch

namespace Duration

def microsPerSecond : Nat := 1000000

def microsPerMinute : Nat := 60000000

/-- No duration has more days than this. -/
def mostDays : Nat := 999999999

/-- A duration that is not too long. -/
def within (micros : Int) : Except Breakage Int :=
  if -((mostDays * Timestamp.microsPerDay : Nat) : Int) ≤ micros ∧
      micros < (((mostDays + 1) * Timestamp.microsPerDay : Nat) : Int) then .ok micros
  else .error .outOfRange

/-- The magnitude of a finite double as a fraction. -/
def ratioOf (d : Double) : Nat × Nat :=
  if 0 ≤ d.power then (d.mantissa * Nat.pow 2 d.power.toNat, 1)
  else (d.mantissa, Nat.pow 2 (-d.power).toNat)

/-- The microseconds of a positive fraction of a unit: the product as a double, then rounded. -/
def microsOfFraction (unit num den : Nat) : Nat :=
  let (num, den) := ratioOf (.ofRatio false (num * unit) den)
  Double.roundHalfEven num den

/-- The microseconds of so many units, counted apart for the whole units and the rest. -/
def microsOfDouble (unit : Nat) (d : Double) : Int :=
  let (num, den) := ratioOf d
  let size := num / den * unit + microsOfFraction unit (num % den) den
  if d.negative then -(size : Int) else size

/-- The microseconds of so many units; only numbers and booleans count something. -/
def ofNumber (unit : Nat) : Json → Except Breakage Int
  | .int n => within (n * unit)
  | .bool b => within (if b then unit else 0)
  | .float d =>
    if d.isNaN then .error .badNumber
    else if !d.isFinite then .error .outOfRange
    else within (microsOfDouble unit d)
  | _ => .error .wrongOperand

end Duration

end TenantSearch
