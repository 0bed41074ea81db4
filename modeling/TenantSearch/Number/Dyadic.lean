-- Whole numbers and finite doubles are compared by value: both are `mantissa * 2 ^
-- power`.
import TenantSearch.Number.Double

namespace TenantSearch

/-- The number `mantissa * 2 ^ power`. -/
structure Dyadic where
  mantissa : Int
  power : Int
deriving DecidableEq, Repr

namespace Dyadic

def ofInt (n : Int) : Dyadic := ⟨n, 0⟩

/-- The value of a finite double. -/
def ofDouble (d : Double) : Dyadic :=
  ⟨if d.negative then -(d.mantissa : Int) else d.mantissa, d.power⟩

/-- The mantissa once the power is lowered to `power`. -/
def scaledTo (x : Dyadic) (power : Int) : Int := x.mantissa * Int.pow 2 (x.power - power).toNat

def lt (x y : Dyadic) : Bool :=
  let power := min x.power y.power
  x.scaledTo power < y.scaledTo power

def neg (x : Dyadic) : Dyadic := ⟨-x.mantissa, x.power⟩

end Dyadic

end TenantSearch
