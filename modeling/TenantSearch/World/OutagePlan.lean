-- Which calls are to fail, and how. A plan for a call lets some of them pass and then
-- fails the next ones, all of them or so many.
import TenantSearch.Failure

namespace TenantSearch

structure OutagePlan where
  call : String
  outage : Outage
  after : Nat
  times : Option Nat
deriving Repr

namespace OutagePlan

/-- The outage of one call, if it fails, and the plan for the calls after it. -/
def meet (p : OutagePlan) : Option Outage × OutagePlan :=
  if p.after ≠ 0 then (none, { p with after := p.after - 1 })
  else
    match p.times with
    | none => (some p.outage, p)
    | some 0 => (none, p)
    | some (n + 1) => (some p.outage, { p with times := some n })

/-- The outage of a call under a list of plans, and what the plans are after it. -/
def meetAll (call : String) : List OutagePlan → Option Outage × List OutagePlan
  | [] => (none, [])
  | p :: rest =>
    if p.call == call then
      let (outage, p) := p.meet
      (outage, p :: rest)
    else
      let (outage, rest) := meetAll call rest
      (outage, p :: rest)

/-- The plans without the one for a call. -/
def clear (call : String) (plans : List OutagePlan) : List OutagePlan :=
  plans.filter (·.call != call)

end OutagePlan

end TenantSearch
