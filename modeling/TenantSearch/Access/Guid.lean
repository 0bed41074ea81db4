-- A blank identifier is replaced by a fresh one, which no document carries. Fresh
-- identifiers are numbered in the order in which they are drawn.
import TenantSearch.Json.Value

namespace TenantSearch

/-- How many identifiers have been drawn. -/
structure GuidSupply where
  drawn : Nat
deriving DecidableEq, Repr, Inhabited

namespace GuidSupply

/-- Nothing drawn yet. -/
def fresh : GuidSupply := ⟨0⟩

/-- The `n`-th identifier. -/
def nth (n : Nat) : String :=
  "00000000-0000-0000-0000-" ++ String.ofList (hexPadded 12 n)

/-- The next identifier, and the supply without it. -/
def draw (g : GuidSupply) : String × GuidSupply := (nth (g.drawn + 1), ⟨g.drawn + 1⟩)

/-- The value, or a fresh identifier in its place. -/
def drawIf (blank : Bool) (g : GuidSupply) (v : Json) : Json × GuidSupply :=
  if blank then (.str g.draw.1, g.draw.2) else (v, g)

end GuidSupply

end TenantSearch
