-- A caller holds a right on an entity through the privilege for the entity with its
-- subtype, for the entity, or for everything; the owner of the solution holds every
-- right. Names and rights are compared without case, and of two privileges with one name
-- the later counts.
import TenantSearch.Access.Context
import TenantSearch.Index.Target

namespace TenantSearch

/-- The privilege for everything. -/
def anyEntity : String := "*"

/-- The rights that let a caller read. -/
def readRights : List String := ["read", "full"]

namespace CallerContext

/-- The privileges with lower-case names. -/
def grants (c : CallerContext) : List (String × List String) :=
  c.privileges.map fun p => (lower p.1, p.2)

/-- The rights granted under a lower-case name: those of the last such privilege. -/
def granted (c : CallerContext) (name : String) : List String :=
  ((c.grants.reverse.find? (·.1 == name)).map (·.2)).getD []

/-- The names under which a right on a target is looked up: its own, its entity's, and the one for
everything. -/
def privilegeNames (t : IndexTarget) : List String := [t.name, lower t.entityName, anyEntity]

/-- Whether the caller holds one of the rights on a target. -/
def hasPrivilege (c : CallerContext) (t : IndexTarget) (rights : List String) : Bool :=
  c.isSolutionOwner ||
    (privilegeNames t).any fun name =>
      (c.granted name).any fun right => rights.contains (lower right)

/-- Whether the caller may read what a target stands for. -/
def canRead (c : CallerContext) (t : IndexTarget) : Bool := c.hasPrivilege t readRights

end CallerContext

end TenantSearch
