-- The search policy: which indices a caller may search, and which documents in them.
-- Everything here narrows a query; nothing that a caller puts into a request takes it
-- away.
import TenantSearch.Access.Privilege
import TenantSearch.Index.Target
import TenantSearch.Query.Clause
import TenantSearch.Query.Request

namespace TenantSearch

namespace Policy

/-- The reserved entity that holds secrets, in lower case. Its records are never forced into the
organization of the caller. -/
def secretEntity : String := "secret"

/-- The entities that hold the configuration of a solution, in lower case. -/
def solutionOwned : List String :=
  ["solutiondashboard", "site", "localization", "solutiondefinition"]

/-- The index names of a request: the extra ones, then the entity's or its subtype's. -/
def indexTargets (r : QueryRequest) : List String :=
  r.indexNames ++
    [match r.entityType with
      | some subtype => r.entityName ++ "_" ++ subtype
      | none => r.entityName]

/-- Whether the caller may read what an index name stands for. -/
def mayRead (c : CallerContext) (indexName : String) : Bool := c.canRead (.parse indexName)

/-- The entity of the first name, for the report of a refusal. -/
def refusedEntity : List String → Json
  | [] => .null
  | name :: _ => .str (IndexTarget.parse name).entityName

/-- The names that the caller may read. A caller that may read none of them is refused. -/
def readableTargets (c : CallerContext) (names : List String) : Except Failure (List String) :=
  let readable := names.filter (mayRead c)
  if readable.isEmpty then .error (.ofEntity .noReadPrivilege (refusedEntity names))
  else .ok readable

/-- Configuration entities are restricted to the caller's solution, whatever the scope. -/
def solutionFilters (c : CallerContext) (names : List String) : List Clause :=
  if names.any fun name => solutionOwned.contains (IndexTarget.entityOf name) then
    [.term "ownerId" (.str c.solutionId)]
  else []

/-- Whether there are names, and all of them stand for secrets. -/
def onlySecrets (names : List String) : Bool :=
  !names.isEmpty && names.all fun name => IndexTarget.entityOf name == secretEntity

/-- The filter of the caller's organization. -/
def organizationFilter (c : CallerContext) : Clause :=
  .term "organizationId" (.str c.organizationId)

/-- The filters of a scope. Without one, the organization is forced when the policy is enforced,
unless the query is for secrets alone. -/
def scopeFilters (c : CallerContext) (scope : Option Scope) (names : List String)
    (enforce : Bool) : List Clause :=
  let mine : Clause := .term "ownedBy" (.str c.userId)
  let everyone : Clause := .term "isGlobal" (.bool true)
  match scope with
  | some .everyone => [everyone]
  | some .mine => [mine]
  | some .everyoneAndMine => [.anyOf [mine, everyone]]
  | some .organization => [organizationFilter c]
  | none => if enforce && !onlySecrets names then [organizationFilter c] else []

end Policy

end TenantSearch
