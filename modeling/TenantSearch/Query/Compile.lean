-- A request and its caller give a query with its filters in place. Nothing outside is
-- asked, so the same input always gives the same query.
import TenantSearch.Query.Compiled
import TenantSearch.Query.Policy

namespace TenantSearch

namespace QueryRequest

/-- The filters for identifiers. -/
def identifierFilters (r : QueryRequest) : List Clause :=
  (match r.id with
    | some id => [.term "id" (.str id)]
    | none => []) ++
  (match r.ids with
    | some ids => [.terms "id" (ids.map .str)]
    | none => [])

/-- A document may be in any of the categories. -/
def categoryFilters (r : QueryRequest) : List Clause :=
  if r.categoryIds.isEmpty then []
  else [.anyOf (r.categoryIds.map fun id => .term "categoryIds" (.str id))]

/-- All filters of a request over these index names. -/
def filters (c : CallerContext) (r : QueryRequest) (names : List String) (enforce : Bool) :
    List Clause :=
  [.term "stateCode" (.int r.stateCode)] ++ r.identifierFilters ++
    Policy.solutionFilters c names ++ r.categoryFilters ++
    Policy.scopeFilters c r.scope names enforce ++ r.conditions.map .ofCondition

/-- The keys to sort by: with keywords, relevance goes first. -/
def sortKeys (r : QueryRequest) : List (String × String) :=
  (if r.keywords.isSome then [("_score", Direction.descending.name)] else []) ++
    r.orderBy.map fun o => (o.field, o.direction.name)

/-- What the request asks of the documents. -/
def asking (settings : Settings) (r : QueryRequest) : Asking :=
  match r.aggregate with
  | some field => .counting field settings.aggregateSize
  | none =>
    .listing r.pageSize r.keywords r.highlightPreTag r.highlightPostTag r.sortKeys r.attributes

/-- The names in lower case, each once, in the order in which they first come. -/
def indicesOf (names : List String) : List String := (names.map lower).eraseDups

/-- The compiled request. An internal caller may skip the check of privileges and with it the
forced organization. -/
def compile (settings : Settings) (c : CallerContext) (r : QueryRequest)
    (skipSecurity : Bool := false) : Except Failure SecuredQuery := do
  let names := Policy.indexTargets r
  let names ← if skipSecurity then pure names else Policy.readableTargets c names
  pure ⟨indicesOf names, r.filters c names (!skipSecurity), r.asking settings⟩

end QueryRequest

end TenantSearch
