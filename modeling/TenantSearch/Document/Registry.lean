-- What is known about an entity for search, looked up in the definition table.
import TenantSearch.Program.Basic

namespace TenantSearch

/-- The schema for an entity of a solution, or for one of its subtypes. -/
def lookUpSchema (solutionId entityName entityType : Json) : Service EntitySchema := do
  let rows ← Service.call (.database (.definitions solutionId entityName entityType))
    (Outage.blame Outage.ofDatabase (.ofEntity .metadataRead entityName))
  Service.orBroken (EntityDefinition.choose rows)

end TenantSearch
