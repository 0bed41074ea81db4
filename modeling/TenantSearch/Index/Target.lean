-- Every entity has an index, and every subtype of it has one of its own. The name of an
-- index is the lower-case name of the entity, then an underscore and the subtype where
-- there is one.
import TenantSearch.Json.Value
import TenantSearch.Text.Case

namespace TenantSearch

/-- An entity, or one of its subtypes. A subtype is whatever a record says it is; null and
everything empty stand for none. -/
structure IndexTarget where
  entityName : String
  entityType : Json := .null

namespace IndexTarget

/-- The name of the index. -/
def name (t : IndexTarget) : String :=
  if t.entityType.given then lower (t.entityName ++ "_" ++ t.entityType.text)
  else lower t.entityName

/-- The target that a name stands for: the entity before the first underscore, the subtype after. -/
def parse (name : String) : IndexTarget :=
  let cs := name.toList
  let subtype := (cs.dropWhile (· != '_')).drop 1
  ⟨String.ofList (cs.takeWhile (· != '_')),
    if subtype.isEmpty then .null else .str (String.ofList subtype)⟩

/-- The indices that a record is written to: the entity's, then the subtype's. -/
def writeTargets (entityName : String) (entityType : Json) : List IndexTarget :=
  if entityType.given then [⟨entityName, .null⟩, ⟨entityName, entityType⟩]
  else [⟨entityName, .null⟩]

/-- The entity that an index name belongs to, in lower case. -/
def entityOf (indexName : String) : String := lower (parse indexName).entityName

end IndexTarget

end TenantSearch
