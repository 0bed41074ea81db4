-- A solution may define its entities: the fields an index has beyond the core ones, and
-- the fields that the two searchable texts are merged from. A definition for a subtype
-- goes before the one for the entity; without either the standard holds. The lists of a
-- definition are stored as they are given and only looked at when the definition is
-- used.
import TenantSearch.Document.PlainText
import TenantSearch.Document.Record

namespace TenantSearch

/-- A row of the definition table. -/
structure EntityDefinition where
  solutionId : String
  entityName : String
  entityType : Option String
  indexFields : Json
  display : Json
  content : Json

/-- What is known about an entity for search. -/
structure EntitySchema where
  extraFields : Fields := []
  merged : MergedText := .standard

namespace EntityDefinition

/-! ## Adding a row -/

/-- Whether two rows are for the same subtype of an entity. Rows for the entity itself never
clash. -/
def clashes (d e : EntityDefinition) : Bool :=
  d.entityType.isSome && d.entityType == e.entityType && d.solutionId == e.solutionId &&
    d.entityName == e.entityName

/-- The row for an entity that is given by values of any kind. -/
def ofValues (solutionId entityName entityType indexFields display content : Json) :
    Except Outage EntityDefinition := do
  let solutionId ← Record.columnText solutionId
  let entityName ← Record.columnText entityName
  let entityType ← Record.columnText entityType
  pure {
    solutionId := ← Record.needed solutionId, entityName := ← Record.needed entityName,
    entityType, indexFields, display, content }

/-- The table with a row more. -/
def add (table : List EntityDefinition) (d : EntityDefinition) :
    Except Outage (List EntityDefinition) :=
  if table.any d.clashes then .error .conflict else .ok (table ++ [d])

/-! ## Using a row -/

/-- The names in a list, or the standard ones when it is not given. -/
def orStandard (names : Json) (standard : List Json) : Except Breakage (List Json) :=
  if names.given then names.parts else .ok standard

def schema (d : EntityDefinition) : Except Breakage EntitySchema := do
  let extraFields ← d.indexFields.asFields
  let display ← orStandard d.display MergedText.standard.display
  let content ← orStandard d.content MergedText.standard.content
  pure { extraFields, merged := { display, content } }

/-- Whether a definition is for an entity of a solution: for the entity itself or for the subtype
asked for. -/
def isFor (solutionId entityName subtype : Option String) (d : EntityDefinition) : Bool :=
  some d.solutionId == solutionId && some d.entityName == entityName &&
    (d.entityType.isNone || (subtype.isSome && d.entityType == subtype))

/-- The row that counts: the first for a subtype, else the first for the entity. -/
def chosen? (rows : List EntityDefinition) : Option EntityDefinition :=
  (rows.find? (·.entityType.isSome)).or rows.head?

/-- The schema that rows give. -/
def choose (rows : List EntityDefinition) : Except Breakage EntitySchema :=
  match chosen? rows with
  | some d => d.schema
  | none => .ok {}

/-- The rows for an entity of a solution. A subtype counts only when it is given. -/
def rowsFor (table : List EntityDefinition) (solutionId entityName entityType : Json) :
    Except Outage (List EntityDefinition) := do
  let solutionId ← Record.columnText solutionId
  let entityName ← Record.columnText entityName
  let subtype ← Record.columnText entityType.orNull
  pure (table.filter (isFor solutionId entityName subtype))

end EntityDefinition

end TenantSearch
