-- A document goes into the index of its entity and into that of its subtype. Both are
-- made sure of before it is written.
import TenantSearch.Document.Projection
import TenantSearch.Index.Upkeep

namespace TenantSearch

namespace Indexing

/-- What a document must say of itself: its entity and its identifier. -/
structure Subject where
  entityName : Json
  id : Json

def subject (document : Fields) : Except Failure Subject :=
  let entityName := document.look "entityName"
  let id := document.look "id"
  if !entityName.given then .error (.of .noEntityName)
  else if !id.given then .error (.ofEntity .noId entityName)
  else .ok ⟨entityName, id⟩

/-- Whether an entity is reserved; the question makes no sense for lists and objects. -/
def isReserved (entityName : Json) : Except Breakage Bool :=
  match entityName with
  | .str s => .ok (reservedEntities.contains s)
  | v => if v.key?.isSome then .ok false else .error .wrongOperand

/-- The document with its merged texts; the schema is looked up when one of them is missing. -/
def completed (document : Fields) (entityName entityType : Json) : Service Fields := do
  if Projection.hasTexts document then pure document
  else
    let schema ← lookUpSchema (document.look "solutionId") entityName entityType
    Service.orBroken (Projection.withTexts schema.merged document)

/-- Writes a document to indices, one after the other; gives their names. -/
def putEach (document : Fields) : List IndexTarget → Service (List String)
  | [] => pure []
  | target :: rest => do
    Engine.putDocument target.name document
    let names ← putEach document rest
    pure (target.name :: names)

/-- Indexes a document; gives the names of the indices written, none for a reserved entity. -/
def upsert (document : Fields) : Service (List String) := do
  let subject ← Service.orFail (subject document)
  if ← Service.orBroken (isReserved subject.entityName) then pure []
  else
    let entityType := (document.look "entityType").orNull
    let completed ← completed document subject.entityName entityType
    let _ ← Index.ensure (document.look "solutionId") subject.entityName entityType false
    let name ← Service.orFail (Index.entityNameOf subject.entityName)
    putEach (Projection.strip completed) (IndexTarget.writeTargets name entityType)

/-- Removes a document from indices, one after the other. -/
def removeEach (id : Json) : List IndexTarget → Service Unit
  | [] => pure ()
  | target :: rest => do
    Engine.removeDocument target.name id
    removeEach id rest

/-- The indices of a document by what it says of itself now. -/
def targetsOf (entityName entityType : Json) : Except Failure (List IndexTarget) :=
  match entityName with
  | .str name => .ok (IndexTarget.writeTargets name entityType)
  | _ => .error (.broken .notAnObject)

/-- Removes a document from its indices; gives their names. -/
def remove (document : Fields) : Service (List String) := do
  let subject ← Service.orFail (subject document)
  let targets ← Service.orFail (targetsOf subject.entityName (document.look "entityType"))
  removeEach subject.id targets
  pure (targets.map (·.name))

/-- Indexes a document that was saved. Whether that works out is nobody else's concern. -/
def follow (document : Fields) : Service Unit := do
  let _ ← Service.attempt (upsert document)

end Indexing

end TenantSearch
