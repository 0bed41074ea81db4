-- Before anything is written to an index, the index is made sure of: there is one, and
-- its identifiers are keywords. An index that is missing or not compatible is dropped
-- and created anew. An index that was seen to be good is remembered. All of this happens
-- under the lock of the index.
import TenantSearch.Document.Registry
import TenantSearch.Engine.Client
import TenantSearch.Index.Target

namespace TenantSearch

namespace Index

/-- Whether field types are compatible: identifiers are keywords. -/
def isCompatible (types : List (String × Json)) : Bool :=
  match types.find? (·.1 == "id") with
  | some (_, .str type) => type == "keyword"
  | _ => false

/-- Whether the live index is compatible. Any doubt means no. -/
def checkLive (index : String) : Service Bool := do
  match ← Service.attempt (Engine.liveSchema index) with
  | .ok (some types) => pure (isCompatible types)
  | .ok none => pure false
  | .error _ => pure false

/-- Whether an index is good, from memory or by a look at it. -/
def isGood (index : String) : Service Bool := do
  if (← Service.memory).knows index then pure true
  else
    Service.change (.mark index .checking)
    let good ← checkLive index
    if good then
      Service.change (.remember index)
      Service.change (.mark index .good)
    else
      Service.change (.mark index .missing)
    pure good

/-- Drops the index if there is one and creates it; says whether there was one. -/
def replace (solutionId : Json) (target : IndexTarget) : Service (IndexDescriptor × Bool) := do
  let schema ← lookUpSchema solutionId (.str target.entityName) target.entityType
  let built := IndexDescriptor.build target.name schema.extraFields
  let descriptor ← Service.orFail built.checked.orInvalid
  let existed ← Engine.hasIndex target.name
  if existed then Engine.dropIndex target.name
  Engine.createIndex descriptor
  pure (descriptor, existed)

/-- Asks the queue to fill a recreated index again, when there is a queue to ask. Whether that
works out changes nothing else. -/
def backfill (solutionId : Json) (target : IndexTarget) : Service Unit := do
  let here ← Service.circumstances
  if here.backfills then
    let _ ← Service.ask (.call (.queue (.enqueue ⟨solutionId, target.entityName, here.now⟩)))

/-- Replaces an index under its lock. The index is not known to be good until that has worked
out. -/
def recreate (solutionId : Json) (target : IndexTarget) : Service IndexDescriptor := do
  let index := target.name
  Service.change (.mark index .creating)
  Service.change (.forget index)
  match ← Service.attempt (replace solutionId target) with
  | .error f =>
    Service.change (.mark index .unknown)
    throw f
  | .ok (descriptor, existed) =>
    Service.change (.remember index)
    Service.change (.mark index .good)
    if existed then backfill solutionId target
    pure descriptor

/-- Makes sure of one index; says whether it was created. -/
def ensureOne (solutionId : Json) (force : Bool) (target : IndexTarget) : Service Bool :=
  Service.locked target.name do
    let due ← if force then pure true else (! ·) <$> isGood target.name
    if due then let _ ← recreate solutionId target
    pure due

/-- Makes sure of several indices, one after the other; gives the names of those created. -/
def ensureEach (solutionId : Json) (force : Bool) : List IndexTarget → Service (List String)
  | [] => pure []
  | target :: rest => do
    let created ← ensureOne solutionId force target
    let others ← ensureEach solutionId force rest
    pure (if created then target.name :: others else others)

/-- The name of an entity: text that is not blank. -/
def entityNameOf (v : Json) : Except Failure String :=
  if !v.given then .error (.of .noEntityName)
  else
    match v with
    | .str s => if isBlankText s then .error (.of .noEntityName) else .ok s
    | _ => .error (.broken .notAnObject)

/-- Makes sure of the index of an entity, and of the subtype's when there is one. -/
def ensure (solutionId entityName entityType : Json) (force : Bool) : Service (List String) := do
  let name ← Service.orFail (entityNameOf entityName)
  ensureEach solutionId force (IndexTarget.writeTargets name entityType)

/-- Drops and creates one index. -/
def create (solutionId : Json) (target : IndexTarget) : Service IndexDescriptor :=
  Service.locked target.name (recreate solutionId target)

end Index

end TenantSearch
