-- One service for every call to the search engine. The engine's own failures become
-- service failures about the index concerned; everything else passes through. What is to
-- be removed and is not there counts as removed.
import TenantSearch.Engine.Response
import TenantSearch.Program.Basic

namespace TenantSearch

namespace Engine

/-- A call whose failures are about an index. -/
def call (c : EngineCall) (cause : Cause) (index : String) : Service c.Reply :=
  Service.call (.engine c) (Outage.blame Outage.ofEngine (.ofIndex cause index))

/-- A call that removes something: it may be gone already. -/
def removal (c : EngineCall) (cause : Cause) (index : String) : Service Unit := do
  match ← Service.ask (.call (.engine c)) with
  | .ok _ => pure ()
  | .error .notFound => pure ()
  | .error o => throw (Outage.blame Outage.ofEngine (.ofIndex cause index) o)

/-- Runs a query. -/
def search (q : EngineQuery) : Service SearchResult := do
  let response ← call (.search q.indices q.arguments) .search (",".intercalate q.indices)
  Service.orBroken (SearchResult.read response)

def hasIndex (index : String) : Service Bool := call (.hasIndex index) .indexExists index

/-- The field types that mappings declare; a field without a type holds an object. -/
def fieldTypes (mappings : Json) : Except Breakage (List (String × Json)) := do
  match ← mappings.field "properties" (.obj []) with
  | .obj properties => properties.mapM fun p => (p.1, ·) <$> p.2.field "type" (.str "object")
  | _ => throw .notAnObject

/-- The field types of a live index, none when there is no such index. -/
def liveSchema (index : String) : Service (Option (List (String × Json))) := do
  match ← Service.ask (.call (.engine (.mapping index))) with
  | .ok mappings => some <$> Service.orBroken (fieldTypes mappings)
  | .error .notFound => pure none
  | .error o => throw (Outage.blame Outage.ofEngine (.ofIndex .indexMapping index) o)

def createIndex (d : IndexDescriptor) : Service Unit := call (.create d) .indexCreation d.indexName

def dropIndex (index : String) : Service Unit := removal (.drop index) .indexDeletion index

/-- Stores a document under its own identifier. -/
def putDocument (index : String) (document : Fields) : Service Unit :=
  match document.get? "id" with
  | some id => call (.put index id document) (.documentIndexing id) index
  | none => throw (.broken .missingField)

def removeDocument (index : String) (id : Json) : Service Unit :=
  removal (.remove index id) (.documentDeletion id) index

/-- Whether the engine is well, with the state of its cluster; nobody learns why it is not. -/
def health : Service (Option Json) := do
  match ← Service.ask (.call (.engine .health)) with
  | .ok state => pure ((state.field "status" .null).toOption)
  | .error _ => pure none

end Engine

end TenantSearch
