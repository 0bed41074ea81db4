-- A raw response holds the total, the hits and the aggregations of a query. The
-- identifier of a hit is that of its document, or the engine's own when the document
-- leaves it out.
import TenantSearch.Json.Unchecked
import TenantSearch.Query.Compiled

namespace TenantSearch

structure SearchHit where
  id : Json
  score : Json
  highlight : Json
  source : Fields

structure SearchResult where
  total : Json
  hits : List SearchHit
  aggregations : Json

namespace SearchHit

def read (hit : Json) : Except Breakage SearchHit := do
  let source ← hit.field "_source" (.obj [])
  let ownId ← hit.field "_id" .null
  let id ← source.field "id" ownId
  pure {
    id
    score := ← hit.field "_score" .null
    highlight := ← hit.field "highlight" .null
    source := source.fields?.getD [] }

/-- The document of a hit, with its highlight and score. -/
def document (h : SearchHit) : Fields :=
  (h.source.set "highlight" h.highlight).set "score" h.score

end SearchHit

namespace SearchResult

/-- The total of a response: the value of an object, or a number in any form. -/
def readTotal : Json → Except Breakage Json
  | .obj fields => .ok ((Fields.get? fields "value").getD (.int 0))
  | v => if v.given then .int <$> v.wholePart else .ok (.int 0)

/-- The hits are read before the total. -/
def read (response : Json) : Except Breakage SearchResult := do
  let hits ← match response with
    | .obj fields =>
      match Fields.get? fields "hits" with
      | some hits => pure hits
      | none => throw .missingField
    | _ => throw .wrongOperand
  let total ← hits.field "total" .null
  let items ← (← hits.field "hits" (.arr [])).parts
  let hits ← items.mapM SearchHit.read
  let total ← readTotal total
  let aggregations ← response.field "aggregations" .null
  pure ⟨total, hits, if aggregations.given then aggregations else .obj []⟩

/-- One bucket as it is answered: its key and how many documents it counts. -/
def readBucket (bucket : Json) : Except Breakage Fields := do
  pure [("key", ← bucket.field "key" .null), ("count", ← bucket.field "doc_count" (.int 0))]

/-- The buckets of a counting query. -/
def buckets (r : SearchResult) : Except Breakage (List Fields) := do
  let list ← r.aggregations.field aggregationName (.obj [])
  let items ← (← list.field "buckets" (.arr [])).parts
  items.mapM readBucket

end SearchResult

end TenantSearch
