-- A query is compiled, run, and answered: with the buckets of a counting query, with the
-- documents of the hits, or with the records behind the hits. Records take the highlight
-- and score of their hit and go by descending score; hits without a record are left out.
import TenantSearch.Engine.Client
import TenantSearch.Query.Compile

namespace TenantSearch

structure QueryResponse where
  total : Int
  data : List Fields

namespace QueryResponse

/-- The response with a total in any of its forms. -/
def of (total : Json) (data : List Fields) : Except Failure QueryResponse :=
  (fun n => ⟨n, data⟩) <$> (Check.whole [.field "total"] total).orInvalid

def object (r : QueryResponse) : Json :=
  .obj [("total", .int r.total), ("data", .arr (r.data.map .obj))]

end QueryResponse

namespace Fusion

/-- What becomes of the result of a query: a response at once, or records to be fetched. -/
inductive Plan where
  | respond (total : Json) (data : List Fields)
  | fetch (ids : List Json)

/-- The identifiers to fetch: those of the hits that have one. -/
def idsOf (hits : List SearchHit) : List Json := (hits.map (·.id)).filter (·.given)

/-- What becomes of a result. Records are fetched when they are wanted and there are hits. -/
def plan (counting raw : Bool) (result : SearchResult) : Except Breakage Plan := do
  if counting then
    let buckets ← result.buckets
    pure (.respond (.int buckets.length) buckets)
  else if !raw || result.hits.isEmpty then
    pure (.respond result.total (result.hits.map (·.document)))
  else pure (.fetch (idsOf result.hits))

/-- The last hit under each key. -/
def hitsByKey (hits : List SearchHit) : Except Breakage (List (Json.Key × SearchHit)) := do
  let keyed ← hits.mapM fun hit =>
    match hit.id.key? with
    | some key => pure (key, hit)
    | none => throw Breakage.wrongOperand
  pure keyed.reverse

/-- The hit of a record, when there is one. -/
def hitOf (hits : List (Json.Key × SearchHit)) (record : Json) :
    Except Breakage (Option SearchHit) := do
  let id ← record.field "id" .null
  match id.key? with
  | some key => pure ((hits.find? (·.1 == key)).map (·.2))
  | none => throw .wrongOperand

/-- A record with the highlight and score of its hit. -/
def fuse (record : Json) (hit : SearchHit) : Fields :=
  ((record.fields?.getD []).set "highlight" hit.highlight).set "score" hit.score

/-- The records that have a hit, each with what its hit brings. -/
def fuseAll (hits : List (Json.Key × SearchHit)) : List Json → Except Breakage (List Fields)
  | [] => pure []
  | record :: rest => do
    let hit ← hitOf hits record
    let fused ← fuseAll hits rest
    pure (match hit with
      | some hit => fuse record hit :: fused
      | none => fused)

/-! ## Ranking -/

/-- Where a document stands: scored documents first, a higher score before a lower one. -/
structure Rank where
  unscored : Bool
  descent : Dyadic
deriving DecidableEq, Repr

/-- The rank of a document. A score that is not given counts as nought. -/
def rankOf (document : Fields) : Except Breakage Rank :=
  let score := document.look "score"
  match (if score.given then score.number? else some (.ofInt 0)) with
  | some value => .ok ⟨score.isNull, value.neg⟩
  | none => .error .wrongOperand

/-- Whether one rank goes before another. -/
def Rank.before (a b : Rank) : Bool :=
  if a.unscored == b.unscored then a.descent.lt b.descent else b.unscored

/-- The documents by rank; of documents that rank alike the order stays. -/
def ranked (documents : List Fields) : Except Breakage (List Fields) := do
  let keyed ← documents.mapM fun d => (·, d) <$> rankOf d
  pure ((keyed.mergeSort fun a b => !b.1.before a.1).map (·.2))

/-- The response from the records that were fetched. -/
def merge (result : SearchResult) (records : List Json) : Except Failure QueryResponse :=
  match (do ranked (← fuseAll (← hitsByKey result.hits) records) : Except Breakage _) with
  | .ok data => QueryResponse.of result.total data
  | .error b => .error (.broken b)

/-- How records are fetched: by identifier, each with the attributes asked for. -/
abbrev Fetch := List Json → Json → Service (List Json)

/-- Answers a query. -/
def query (fetch : Fetch) (c : CallerContext) (r : QueryRequest) (skipSecurity raw : Bool)
    (attributes : Json) : Service QueryResponse := do
  let here ← Service.circumstances
  let compiled ← Service.orFail (r.compile here.settings c skipSecurity)
  let engineQuery := compiled.engineQuery
  let result ← Engine.search engineQuery
  match ← Service.orBroken (plan engineQuery.isAggregation raw result) with
  | .respond total data => Service.orFail (QueryResponse.of total data)
  | .fetch ids =>
    let records ← fetch ids attributes
    Service.orFail (merge result records)

end Fusion

end TenantSearch
