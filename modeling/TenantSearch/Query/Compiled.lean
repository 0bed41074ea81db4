-- A compiled query names the indices to search and says what to ask of them. It lists
-- documents, or it only counts the values of a field. The filters are the same in both.
import TenantSearch.Query.Clause

namespace TenantSearch

/-- What a compiled query asks of the documents that pass its filters. -/
inductive Asking where
  | listing (size : Int) (keywords : Option String) (preTag postTag : String)
      (sort : List (String × String)) (keep : Option (List String))
  | counting (field : String) (most : Json)

/-- A query with its filters in place. -/
structure SecuredQuery where
  indices : List String
  filters : List Clause
  asking : Asking

/-- A query in the terms of the search engine. -/
structure EngineQuery where
  indices : List String
  size : Int
  start : Int := 0
  must : List Fields := []
  filters : List Fields := []
  highlight : Option Fields := none
  sort : List Fields := []
  source : Option (List String) := none
  aggregation : Option Fields := none

namespace EngineQuery

def isAggregation (q : EngineQuery) : Bool := q.aggregation.isSome

def objects (items : List Fields) : Json := .arr (items.map .obj)

/-- The body of the request to the engine. -/
def body (q : EngineQuery) : Fields :=
  match q.aggregation with
  | some aggregation => [
      ("size", .int 0),
      ("query", .obj [("bool", .obj [("filter", objects q.filters)])]),
      ("aggs", .obj aggregation)]
  | none =>
    [("from", .int q.start), ("size", .int q.size),
      ("query", .obj [("bool", .obj [("must", objects q.must), ("filter", objects q.filters)])])] ++
    (match q.highlight with
      | some highlight => if highlight.isEmpty then [] else [("highlight", .obj highlight)]
      | none => []) ++
    (if q.sort.isEmpty then [] else [("sort", objects q.sort)]) ++
    (match q.source with
      | some names => [("_source", .texts names)]
      | none => [])

/-- The names that the engine's client gives to two parts of a body. -/
def argumentName (part : String) : String :=
  match part with
  | "from" => "from_"
  | "_source" => "source"
  | part => part

/-- The body as arguments of the engine's client. -/
def arguments (q : EngineQuery) : Fields := q.body.map fun f => (argumentName f.1, f.2)

/-! ## Checking a query given as an object -/

def checkObject (path : List PathStep) : Json → Checked Fields
  | .obj fields => .accepted fields
  | v => .flaw path v .notObject

/-- Null or something that passes the check. -/
def checkNullable {α : Type} (check : List PathStep → Json → Checked α) (path : List PathStep) :
    Json → Checked (Option α)
  | .null => .accepted none
  | v => some <$> check path v

/-- The query that an object describes. -/
def check : Json → Checked EngineQuery
  | .obj fields =>
    let objectsNamed (name : String) :=
      (FieldName.only name).check [] fields (some []) (Check.listOf checkObject)
    EngineQuery.mk <$> (FieldName.only "indices").check [] fields none Check.texts
      <*> (FieldName.only "size").check [] fields none Check.whole
      <*> (FieldName.only "from_").check [] fields (some 0) Check.whole
      <*> objectsNamed "must"
      <*> objectsNamed "filters"
      <*> (FieldName.only "highlight").check [] fields (some none) (checkNullable checkObject)
      <*> objectsNamed "sort"
      <*> (FieldName.only "source").check [] fields (some none) (checkNullable Check.texts)
      <*> (FieldName.only "aggregation").check [] fields (some none) (checkNullable checkObject)
  | v => .flaw [] v (.notForm "CompiledQuery")

/-- The query as an object. -/
def object (q : EngineQuery) : Fields := [
  ("indices", .texts q.indices), ("size", .int q.size), ("from_", .int q.start),
  ("must", objects q.must), ("filters", objects q.filters),
  ("highlight", (q.highlight.map .obj).getD .null), ("sort", objects q.sort),
  ("source", (q.source.map .texts).getD .null),
  ("aggregation", (q.aggregation.map .obj).getD .null),
  ("is_aggregation", .bool q.isAggregation), ("body", .obj q.body)]

end EngineQuery

/-! ## In the terms of the engine -/

/-- The fields of a keyword search with their weights. -/
def keywordFields : List String := ["searchDisplay^2", "searchContent", "tags^3", "tagsLowerCase^3"]

/-- The name of the only aggregation of a counting query. -/
def aggregationName : String := "list"

/-- How matches in the merged text fields are marked. -/
def highlightOf (preTag postTag : String) : Fields :=
  let tags : Json := .obj [("pre_tags", .texts [preTag]), ("post_tags", .texts [postTag])]
  [("require_field_match", .bool true),
    ("fields", .arr (searchTextFields.map fun field => .obj [(field, tags)]))]

/-- What the keywords must match, when there are any. -/
def keywordMatch : Option String → List Fields
  | some keywords =>
    [[("multi_match", .obj [("query", .str keywords), ("fields", .texts keywordFields)])]]
  | none => []

/-- One sort key. -/
def sortKey (key : String × String) : Fields := [(key.1, .obj [("order", .str key.2)])]

/-- The query in the terms of the search engine. -/
def SecuredQuery.engineQuery (q : SecuredQuery) : EngineQuery :=
  let filters := q.filters.map (·.fields)
  match q.asking with
  | .listing size keywords preTag postTag sort keep =>
    { indices := q.indices, size, filters, must := keywordMatch keywords,
      highlight := some (highlightOf preTag postTag), sort := sort.map sortKey, source := keep }
  | .counting field most =>
    { indices := q.indices, size := 0, filters,
      aggregation := some [(aggregationName,
        .obj [("terms", .obj [("field", .str field), ("size", most)])])] }

end TenantSearch
