-- What a caller asks for, brought into a normal form once: paging is clamped, an order
-- given as text is read, and an empty identifier filter becomes one that nothing
-- matches.
import TenantSearch.Access.Guid
import TenantSearch.Failure
import TenantSearch.Query.Condition
import TenantSearch.Settings

namespace TenantSearch

/-- Which of the documents the caller wants to see, on top of what it may see. -/
inductive Scope where
  | everyone
  | mine
  | everyoneAndMine
  | organization
deriving DecidableEq, Repr

namespace Scope

def name : Scope → String
  | .everyone => "global"
  | .mine => "mine"
  | .everyoneAndMine => "global-and-mine"
  | .organization => "organization"

def all : List Scope := [everyone, mine, everyoneAndMine, organization]

/-- The scope of a name, in any case and with blanks around it; any other value is no scope. -/
def read? : Json → Option Scope
  | .str s => all.find? (·.name == lower (trim s))
  | _ => none

end Scope

inductive Direction where
  | ascending
  | descending
deriving DecidableEq, Repr

def Direction.name : Direction → String
  | .ascending => "asc"
  | .descending => "desc"

/-- The direction of a name; whatever is not descending is ascending. -/
def Direction.read : Json → Direction
  | .str s => if lower (trim s) = "desc" then .descending else .ascending
  | _ => .ascending

/-- One key to sort by. -/
structure OrderBy where
  field : String
  direction : Direction
deriving DecidableEq, Repr

namespace OrderBy

/-- An order given as text: a field and perhaps a direction. Commas count as blanks, and only the
first pair counts. -/
def shorthand (s : String) : List (String × String) :=
  match wordsBy (fun c => isBlank c || c == ',') s.toList with
  | [] => []
  | [field] => [(String.ofList field, "asc")]
  | field :: direction :: _ => [(String.ofList field, String.ofList direction)]

/-- A pair of a shorthand as an object. -/
def pairObject (p : String × String) : Json :=
  .obj [("attribute", .str p.1), ("direction", .str p.2)]

/-- One item of an order: a text stands for the pairs it writes. -/
def expandItem : Json → List Json
  | .str s => (shorthand s).map pairObject
  | v => [v]

/-- The items of an order in all the forms it may take; what has no items is a breakage. -/
def expand : Json → Except Breakage (List Json)
  | .null => .ok []
  | .arr items => .ok (items.flatMap expandItem)
  | .str s => .ok (expandItem (.str s))
  | .obj fields => .ok [.obj fields]
  | _ => .error .wrongOperand

/-- The direction of a key: under its own name, or under `type`. -/
def directionOf (fields : Fields) : Direction :=
  match fields.get? "direction" with
  | some v => .read v
  | none => .read (fields.look "type")

/-- The sort key that an object describes. -/
def check (path : List PathStep) : Json → Checked OrderBy
  | .obj fields =>
    OrderBy.mk <$> (FieldName.only "attribute").check path fields none Check.someText
      <*> pure (directionOf fields)
  | v => .flaw path v (.notForm "OrderBy")

def object (o : OrderBy) : Json := pairObject (o.field, o.direction.name)

end OrderBy

structure QueryRequest where
  entityName : String
  entityType : Option String := none
  indexNames : List String := []
  id : Option String := none
  ids : Option (List String) := none
  attributes : Option (List String) := none
  keywords : Option String := none
  conditions : List Condition := []
  categoryIds : List String := []
  scope : Option Scope := none
  stateCode : Int := 0
  pageSize : Int
  orderBy : List OrderBy := []
  aggregate : Option String := none
  highlightPreTag : String
  highlightPostTag : String

namespace QueryRequest

/-! ## Checking the fields -/

/-- The name of an entity: not empty, blanks around it dropped, not blank. -/
def checkEntityName (path : List PathStep) (v : Json) : Checked String :=
  (Check.someText path v).andThen fun s =>
    if isBlankText s then .flaw path v (.refused "The entityName is not provided.")
    else .accepted (trim s)

/-- A text that counts only when it is not blank. -/
def checkOptional (path : List PathStep) : Json → Checked (Option String)
  | .str s => .accepted (if isBlankText s then none else some s)
  | v => Check.optionalText path v

/-- A list that may be null, which counts as empty. -/
def checkList {α : Type} (item : List PathStep → Json → Checked α) (path : List PathStep) :
    Json → Checked (List α)
  | .null => .accepted []
  | v => Check.listOf item path v

/-- A blank identifier. -/
def isBlankValue : Json → Bool
  | .str s => isBlankText s
  | _ => false

/-- An identifier, or null. A blank one matches nothing. -/
def checkId (g : GuidSupply) (given : Option (String × Json)) :
    Checked (Option String) × GuidSupply :=
  match given with
  | none => (.accepted none, g)
  | some (spelling, v) =>
    let (v, g) := g.drawIf (isBlankValue v) v
    (Check.optionalText [.field spelling] v, g)

/-- Identifiers, or null. An empty list matches nothing. -/
def checkIds (g : GuidSupply) (given : Option (String × Json)) :
    Checked (Option (List String)) × GuidSupply :=
  match given with
  | none => (.accepted none, g)
  | some (_, .null) => (.accepted none, g)
  | some (_, .arr []) => (.accepted (some [g.draw.1]), g.draw.2)
  | some (spelling, v) => (some <$> Check.texts [.field spelling] v, g)

/-- The names to keep of each document; all of them unless some are named. -/
def attributesOf (v : Json) : Option (List String) :=
  let names := match v with
    | .str s => commaPieces s
    | .arr items => items.filterMap Json.text?
    | _ => []
  let names := (names.map trim).filter (!·.isEmpty)
  if names.isEmpty || names == ["*"] then none else some names

/-- The smaller of a whole number and a limit, which must be a number of some kind. -/
def atMost (limit : Json) (n : Int) : Except Breakage Json :=
  match limit.number? with
  | some most => .ok (if !limit.isNaN && most.lt (.ofInt n) then limit else .int n)
  | none => .error .wrongOperand

/-- A size clamped between one and the largest page. -/
def clampedSize (largest : Json) (n : Int) : Except Breakage Json := do
  let size ← atMost largest n
  pure (if (size.number?.map (Dyadic.lt (.ofInt 1))).getD false then size else .int 1)

/-- The page size for a value: a number is clamped, anything else gives the default. A number that
is infinite has no whole part. Whatever comes out must be a whole number after all. -/
def pageSizeOf (path : List PathStep) (settings : Settings) (v : Json) :
    Except Breakage (Checked Int) :=
  match v with
  | .int n => (clampedSize settings.largestPage n).map (Check.whole path)
  | .float d =>
    if d.isNaN then .ok (.flaw path v (.refused "cannot convert float NaN to integer"))
    else if !d.isFinite then .error .outOfRange
    else (clampedSize settings.largestPage d.truncate).map (Check.whole path)
  | _ => .ok (Check.whole path settings.defaultPage)

/-- A highlight tag as given, or the configured one. -/
def tagOf (configured : Json) : Json → Json
  | .str s => if s.isEmpty then configured else .str s
  | _ => configured

def entityNameField : FieldName := ⟨"entityName", "entity_name"⟩
def entityTypeField : FieldName := ⟨"entityType", "entity_type"⟩
def indexNamesField : FieldName := ⟨"indexNames", "index_names"⟩
def categoryIdsField : FieldName := ⟨"categoryIds", "category_ids"⟩
def stateCodeField : FieldName := ⟨"stateCode", "state_code"⟩
def pageSizeField : FieldName := ⟨"pageSize", "page_size"⟩
def orderByField : FieldName := ⟨"orderBy", "order_by"⟩
def preTagField : FieldName := ⟨"highlightPreTag", "highlight_pre_tag"⟩
def postTagField : FieldName := ⟨"highlightPostTag", "highlight_post_tag"⟩

/-- The page size of a request. A missing one is the default that held at the start. -/
def checkPageSize (defaults : Settings.FormDefaults) (settings : Settings) (fields : Fields) :
    Except Breakage (Checked Int) :=
  match pageSizeField.find? fields with
  | some (spelling, v) => pageSizeOf [.field spelling] settings v
  | none => .ok (.accepted defaults.page)

/-- The order of a request. -/
def checkOrderBy (fields : Fields) : Except Breakage (Checked (List OrderBy)) :=
  match orderByField.find? fields with
  | some (spelling, v) =>
    (OrderBy.expand v).map fun items => Check.listOf OrderBy.check [.field spelling] (.arr items)
  | none => .ok (.accepted [])

/-- A highlight tag of a request. A missing one is the default that held at the start. -/
def checkTag (name : FieldName) (absent : String) (configured : Json) (fields : Fields) :
    Checked String :=
  name.check [] fields (some absent) fun path v => Check.text path (tagOf configured v)

/-- The request that an object describes, under what held at the start and the settings of now. The
single identifier is drawn before the list. -/
def check (defaults : Settings.FormDefaults) (settings : Settings) (v : Json) (g : GuidSupply) :
    Except Breakage (Checked QueryRequest) × GuidSupply :=
  match v with
  | .obj fields =>
    let (id, g) := checkId g ((FieldName.only "id").find? fields)
    let (ids, g) := checkIds g ((FieldName.only "ids").find? fields)
    let outcome := do
      let pageSize ← checkPageSize defaults settings fields
      let orderBy ← checkOrderBy fields
      pure (QueryRequest.mk <$> entityNameField.check [] fields none checkEntityName
        <*> entityTypeField.check [] fields (some none) checkOptional
        <*> indexNamesField.check [] fields (some []) (checkList Check.text)
        <*> id
        <*> ids
        <*> pure (attributesOf (Fields.look fields "attributes"))
        <*> (FieldName.only "keywords").check [] fields (some none) checkOptional
        <*> (FieldName.only "conditions").check [] fields (some []) (checkList Condition.check)
        <*> categoryIdsField.check [] fields (some []) (checkList Check.text)
        <*> pure (Scope.read? (Fields.look fields "scope"))
        <*> stateCodeField.check [] fields (some 0) Check.whole
        <*> pageSize
        <*> orderBy
        <*> (FieldName.only "aggregate").check [] fields (some none) checkOptional
        <*> checkTag preTagField defaults.preTag settings.preTag fields
        <*> checkTag postTagField defaults.postTag settings.postTag fields)
    (outcome, g)
  | _ => (.ok (.flaw [] v (.notForm "QueryRequest")), g)

/-- The request as an object. -/
def object (r : QueryRequest) : Json :=
  .obj [
    ("entity_name", .str r.entityName), ("entity_type", .ofText? r.entityType),
    ("index_names", .texts r.indexNames), ("id", .ofText? r.id),
    ("ids", (r.ids.map .texts).getD .null),
    ("attributes", (r.attributes.map .texts).getD .null),
    ("keywords", .ofText? r.keywords), ("conditions", .arr (r.conditions.map (·.object))),
    ("category_ids", .texts r.categoryIds), ("scope", .ofText? (r.scope.map (·.name))),
    ("state_code", .int r.stateCode), ("page_size", .int r.pageSize),
    ("order_by", .arr (r.orderBy.map (·.object))), ("aggregate", .ofText? r.aggregate),
    ("highlight_pre_tag", .str r.highlightPreTag),
    ("highlight_post_tag", .str r.highlightPostTag)]

end QueryRequest

end TenantSearch
