-- What an index is created with: the analysis settings and the typed fields. The core
-- fields are the same in every index, and an entity's own fields never replace them.
import TenantSearch.Validation.Form

namespace TenantSearch

/-- The analyzer of the two merged text fields. -/
def textAnalyzer : String := "platform_analyzer_text"

/-- The analysis settings of every index. -/
def indexSettings : Fields := [
  ("analysis", .obj [
    ("analyzer", .obj [
      (textAnalyzer, .obj [
        ("tokenizer", .str "standard"),
        ("filter", .texts ["lowercase", "platform_snowball"])])]),
    ("filter", .obj [
      ("platform_snowball", .obj [("type", .str "snowball"), ("language", .str "English")])])])]

/-- The fields of every index and their types, in groups of one type. -/
def coreFieldTypes : List (String × String) := [
  ("id", "keyword"), ("entityName", "keyword"), ("entityType", "keyword"),
  ("solutionId", "keyword"), ("organizationId", "keyword"),
  ("ownerId", "keyword"), ("ownerEntityName", "keyword"), ("ownerEntityType", "keyword"),
  ("createdBy", "keyword"), ("modifiedBy", "keyword"), ("ownedBy", "keyword"),
  ("publishedBy", "keyword"),
  ("domain", "keyword"), ("currency", "keyword"), ("country", "keyword"), ("city", "keyword"),
  ("language", "keyword"), ("type", "keyword"),
  ("createdOn", "date"), ("modifiedOn", "date"), ("ownedOn", "date"), ("publishedOn", "date"),
  ("tags", "text"), ("tagsLowerCase", "text"), ("categoryIds", "keyword"),
  ("isGlobal", "boolean"), ("isPublished", "boolean"), ("isSubmitted", "boolean"),
  ("isApproved", "boolean"),
  ("stateCode", "keyword"), ("statusCode", "keyword"),
  ("geoLocation", "geo_point"), ("geoShape", "geo_shape"),
  ("prevPrice", "float"), ("currentPrice", "float"),
  ("ipAddress", "ip")]

/-- The two text fields that keyword search reads. -/
def searchTextFields : List String := ["searchDisplay", "searchContent"]

/-- The core fields with their mappings. -/
def coreFields : Fields :=
  coreFieldTypes.map (fun f => (f.1, .obj [("type", .str f.2)])) ++
    searchTextFields.map fun name =>
      (name, .obj [("type", .str "text"), ("analyzer", .str textAnalyzer)])

/-- The names of the core fields. -/
def coreFieldNames : List String := coreFields.map (·.1)

/-- The contract of one index. -/
structure IndexDescriptor where
  indexName : String
  properties : Fields

namespace IndexDescriptor

/-- The core fields on top of an entity's own. -/
def build (indexName : String) (extra : Fields) : IndexDescriptor :=
  ⟨indexName, extra.setAll coreFields⟩

def mappings (d : IndexDescriptor) : Json := .obj [("properties", .obj d.properties)]

/-- The fields beyond the core. -/
def extraFields (d : IndexDescriptor) : Fields := d.properties.without coreFieldNames

/-- The type of a field: none when the field or its type is missing. -/
def fieldType (d : IndexDescriptor) (name : String) : Json :=
  match d.properties.get? name with
  | some (.obj spec) => Fields.look spec "type"
  | _ => .null

/-- The descriptor, when every field has an object for its mapping. -/
def checked (d : IndexDescriptor) : Checked IndexDescriptor :=
  (fun _ => d) <$> Checked.all (d.properties.map fun f =>
    match f.2 with
    | .obj _ => .accepted ()
    | v => .flaw [.field "properties", .field f.1] v .notObject)

end IndexDescriptor

end TenantSearch
