-- What the bodies of the three writing routes must look like. Every error stands under
-- `body`.
import TenantSearch.Http.Message
import TenantSearch.Query.Compiled
import TenantSearch.Settings

namespace TenantSearch

namespace Http

/-- The place of the body. -/
def bodyPath : List PathStep := [.field "body"]

/-- A form read from a body, which must be there and be an object. -/
def Body.form {α : Type} (check : Fields → Checked α) : Body → Checked α
  | .value (.obj fields) => check fields
  | .value v => .flaw bodyPath v .notBody
  | _ => .flaw bodyPath .null .missing

/-- What the query route takes. -/
structure QueryForm where
  query : Option Fields
  raw : Bool
  attributes : Option String

def QueryForm.check (fields : Fields) : Checked QueryForm :=
  QueryForm.mk
    <$> (FieldName.only "query").check bodyPath fields (some none)
      (EngineQuery.checkNullable EngineQuery.checkObject)
    <*> FieldName.check ⟨"includeRawRecord", "include_raw_record"⟩ bodyPath fields (some true)
      Check.boolean
    <*> (FieldName.only "attributes").check bodyPath fields (some none) Check.optionalText

/-- The names of a comma-separated list; null when there are none, or all are meant. -/
def splitAttributes (text : Option String) : Json :=
  let names := commaNames (text.getD "")
  if names.isEmpty || names == ["*"] then .null else .texts names

/-- What the reindex route takes. -/
structure ReindexForm where
  entityName : Option String
  pageSize : Int

/-- A page of the reindex route has between one and a thousand records; the usual size is the one
that held at the start. -/
def ReindexForm.check (defaults : Settings.FormDefaults) (fields : Fields) : Checked ReindexForm :=
  ReindexForm.mk
    <$> FieldName.check ⟨"entityName", "entity_name"⟩ bodyPath fields (some none)
      Check.optionalText
    <*> FieldName.check ⟨"pageSize", "page_size"⟩ bodyPath fields (some defaults.reindexPage)
      (Check.wholeBetween 1 1000)

/-- What the ensure route takes. -/
structure EnsureForm where
  entityName : String
  entityType : Option String
  force : Bool

def EnsureForm.check (fields : Fields) : Checked EnsureForm :=
  EnsureForm.mk
    <$> FieldName.check ⟨"entityName", "entity_name"⟩ bodyPath fields none Check.someText
    <*> FieldName.check ⟨"entityType", "entity_type"⟩ bodyPath fields (some none)
      Check.optionalText
    <*> FieldName.check ⟨"forceCreate", "force_create"⟩ bodyPath fields (some false) Check.boolean

end Http

end TenantSearch
