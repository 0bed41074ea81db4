-- A record is a document as it is stored: a few fields in columns of their own, the rest
-- in its body, and the time at which it was last pushed to search. This module goes from
-- documents to records and back.
import TenantSearch.Json.Unchecked
import TenantSearch.Time.Timestamp

namespace TenantSearch

/-- The field that carries the time of the last push to search. -/
def reindexedField : String := "searchReindexedOn"

/-- The document fields that have columns of their own. -/
def promotedFields : List String :=
  ["id", "entityName", "entityType", "solutionId", "organizationId", "ownedBy"]

namespace Timestamp

/-- The text with every `Z` spelled as an offset. -/
def withOffset (s : String) : String :=
  String.ofList (s.toList.flatMap fun c => if c = 'Z' then "+00:00".toList else [c])

/-- The moment in UTC that a text writes. A text that is no timestamp is refused; a moment that
leaves the calendar on its way to UTC is a breakage. -/
def ofText (s : String) : Except Failure Timestamp :=
  match readLocal? (withOffset s) with
  | none => .error (.of (.badTimestamp (.str s)))
  | some (t, none) => .ok t
  | some (t, some offset) =>
    match t.shift? (-offset) with
    | some t => .ok t
    | none => .error (.broken .outOfRange)

/-- The moment of a value. Null and the empty text are none. -/
def ofValue : Json → Except Failure (Option Timestamp)
  | .null => .ok none
  | .str s => if s.isEmpty then .ok none else some <$> ofText s
  | v => .error (.of (.badTimestamp v))

end Timestamp

/-- A row of the record table. -/
structure Record where
  id : String
  entityName : String
  entityType : Option String := none
  solutionId : String
  organizationId : Option String := none
  ownedBy : Option String := none
  body : Fields := []
  reindexedOn : Option Timestamp := none

namespace Record

/-- The columns as document fields. -/
def columns (r : Record) : Fields := [
  ("id", .str r.id), ("entityName", .str r.entityName), ("entityType", .ofText? r.entityType),
  ("solutionId", .str r.solutionId), ("organizationId", .ofText? r.organizationId),
  ("ownedBy", .ofText? r.ownedBy)]

/-- The stamp as a document field, when there is one. -/
def stampField : Option Timestamp → Fields
  | some t => [(reindexedField, .str t.isoUtc)]
  | none => []

/-- A document put together: a body under columns and a stamp. -/
def assemble (body columns : Fields) (stamp : Option Timestamp) : Fields :=
  (body.setAll columns).setAll (stampField stamp)

/-- The document of a row. -/
def document (r : Record) : Fields := assemble r.body r.columns r.reindexedOn

/-- The body of a document: everything without a column of its own. -/
def bodyOf (document : Fields) : Fields := document.without (reindexedField :: promotedFields)

/-- The text that a column stores for a value: none for null and for what is no number. A whole
number must fit into a machine word and a text must be writable; nothing can be stored for a list
or an object. -/
def columnText : Json → Except Outage (Option String)
  | .null => .ok none
  | .bool b => .ok (some (if b then "1" else "0"))
  | .int n =>
    if -Check.wordLimit ≤ n ∧ n < Check.wordLimit then .ok (some (toString n))
    else .error (.broken .outOfRange)
  | .float d => .ok d.columnText?
  | .str s => if hasSurrogate s then .error (.broken .unwritableText) else .ok (some s)
  | _ => .error .unstorable

/-- A column that may not be null. -/
def needed : Option String → Except Outage String
  | some s => .ok s
  | none => .error .conflict

/-- The row of a document with its stamp read, under an identifier. The columns take their values
one after the other before any of them is found to be null. -/
def ofDocument (id : Json) (document : Fields) (stamp : Option Timestamp) :
    Except Outage Record := do
  let id ← columnText id
  let entityName ← columnText (document.look "entityName")
  let entityType ← columnText (document.look "entityType")
  let solutionId ← columnText (document.look "solutionId")
  let organizationId ← columnText (document.look "organizationId")
  let ownedBy ← columnText (document.look "ownedBy")
  pure {
    id := ← needed id, entityName := ← needed entityName, entityType,
    solutionId := ← needed solutionId, organizationId, ownedBy, body := bodyOf document,
    reindexedOn := stamp }

/-- A row after a document was written over it: `found` is the row as it was looked up for the
document, and `new` the row that the document gives. Only what is not alike to what was looked up is
written. A column for which the document has an alike value keeps what it has by now, and so does
the body as a whole. -/
def revised (row found new : Record) (document : Fields) : Record where
  id := row.id
  entityName :=
    if (document.look "entityName").Alike (.str found.entityName) then row.entityName
    else new.entityName
  entityType :=
    if (document.look "entityType").Alike (.ofText? found.entityType) then row.entityType
    else new.entityType
  solutionId :=
    if (document.look "solutionId").Alike (.str found.solutionId) then row.solutionId
    else new.solutionId
  organizationId :=
    if (document.look "organizationId").Alike (.ofText? found.organizationId) then
      row.organizationId
    else new.organizationId
  ownedBy :=
    if (document.look "ownedBy").Alike (.ofText? found.ownedBy) then row.ownedBy else new.ownedBy
  body := if (Json.obj new.body).Alike (.obj found.body) then row.body else new.body
  reindexedOn := if new.reindexedOn = found.reindexedOn then row.reindexedOn else new.reindexedOn

/-- The document that a write answers with: its own values in place of what the row makes of
them. -/
def savedDocument (document : Fields) (stamp : Option Timestamp) : Fields :=
  assemble (bodyOf document) (promotedFields.map fun name => (name, document.look name)) stamp

/-- Whether a row was never pushed to search, or last before the cutoff. -/
def isStale (r : Record) (cutoff : Timestamp) : Bool :=
  match r.reindexedOn with
  | none => true
  | some t => t.lt cutoff

/-- A short description of a row. -/
def label (id entityName entityType : Json) : String :=
  "<Record(id=" ++ id.text ++ ", entity=" ++ entityName.text ++ "_" ++ entityType.text ++ ")>"

end Record

/-- A name of a field that attributes ask for; lists and objects name nothing, and other values are
the names of no field. -/
def keptName (name : Json) : Except Breakage (Option String) :=
  match name with
  | .str s => .ok (some s)
  | name => if name.key?.isSome then .ok none else .error .wrongOperand

/-- The names of the fields that attributes keep, the identifier first. -/
def keptNames (attributes : Json) : Except Breakage (List String) := do
  let names ← (← attributes.parts).mapM keptName
  pure ("id" :: names.filterMap id)

/-- The document with only the fields that attributes ask for and its identifier. Attributes that
are not given keep everything. -/
def project (document attributes : Json) : Except Breakage Json :=
  if !attributes.given then .ok document
  else do
    let names ← keptNames attributes
    match document with
    | .obj fields => .ok (.obj (Fields.only fields names))
    | _ => .error .notAnObject

/-- The bucket that a document is counted in: its entity, with the subtype where it has one. -/
def bucketOf (document : Fields) : String :=
  let entityName := (document.look "entityName").text
  let entityType := document.look "entityType"
  if entityType.given then entityName ++ "_" ++ entityType.text else entityName

end TenantSearch
