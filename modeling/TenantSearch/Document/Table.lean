-- The record table: rows in the order of their identifiers, one for each. Stale rows are
-- read page by page: each page starts after the last identifier of the page before, so
-- rows that are rewritten between two pages do not move the rows still to come. A row is
-- written in two steps: it is looked up, and what a document changes of it is committed.
import TenantSearch.Document.Record

namespace TenantSearch

/-- The rows of the record table, ordered by identifier. -/
abbrev RecordTable := List Record

/-- One page of stale rows: of a solution, perhaps of one entity, with identifiers after a given
one. Without a limit, or with a negative one, the page has all of them. -/
structure StalePage where
  solutionId : Json
  cutoff : Timestamp
  entityName : Json
  after : String
  limit : Option Int

namespace RecordTable

def find? (table : RecordTable) (id : String) : Option Record := List.find? (·.id == id) table

/-- The table with a row put in place of the one with its identifier, or where it belongs. -/
def put (row : Record) : RecordTable → RecordTable
  | [] => [row]
  | r :: rest =>
    if row.id < r.id then row :: r :: rest
    else if row.id == r.id then row :: rest
    else r :: put row rest

/-- The identifiers that rows are asked for by: the items of a list or the names of an object. -/
def identifiers : Json → Except Outage (List Json)
  | .arr (.arr _ :: _) => .error .unstorable
  | .arr ids => .ok ids
  | .obj fields => .ok (fields.map fun f => .str f.1)
  | _ => .error .unstorable

/-- The rows with these identifiers. -/
def among (table : RecordTable) (ids : Json) : Except Outage (List Record) := do
  let ids ← (← identifiers ids).mapM Record.columnText
  pure (table.filter fun r => ids.contains (some r.id))

/-- The stale rows of a page's solution and entity, from anywhere in the table. -/
def matching (solutionId : Option String) (entityName : Option (Option String))
    (cutoff : Timestamp) (table : RecordTable) : List Record :=
  table.filter fun r =>
    some r.solutionId == solutionId && r.isStale cutoff &&
      (match entityName with
        | some name => some r.entityName == name
        | none => true)

/-- The first rows, as many as a limit allows. -/
def limited (limit : Option Int) (rows : List Record) : List Record :=
  match limit with
  | some n => if n < 0 then rows else rows.take n.toNat
  | none => rows

/-- The rows of a page. Values are taken in order: solution, entity, limit. -/
def page (table : RecordTable) (p : StalePage) : Except Outage (List Record) := do
  let solutionId ← Record.columnText p.solutionId
  let entityName ←
    if p.entityName.given then some <$> Record.columnText p.entityName else pure none
  if let some n := p.limit then let _ ← Record.columnText (.int n)
  pure (limited p.limit ((table.matching solutionId entityName p.cutoff).filter (p.after < ·.id)))

/-- A text put where it belongs in an ascending list, once. -/
def insertText (s : String) : List String → List String
  | [] => [s]
  | t :: rest => if s < t then s :: t :: rest else if s == t then t :: rest else t :: insertText s rest

/-- The solutions with a stale row, ascending. -/
def staleSolutions (table : RecordTable) (cutoff : Timestamp) : List String :=
  ((table.filter (·.isStale cutoff)).map (·.solutionId)).foldr insertText []

/-! ## Saving -/

/-- The value that a row is looked up by: an identifier itself, or the only part of a list or of an
object with an identifier. -/
def soughtId : Json → Except Outage Json
  | .arr [id] => .ok id
  | .obj [("id", id)] => .ok id
  | .arr _ | .obj _ => .error .unstorable
  | id => .ok id

/-- Whether an identifier can be that of a new row. -/
def canBeNew : Json → Bool
  | .arr _ | .obj _ => false
  | _ => true

/-- The row that a document is to be written over, if there is one. A list or an object may name a
row that is there, but no new one. -/
def rowOf (table : RecordTable) (id : Json) : Except Outage (Option Record) := do
  let sought ← soughtId id
  if !canBeNew sought then throw (.broken .wrongOperand)
  let found := (← Record.columnText sought).bind table.find?
  if found.isNone && !canBeNew id then throw (.broken .wrongOperand)
  pure found

/-- A document written into the table over the row that was found for it, or as a new one where
none was found; and the document as it then stands. An identifier that had a row keeps the row's
text. A row that came or went since it was looked for is a conflict. -/
def commit (table : RecordTable) (found : Option Record) (document : Fields)
    (stamp : Option Timestamp) : Except Outage (Fields × RecordTable) := do
  let saved := Record.savedDocument document stamp
  match found with
  | some r =>
    let new ← Record.ofDocument (.str r.id) document stamp
    match table.find? r.id with
    | some row => pure (saved.set "id" (.str r.id), table.put (row.revised r new document))
    | none => throw .conflict
  | none =>
    let new ← Record.ofDocument (document.look "id") document stamp
    if (table.find? new.id).isSome then throw .conflict
    pure (saved, table.put new)

end RecordTable

end TenantSearch
