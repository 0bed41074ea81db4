-- Records are fetched by identifier, stale ones page by page. A document that is written
-- is checked first, then saved, and then indexed.
import TenantSearch.Document.Indexing

namespace TenantSearch

namespace Store

/-- A call whose failures are about an entity, or about nothing in particular. -/
def call (c : DatabaseCall) (cause : Cause) (entityName : Json := .null) : Service c.Reply :=
  Service.call (.database c) (Outage.blame Outage.ofDatabase (.ofEntity cause entityName))

/-- The documents with these identifiers, as far as there are any, each with only the attributes
asked for. -/
def fetch (ids attributes : Json) : Service (List Json) := do
  if !ids.given then pure []
  else
    let rows ← call (.among ids) .recordRead
    Service.orBroken (rows.mapM fun r => project (.obj r.document) attributes)

/-! ## Stale records -/

/-- Which stale records to read, and how many at a time. -/
structure Scan where
  solutionId : Json
  cutoff : Timestamp
  entityName : Json := .null
  pageSize : Json := .int 100

/-- The limit that a page size sets: its whole part; null sets none. -/
def limitOf : Json → Except Breakage (Option Int)
  | .null => .ok none
  | size => some <$> size.wholePart

/-- Whether so many rows are fewer than a page size, which must be a number. -/
def isShort (rows : Nat) (pageSize : Json) : Except Breakage Bool :=
  match pageSize.number? with
  | some size => .ok ((Dyadic.ofInt rows).lt size)
  | none => .error .wrongOperand

/-- The page of a scan after an identifier. -/
def Scan.page (s : Scan) (after : String) : Service (List Record) := do
  let limit ← Service.orBroken (limitOf s.pageSize)
  call (.page ⟨s.solutionId, s.cutoff, s.entityName, after, limit⟩) .staleScan s.entityName

/-- Reads pages after an identifier and folds them, until one comes short. No more pages are read
than there is fuel for. -/
def Scan.foldFrom {σ : Type} (s : Scan) (visit : σ → List Fields → Service σ) :
    Nat → String → σ → Service σ
  | 0, _, state => pure state
  | fuel + 1, after, state => do
    let rows ← s.page after
    match rows.getLast? with
    | none => pure state
    | some last =>
      let state ← visit state (rows.map (·.document))
      if ← Service.orBroken (isShort rows.length s.pageSize) then pure state
      else s.foldFrom visit fuel last.id state

/-- Reads the pages of a scan and folds them. Every page but the last has rows of its own, so the
table has been read through after one page more than it has rows. -/
def Scan.fold {σ : Type} (s : Scan) (visit : σ → List Fields → Service σ) (start : σ) :
    Service σ := do
  let rows : Nat ← Service.ask .rowBound
  s.foldFrom visit (rows + 1) "" start

/-- All pages of a scan. -/
def Scan.pages (s : Scan) : Service (List (List Fields)) :=
  s.fold (fun pages page => pure (pages ++ [page])) []

/-- The cutoff that a value gives. -/
def cutoffOf (v : Json) : Service (Option Timestamp) := Service.orFail (Timestamp.ofValue v)

/-- All pages of stale records of a solution, perhaps of one entity. A scan needs a cutoff. -/
def scan (solutionId cutoff entityName pageSize : Json) : Service (List (List Fields)) := do
  match ← cutoffOf cutoff with
  | some cutoff => Scan.pages { solutionId, cutoff, entityName, pageSize }
  | none => throw (.broken .noCutoff)

/-- The solutions that have a stale record. -/
def staleSolutions (cutoff : Option Timestamp) : Service (List String) :=
  call (.staleSolutions cutoff) .staleListing

/-! ## Writing -/

/-- The time of the last push of a document that may be saved: it names itself, its entity and its
solution, and the time is one. -/
def stampOf (document : Fields) : Except Failure (Option Timestamp) :=
  if !(document.look "id").given then .error (.of .noId)
  else if !(document.look "entityName").given then .error (.of .noEntityName)
  else if !(document.look "solutionId").given then
    .error (.ofEntity .noSolution (document.look "entityName"))
  else Timestamp.ofValue (document.look reindexedField)

/-- Saves a document and indexes it; gives the document as saved. Between the lookup of its row and
the commit others may come in. -/
def write (document : Fields) : Service Fields := do
  let stamp ← Service.orFail (stampOf document)
  let id := document.look "id"
  let entityName := document.look "entityName"
  let found ← call (.lookUp id) (.recordWrite id) entityName
  let saved ← call (.commit found document stamp) (.recordWrite id) entityName
  Indexing.follow saved
  pure saved

end Store

end TenantSearch
