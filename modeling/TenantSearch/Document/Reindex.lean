-- A stale record gets its merged texts anew and a fresh stamp and is written back, which
-- indexes it. A record that fails is passed over and stays stale.
import TenantSearch.Document.Store
import TenantSearch.Time.Duration

namespace TenantSearch

/-- How many records were reindexed, by bucket, in the order in which the buckets came up. -/
abbrev BucketCounts := List (String × Nat)

namespace BucketCounts

/-- One record more in a bucket. -/
def count (bucket : String) : BucketCounts → BucketCounts
  | [] => [(bucket, 1)]
  | (name, n) :: rest =>
    if name == bucket then (name, n + 1) :: rest else (name, n) :: count bucket rest

/-- The records of all buckets. -/
def total (counts : BucketCounts) : Nat :=
  counts.foldl (fun sum bucket => sum + bucket.2) 0

def object (counts : BucketCounts) : Json := .obj (counts.map fun c => (c.1, .int c.2))

end BucketCounts

namespace Reindex

/-- The document with these merged texts, a modifier and a fresh stamp. -/
def stamped (display content : String) (now : Timestamp) (document : Fields) : Fields :=
  let texts := (document.set "searchDisplay" (.str display)).set "searchContent" (.str content)
  let modified := if (texts.look "modifiedBy").given then texts
    else texts.set "modifiedBy" (texts.look "ownedBy")
  modified.set reindexedField (.str now.isoUtc)

/-- The document with its merged texts anew, a modifier and a fresh stamp. -/
def refreshed (merged : MergedText) (now : Timestamp) (document : Fields) :
    Except Breakage Fields := do
  let display ← merged.displayText document
  let content ← merged.contentText document
  pure (stamped display content now document)

/-- Reindexes one record. -/
def record (document : Fields) : Service Fields := do
  let schema ← lookUpSchema (document.look "solutionId") (document.look "entityName")
    (document.look "entityType")
  let here ← Service.circumstances
  Store.write (← Service.orBroken (refreshed schema.merged here.now document))

/-- Whether a record is of a reserved entity. -/
def isReserved (document : Fields) : Bool :=
  match document.look "entityName" with
  | .str s => reservedEntities.contains s
  | _ => false

/-- Reindexes one record and counts it, unless it is reserved or fails. -/
def visit (counts : BucketCounts) (document : Fields) : Service BucketCounts := do
  if isReserved document then pure counts
  else
    match ← Service.attempt (record document) with
    | .ok _ => pure (counts.count (bucketOf document))
    | .error _ => pure counts

/-- Reindexes the records of a page, one after the other. -/
def visitAll (counts : BucketCounts) : List Fields → Service BucketCounts
  | [] => pure counts
  | document :: rest => do
    let counts ← visit counts document
    visitAll counts rest

/-- Reindexes every stale record of a scan; gives the counts. -/
def run (s : Store.Scan) : Service BucketCounts := s.fold visitAll []

/-- The cutoff unless another is given: so many minutes ago. -/
def usualCutoff : Service Timestamp := do
  let here ← Service.circumstances
  let age ← Service.orBroken
    (Duration.ofNumber Duration.microsPerMinute here.settings.cutoffMinutes)
  match here.now.shift? (-age) with
  | some t => pure t
  | none => throw (.broken .outOfRange)

/-- Reindexes the stale records of a solution, perhaps of one entity. -/
def stale (solutionId entityName pageSize : Json) (cutoff : Option Timestamp) :
    Service BucketCounts := do
  let cutoff ← match cutoff with
    | some t => pure t
    | none => usualCutoff
  run { solutionId, cutoff, entityName, pageSize }

end Reindex

end TenantSearch
