-- The backfill of one entity after its index was recreated, and the scheduled reindexing
-- of every solution that has stale records. A solution that fails does not keep the
-- others from their turn.
import TenantSearch.Document.Reindex

namespace TenantSearch

namespace Worker

/-- Reindexes the records of an entity that were last pushed before a cutoff. -/
def backfill (solutionId entityName cutoff : Json) : Service BucketCounts := do
  let here ← Service.circumstances
  let cutoff ← Store.cutoffOf cutoff
  Reindex.stale solutionId entityName here.settings.reindexPage cutoff

/-- The number of records reindexed in each solution, under a common cutoff. Solutions that fail
are left out. -/
def reindexEach (pageSize : Json) (cutoff : Timestamp) :
    List String → Service (List (String × Nat))
  | [] => pure []
  | solution :: rest => do
    let outcome ← Service.attempt (Reindex.stale (.str solution) .null pageSize (some cutoff))
    let others ← reindexEach pageSize cutoff rest
    pure (match outcome with
      | .ok counts => (solution, counts.total) :: others
      | .error _ => others)

/-- The solutions with stale records; none when they cannot be listed. -/
def dueSolutions (cutoff : Timestamp) : Service (List String) := do
  match ← Service.attempt (Store.staleSolutions (some cutoff)) with
  | .ok solutions => pure solutions
  | .error _ => pure []

/-- Reindexes every solution that has stale records. -/
def scheduled : Service (List (String × Nat)) := do
  let cutoff ← Reindex.usualCutoff
  let here ← Service.circumstances
  reindexEach here.settings.reindexPage cutoff (← dueSolutions cutoff)

end Worker

end TenantSearch
