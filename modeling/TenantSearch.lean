import TenantSearch.Http.Gateway
import TenantSearch.Jobs.Schedule
import TenantSearch.Jobs.Worker
import TenantSearch.Json.Reader
import TenantSearch.Json.Writer
import TenantSearch.Lifecycle
import TenantSearch.World.Turns
import TenantSearch.Proofs.Narrowing
import TenantSearch.Proofs.ReadableIndices
import TenantSearch.Proofs.TenantFilters
import TenantSearch.Proofs.IndexedCopies
import TenantSearch.Proofs.RefilledIndices
import TenantSearch.Proofs.ReservedIndices
import TenantSearch.Proofs.ServedRecords
import TenantSearch.Proofs.Surroundings
import TenantSearch.Proofs.FailingCalls
import TenantSearch.Proofs.GuardedIndices
import TenantSearch.Proofs.FailingIndexing
import TenantSearch.Proofs.GuardedUpkeep
import TenantSearch.Proofs.InterruptedDeletions
import TenantSearch.Proofs.KnownIndices
import TenantSearch.Proofs.ListedOrder
import TenantSearch.Proofs.StampedRecords
import TenantSearch.Proofs.ScansAmidWrites
import TenantSearch.Proofs.RewrittenRows
import TenantSearch.Proofs.UndoneWrites
import TenantSearch.Proofs.PartialReindexing
import TenantSearch.Proofs.ScheduledReindexing
import TenantSearch.Proofs.IndexTraces
import TenantSearch.Proofs.LockedUpkeep
import TenantSearch.Proofs.GatheredWishes
import TenantSearch.Proofs.FinishedWishes
import TenantSearch.Proofs.IndexVisits
import TenantSearch.Proofs.Courses
import TenantSearch.Proofs.RevertedEdits
import TenantSearch.Proofs.LatePushes
import TenantSearch.Proofs.SlippedRecreations
import TenantSearch.Proofs.SharedDocuments
import TenantSearch.Proofs.LaterPrivileges
import TenantSearch.Proofs.SplitNames
import TenantSearch.Proofs.ToldFlaws
import TenantSearch.Proofs.AnsweredQueries
import TenantSearch.Proofs.SparedIndices
import TenantSearch.Proofs.PlacedCopies
import TenantSearch.Proofs.ShapedCopies
import TenantSearch.Proofs.FoldedNames
import TenantSearch.Proofs.NormalRequests
import TenantSearch.Proofs.JoinedRecords
import TenantSearch.Proofs.EnsuredTargets
import TenantSearch.Proofs.WildcardPatterns
import TenantSearch.Proofs.AtomicWrites
import TenantSearch.Proofs.RestoredDocuments
import TenantSearch.Proofs.RepeatedReindexing
import TenantSearch.Proofs.MergedTexts
import TenantSearch.Proofs.RefusedMoments
import TenantSearch.Proofs.DefinitionOrder
import TenantSearch.Proofs.MatchedConditions
import TenantSearch.Proofs.RestartedUpkeep
