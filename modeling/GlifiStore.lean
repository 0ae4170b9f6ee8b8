import GlifiStore.Client.PipelineOutcomes
import GlifiStore.Core.ByteRateLimiter
import GlifiStore.Index.Publication
import GlifiStore.Paired.CombiningLane
import GlifiStore.Paired.Housekeeping
import GlifiStore.Paired.MergePacing
import GlifiStore.Paired.MutationDecisions
import GlifiStore.Paired.SlotPoolFifo
import GlifiStore.Paired.SyncLane
import GlifiStore.Persistence.BootstrapResume
import GlifiStore.Persistence.CompactionLayout
import GlifiStore.Persistence.GroupCommit
import GlifiStore.Persistence.MigrateSource
import GlifiStore.Persistence.PlannerExact
import GlifiStore.Persistence.RecoverySpec
import GlifiStore.Persistence.SegmentFilename
import GlifiStore.Segment.RecordCanonical
import GlifiStore.Server.ConnectionRuns
import GlifiStore.Server.QuotaRuns
import GlifiStore.Server.ResponseFraming
import GlifiStore.Store.Batch
import GlifiStore.Store.CloseDrain
