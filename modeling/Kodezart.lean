import Kodezart.BaseResolution
import Kodezart.Topology
import Kodezart.Lapse
import Kodezart.RalphLoop
import Kodezart.CompletedActs
import Kodezart.AuditCoverage
import Kodezart.SubtreeReadings
import Kodezart.TallyHistory
import Kodezart.AlarmTransitions
import Kodezart.GateMarks
import Kodezart.JobQueueWorkers
import Kodezart.AdmissionMemo
import Kodezart.ReferenceCoverage
import Kodezart.WatchedFires
import Kodezart.DispatchTurns
import Kodezart.ScopeCycle
import Kodezart.GateRearm
import Kodezart.ClosureWalks
import Kodezart.IterationGrading
import Kodezart.StickyClasses
import Kodezart.TallySettling
import Kodezart.JobAttach
import Kodezart.CIWatch
import Kodezart.LandableCommit
import Kodezart.OpenDelivery
import Kodezart.CheckChain
import Kodezart.AmendmentExact
import Kodezart.AlarmListing
import Kodezart.PromptRendering
import Kodezart.WorktreeIdentity
import Kodezart.LeaseRuns
import Kodezart.AdoptionCensus
import Kodezart.PinnedRulings
import Kodezart.LaneRecordReads
import Kodezart.LaneRecordGrowth
import Kodezart.ScopeSettled
import Kodezart.BranchMerger
import Kodezart.ChangePersister
import Kodezart.MergerRuns
import Kodezart.PersistRuns
import Kodezart.BackupCleanup
