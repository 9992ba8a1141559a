import ForgeKit.Lib.Machine
import ForgeKit.Lib.Table
import ForgeKit.Lib.SlidingWindow
import ForgeKit.Lib.Json
import ForgeKit.Lib.Sha1
import ForgeKit.Runtime.CircuitBreaker
import ForgeKit.JobQueue.StateMachine
import ForgeKit.JobQueue.Store
import ForgeKit.JobQueue.StoreSpec
import ForgeKit.JobQueue.Fleet
import ForgeKit.JobQueue.Fencing
import ForgeKit.JobQueue.RetryBudget
import ForgeKit.JobQueue.DependencyGate
import ForgeKit.JobQueue.CodingExecutor
import ForgeKit.JobQueue.RawWrites
import ForgeKit.JobQueue.System
import ForgeKit.JobQueue.LeaseInvariant
import ForgeKit.JobQueue.StatePaths
import ForgeKit.JobQueue.CodingDedup
import ForgeKit.JobQueue.RecoverySweep
import ForgeKit.JobQueue.FailureCause
import ForgeKit.CodingExecute.Dispatcher
import ForgeKit.CodingExecute.CiStatus
import ForgeKit.CodingExecute.CiRetry
import ForgeKit.CodingExecute.CodingLoop
import ForgeKit.CodingExecute.AttemptsInFlight
import ForgeKit.CodingExecute.FailureBudget
import ForgeKit.PrMerge.Gate
import ForgeKit.PrMerge.Continuation
import ForgeKit.PrMerge.ContinuationWorker
import ForgeKit.PrMerge.CardCycle
import ForgeKit.PrMerge.SliceDispatch
import ForgeKit.Approval.ObsidianWriter
import ForgeKit.Approval.Reply
import ForgeKit.Approval.CardWrites
import ForgeKit.Goals.Models
import ForgeKit.Goals.Planning
import ForgeKit.Goals.Governance
import ForgeKit.Goals.Packets
import ForgeKit.Goals.ExecuteBridge
import ForgeKit.Goals.SchedulerTick
import ForgeKit.Goals.ExecTick
import ForgeKit.Goals.ContinuationTick
import ForgeKit.Goals.GoalLoop
import ForgeKit.Goals.PlanCompletion
import ForgeKit.Goals.DesignGate
import ForgeKit.Goals.AttemptedOnce
import ForgeKit.Goals.ApprovalSplit
import ForgeKit.Goals.FakeGreen
import ForgeKit.Goals.EvidenceRace
import ForgeKit.Autopilot.BoundedMutator
import ForgeKit.Autopilot.Confinement
import ForgeKit.Autopilot.HonestWrite
import ForgeKit.Autopilot.Chain
import ForgeKit.Autopilot.Arbiter
import ForgeKit.Goals.GitApply
import ForgeKit.DecisionLane.GovernanceLog
import ForgeKit.DecisionLane.Enforcement
import ForgeKit.Autopilot.Orchestrator
import ForgeKit.DecisionLane.LaneRecords
import ForgeKit.Lib.Spans
import ForgeKit.DayPlan.FocusBlocks
import ForgeKit.Lib.JsonSorted
import ForgeKit.Lib.JsonRead
import ForgeKit.Lib.IsoTime
import ForgeKit.DayPlan.SourceItems
import ForgeKit.DayPlan.Records
import ForgeKit.DayPlan.Envelope
import ForgeKit.Storage.LocalCache
import ForgeKit.DayPlan.Snapshot
import ForgeKit.Calendar.ItemStates
import ForgeKit.Calendar.NaverItems
import ForgeKit.Calendar.NewestObservation
import ForgeKit.Provider.Specs
import ForgeKit.Provider.Routing
import ForgeKit.Provider.SubmitService
import ForgeKit.Provider.RoutingAgreement
import ForgeKit.Lib.LastEntries
import ForgeKit.Runtime.FailureEscalation
import ForgeKit.Approval.OperatorAction
import ForgeKit.Approval.WorkOrder
import ForgeKit.Approval.PrMergeReply
import ForgeKit.Approval.ReplyRouter
import ForgeKit.Approval.AddressedCard
import ForgeKit.Approval.OperatorCapture
import ForgeKit.CodingExecute.BranchGuards
import ForgeKit.Approval.IssuePerCard
import ForgeKit.CodingExecute.ExecutorPipeline
import ForgeKit.CodingExecute.SafePush
import ForgeKit.CodingExecute.SessionMarkers
import ForgeKit.Learning.EffectiveMistakes
import ForgeKit.Lib.ContentIndex
import ForgeKit.Lib.ScanWindows
import ForgeKit.Memory.Documents
import ForgeKit.Memory.Indexer
import ForgeKit.Runtime.Supervisor
import ForgeKit.Schedule.Briefings
import ForgeKit.Approval.ApprovalProducer
import ForgeKit.Approval.ApprovingWord
import ForgeKit.Approval.Reenqueue
import ForgeKit.GitSafety.GitCommand
import ForgeKit.GitSafety.SafeGit
import ForgeKit.GithubWorkos.GithubWriter
import ForgeKit.Goals.ExecFairness
import ForgeKit.JobQueue.AutonomyLock
import ForgeKit.JobQueue.CiStatus
import ForgeKit.JobQueue.FollowupMarker
import ForgeKit.JobQueue.Heartbeat
import ForgeKit.JobQueue.SweepComplete
import ForgeKit.PrMerge.ProposalExtra
import ForgeKit.Titles.HumanTitles
import ForgeKit.Digest.Cycle
import ForgeKit.Digest.PostsOnce
import ForgeKit.Harness.Cleanup
import ForgeKit.Autopilot.NotesKept
import ForgeKit.Autopilot.SourceFormat
import ForgeKit.DayPlan.FreeWindows
import ForgeKit.DecisionLane.CommitTrailers
import ForgeKit.DecisionLane.RunLane
import ForgeKit.Goals.ContinuationFairness
import ForgeKit.Goals.DecompositionPartition
import ForgeKit.Goals.GoalFiles
import ForgeKit.Goals.GoalStoreMap
import ForgeKit.Goals.ProposalRoundTrip
import ForgeKit.Goals.ReplanBound
import ForgeKit.DayPlan.PlanOrder
import ForgeKit.Calendar.DateRange
import ForgeKit.Storage.TaskHistory
import ForgeKit.Provider.ProviderBudget
import ForgeKit.CodingExecute.ReadyJob
import ForgeKit.Approval.WorkOrderRow
import ForgeKit.Approval.WorkApproval
import ForgeKit.Titles.CommitMessage
import ForgeKit.Safety.ToolCallGate
import ForgeKit.Release.AutoMerge
import ForgeKit.GithubWorkos.MinimalContract
import ForgeKit.Discord.MessageChunks
import ForgeKit.Research.CollectorLoop
import ForgeKit.Harness.DecisionCompaction
import ForgeKit.Discord.DueCheckpoints
import ForgeKit.CodingExecute.GreenfieldBootstrap
import ForgeKit.Research.QueryCanonicalizer
import ForgeKit.Workflow.SessionHistory
