import DecisionRuntime.Exec
import DecisionRuntime.Dict
import DecisionRuntime.Value
import DecisionRuntime.Platform
import DecisionRuntime.Models
import DecisionRuntime.ConditionEvaluator
import DecisionRuntime.BoundaryEngine
import DecisionRuntime.HumanGateManager
import DecisionRuntime.DedupLog
import DecisionRuntime.LedgerClient
import DecisionRuntime.RuntimeLedgerAdapter
import DecisionRuntime.History
import DecisionRuntime.HumanGateLifecycle
import DecisionRuntime.Stores
import DecisionRuntime.PureEvaluate
import DecisionRuntime.LedgerCommit
import DecisionRuntime.LedgerProjector
import DecisionRuntime.FlowValidator
import DecisionRuntime.HashChain
import DecisionRuntime.PostgresLedgerClient
import DecisionRuntime.Engine
import DecisionRuntime.EngineBlocks
import DecisionRuntime.CommitGate
import DecisionRuntime.ExecutionStream
import DecisionRuntime.GateCommitment
import DecisionRuntime.FlowRegistry
import DecisionRuntime.Routes
import DecisionRuntime.Memo
import DecisionRuntime.EngineAnswers
import DecisionRuntime.IdempotentResponses
import DecisionRuntime.ExecutionRetries
import DecisionRuntime.ConditionProgress
import DecisionRuntime.ValidatedFlows
import DecisionRuntime.RoleEnforcement
import DecisionRuntime.PartialCommit
import DecisionRuntime.RememberedResults
import DecisionRuntime.RestartRecovery
import DecisionRuntime.ResultInvariants
import DecisionRuntime.ActionPayload
import DecisionRuntime.StatusFields
import DecisionRuntime.MatchedDecisions
import DecisionRuntime.CanonicalJson
import DecisionRuntime.ChainHead
import DecisionRuntime.LedgerBackends
import DecisionRuntime.ConcurrentDuplicates
import DecisionRuntime.ModeAgreement
import DecisionRuntime.ParallelMode
import DecisionRuntime.RuntimeRoutes
import DecisionRuntime.StoredTraces
import DecisionRuntime.ResolvedViews
import DecisionRuntime.ResolutionEvents
import DecisionRuntime.ApprovalFrame
import DecisionRuntime.Replay
import DecisionRuntime.FirstGreatest
import DecisionRuntime.PlainSemantics
import DecisionRuntime.SafeLanguage
import DecisionRuntime.BoundaryDominance
import DecisionRuntime.DecisionSelection
import DecisionRuntime.DeclaredEffects
import DecisionRuntime.DisabledFlows
import DecisionRuntime.MaximalRuns
import DecisionRuntime.LiteralNormalisation
import DecisionRuntime.InteractionFlow
import DecisionRuntime.MentionedPaths
import DecisionRuntime.CursorLog
import DecisionRuntime.MissingData
import DecisionRuntime.EventBus
import DecisionRuntime.OffsetPaging
import DecisionRuntime.StableOrder
import DecisionRuntime.TraceListing
import DecisionRuntime.ValueEquality
import DecisionRuntime.TraceDiffs
import DecisionRuntime.FlowGraph
import DecisionRuntime.ContractChecks
import DecisionRuntime.SignificantDigits
import DecisionRuntime.Metrics
import DecisionRuntime.Exposition
import DecisionRuntime.Transcript
import DecisionRuntime.CommitStatus
import DecisionRuntime.GateTransitions
import DecisionRuntime.MeteredService
import DecisionRuntime.MetricsAccounting
import DecisionRuntime.MetricsLog
import DecisionRuntime.Linearization
import DecisionRuntime.ConcurrentAppends
import DecisionRuntime.AuditTrail
import DecisionRuntime.Explanation
import DecisionRuntime.WellFormedFlows
import DecisionRuntime.LoadedFlows
import DecisionRuntime.DurableViews
import DecisionRuntime.ServedViews
import DecisionRuntime.Deliveries
import DecisionRuntime.Statistics
