import Servo.Runtime.UpstreamCounter
import Servo.Runtime.FailurePropagation
import Servo.Runtime.UpstreamGate
import Servo.Runtime.JobCompletion
import Servo.Runtime.UpstreamJoin
import Servo.Runtime.ParentWakeup
import Servo.Runtime.ProgressCounters
import Servo.Runtime.PauseResume
import Servo.Storage.StateMachine
import Servo.Runtime.UpstreamReadiness
import Servo.Runtime.ChildOrder
import Servo.Runtime.Cancellation
import Servo.Runtime.ActiveOverlap
import Servo.Runtime.JobReturns
import Servo.Storage.OptimisticLock
import Servo.Runtime.Orchestrator
import Servo.Runtime.ExecutionLifecycle
import Servo.Worker.WorkflowExecutor
import Servo.Worker.TaskTransport
import Servo.CloudGcp.SecretManager
import Servo.Storage.IdempotencyKeys
import Servo.Storage.TenantIsolation
import Servo.Framework.Procedures
import Servo.Cli.Redeploy
import Servo.Cli.DeployedOrder
import Servo.Cli.ScheduleRecords
import Servo.Core.ExecutionOrder
import Servo.Storage.HalfOpenProbes
import Servo.Framework.Projection
import Servo.Storage.BreakerCounts
import Servo.CloudGcp.CloudTasks
import Servo.Worker.BlockingDecisions
import Servo.Runtime.DiscoveryOrder
import Servo.Lineage.Traversal
import Servo.Core.RegistryIndexes
import Servo.Worker.CheckWire
import Servo.Runtime.RetryTermination
import Servo.Runtime.PartitionRelease
import Servo.Runtime.RangeChains
import Servo.Python.KeyFormats
import Servo.Python.VerdictAgreement
import Servo.Python.CheckDefinitions
import Servo.Core.BoundedCalendar
import Servo.Core.MappedValidity
import Servo.Core.BackfillRange
import Servo.Cli.KeyNormalisation
import Servo.Cli.DateRange
import Servo.Worker.CodeInjection
import Servo.Lineage.AssetListing
import Servo.Framework.SearchTree
import Servo.Lineage.PathQuery
import Servo.Storage.LineageQuery
import Servo.Cli.LineageCommand
import Servo.Cli.DefinitionCycles
import Servo.Worker.ExecutionOutcome
import Servo.Storage.BreakerInvariant
import Servo.Runtime.RetryLoop
import Servo.Runtime.ChildOutput
import Servo.Framework.Delimited
import Servo.Framework.Repeats
import Servo.Core.JsonSeparators
import Servo.Worker.RowKeys
import Servo.Worker.AssetRows
import Servo.Worker.UniqueTuples
import Servo.Worker.ReferenceColumns
import Servo.Worker.FailureCounts
import Servo.Worker.NullRules
import Servo.Runtime.LocalOutcome
import Servo.Framework.Grouping
import Servo.Python.CheckRegistry
import Servo.Python.DeployChecks
import Servo.Framework.Pattern
import Servo.Worker.PiiFilter
import Servo.Worker.PiiPatterns
import Servo.Worker.PiiRedaction
import Servo.Python.CheckRuns
import Servo.Python.Numerals
import Servo.Python.CronSchedule
import Servo.Python.Strptime
import Servo.Python.KeyValidation
import Servo.Framework.OrderedMap
import Servo.Framework.JsonTree
import Servo.Python.JsonDumps
import Servo.Python.CartesianProduct
import Servo.Python.PartitionDefinitions
import Servo.Python.DefinitionRoundTrip
import Servo.Python.ProductKeys
import Servo.Python.DimensionMapping
import Servo.Framework.FirstByKey
import Servo.Storage.BackfillListing
import Servo.Cli.PartitionList
import Servo.CloudGcp.AccessTokens
import Servo.Worker.OidcValidator
import Servo.Worker.RateLimiter
import Servo.Worker.PartitionContext
import Servo.Lineage.CommonLineage
