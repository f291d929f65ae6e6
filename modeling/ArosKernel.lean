import ArosKernel.HashMap
import ArosKernel.DepthFirst
import ArosKernel.Transition
import ArosKernel.Binary64
import ArosKernel.Utf8
import ArosKernel.DagGraph
import ArosKernel.DagCycle
import ArosKernel.Dependency
import ArosKernel.DagExecutor
import ArosKernel.DagRuntime
import ArosKernel.DagOutcome
import ArosKernel.DagShared
import ArosKernel.DagPersistence
import ArosKernel.CrashSave
import ArosKernel.DagTopological
import ArosKernel.Governor
import ArosKernel.GovernorRuns
import ArosKernel.Duration
import ArosKernel.JsonValue
import ArosKernel.TaskEnvelope
import ArosKernel.Handler
import ArosKernel.HandlerRuns
import ArosKernel.SubmitRace
import ArosKernel.KernelSupervisor
import ArosKernel.Backoff
import ArosKernel.RestartHistory
import ArosKernel.UpdateRace
import ArosKernel.CircuitBreaker
import ArosKernel.ProviderRegistry
import ArosKernel.Choice
import ArosKernel.Resolver
import ArosKernel.Acl
import ArosKernel.MetaCycle
import ArosKernel.LoopTrigger
import ArosKernel.RequestHandler
import ArosKernel.MetaCycleRuns
import ArosKernel.TokenBudget
import ArosKernel.TokenMeter
import ArosKernel.Layers
import ArosKernel.Gregorian
import ArosKernel.LikePattern
import ArosKernel.JsonFormat
import ArosKernel.Scheduler
import ArosKernel.Interleaving
import ArosKernel.RequestSections
import ArosKernel.RequestRace
import ArosKernel.Rpc
import ArosKernel.RpcClient
import ArosKernel.DagTicks
import ArosKernel.SqliteStore
import ArosKernel.Timestamp
import ArosKernel.MessageFormat
import ArosKernel.Admission
import ArosKernel.Recommender
import ArosKernel.Checkpoint
import ArosKernel.Probing
import ArosKernel.RpcServer
import ArosKernel.DagSettled
import ArosKernel.DagFormat
import ArosKernel.FloatArith
import ArosKernel.HealthLoop
import ArosKernel.RuntimeCheck
import ArosKernel.Health
import ArosKernel.Network
import ArosKernel.Cycles
import ArosKernel.Wire
import ArosKernel.Chronology
import ArosKernel.Transactions
import ArosKernel.Lifecycle
import ArosKernel.RecommenderFloat
import ArosKernel.Thermal
