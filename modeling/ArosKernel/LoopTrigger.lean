import ArosKernel.KernelSupervisor
import ArosKernel.TaskEnvelope

/-! The triggers of `dispatch/contracts.rs` and the methods of `dispatch/rpc.rs`. -/
namespace ArosKernel.Supervisor
open Envelope

inductive TriggerKind where
  | taskDispatch (envelope : TaskEnvelope)
  | taskProgress (taskId dagId phase : String) (detail : Option Value)
  | taskComplete (taskId dagId output : String) (tokensUsed : UInt64) (durationSecs : F64)
  | taskFailed (taskId dagId error : String) (retryable : Bool)
  | taskCancel (taskId reason : String)
  | metaCycleRequest (triggerSource : String)
  | metaCycleAuthorized (cycleId : String)
  | metaCycleComplete (cycleId : String) (policyChanged : Bool) (driftScore : F64)
  | ping
  | pong

structure LoopTrigger where
  seq : UInt64
  source : ProcessId
  target : ProcessId
  kind : TriggerKind
  traceParent : Option String

def LoopTrigger.new (seq : UInt64) (source target : ProcessId) (kind : TriggerKind) : LoopTrigger :=
  { seq, source, target, kind, traceParent := none }

inductive RpcMethod where
  | taskSubmit
  | taskProgress
  | taskComplete
  | taskCancel
  | loopTrigger
  | ping
  deriving DecidableEq, Repr

-- The `{:?}` of a process.
def ProcessId.text : ProcessId → String
  | .init => "Init"
  | .kernel => "Kernel"
  | .loop0Meta => "Loop0Meta"
  | .loop1Agentic => "Loop1Agentic"
  | .loop2Harness => "Loop2Harness"
  | .modelAdapter => "ModelAdapter"
  | .embeddingAdapter => "EmbeddingAdapter"

namespace KernelSupervisor

def activeProcesses (k : KernelSupervisor) (order : HashMap.Order ProcessId ChildHandle) : List (ProcessId × ProcessState) :=
  (order.values k.children).map (fun h => (h.id, h.state))

def isRunning (k : KernelSupervisor) (order : HashMap.Order ProcessId ChildHandle) (id : ProcessId) : Bool :=
  (k.activeProcesses order).any (fun p => p.1 = id && p.2 = .running)

theorem isRunningIff {k : KernelSupervisor} {order : HashMap.Order ProcessId ChildHandle} {id : ProcessId} :
    k.isRunning order id = true ↔ ∃ j handle, k.child j = some handle ∧ handle.id = id ∧ handle.state = .running := by
  simp only [isRunning, activeProcesses, List.any_map, List.any_eq_true, HashMap.Order.memValues, child,
    Function.comp_apply, Bool.and_eq_true, decide_eq_true_eq]
  constructor
  · rintro ⟨handle, ⟨j, found⟩, running⟩
    exact ⟨j, handle, found, running⟩
  · rintro ⟨j, handle, found, running⟩
    exact ⟨handle, ⟨j, found⟩, running⟩

end KernelSupervisor
end ArosKernel.Supervisor
