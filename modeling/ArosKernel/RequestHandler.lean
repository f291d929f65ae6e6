import ArosKernel.LoopTrigger
import ArosKernel.MetaCycle

/-! The whole request handler of `supervisor/handler.rs`: the task requests, triggers
with their routing checks, and the store behind its lock. `serde_json` and `Display` of
a float are the parameter `Serde`. -/
namespace ArosKernel.Supervisor
open Envelope Store

structure Serde where
  envelope : Value → Except String TaskEnvelope
  trigger : Value → Except String LoopTrigger
  triggerValue : LoopTrigger → Except String Value
  display : F64 → String

structure RequestHandler (S : Type) extends KernelRequestHandler where
  supervisor : KernelSupervisor
  stateStore : S
  storePoisoned : Bool
  triggerSeq : UInt64

abbrev ProcessOrder := HashMap.Order ProcessId ChildHandle

def TriggerKind.cycle : TriggerKind → Option MetaCycle
  | .metaCycleComplete cycleId policyChanged driftScore => some ⟨cycleId, policyChanged, driftScore⟩
  | _ => none

def triggerParams (serde : Serde) (params : Option Value) : Except Failure LoopTrigger := do
  let params ← required params
  match serde.trigger params with
  | .error e => .error (errorInvalidParams, s!"invalid LoopTrigger: {e}")
  | .ok trigger => .ok trigger

def cancelParams (params : Option Value) : Except Failure (String × String) := do
  let params ← required params
  let taskId ← strField params "task_id"
  .ok (taskId, ((params.get "reason").bind Value.asStr).getD "requested")

def lockPoisoned : Failure := (errorInternal, "state store lock poisoned: poisoned lock: another task failed inside")

namespace RequestHandler
variable {S : Type} [StateStore S]

def nextSeq (h : RequestHandler S) : RequestHandler S := { h with triggerSeq := h.triggerSeq + 1 }

-- The checks on the two ends of a trigger; the kernel as a target needs none.
def checkEnds (h : RequestHandler S) (order : ProcessOrder) (trigger : LoopTrigger) : Except Failure Unit :=
  if !h.supervisor.isRunning order trigger.source then
    .error (errorPermissionDenied, s!"source process {trigger.source.text} is not running")
  else if trigger.target ≠ .kernel && !h.supervisor.isRunning order trigger.target then
    .error (errorPermissionDenied, s!"target process {trigger.target.text} is not running")
  else .ok ()

def dispatch (serde : Serde) (h : RequestHandler S) (trigger : LoopTrigger) : Except Failure Value × RequestHandler S :=
  match trigger.kind with
  | .metaCycleRequest _ =>
    (.ok (.object [("status", .string "authorized"), ("cycle_id", .string s!"cycle-{h.triggerSeq}")]), h.nextSeq)
  | .metaCycleComplete cycleId policyChanged driftScore =>
    if h.storePoisoned then (.error lockPoisoned, h)
    else
      let (answer, stateStore) := MetaCycle.persist serde.display h.stateStore ⟨cycleId, policyChanged, driftScore⟩
      (answer, { h with stateStore })
  | .taskCancel taskId _ =>
    if taskId ∈ h.taskRegistry then
      (.ok (.object [("status", .string "cancel_forwarded"), ("task_id", .string taskId)]), h)
    else (.error (errorInvalidParams, s!"unknown task_id: {taskId}"), h)
  | _ =>
    (.ok (.object [("status", .string "routed"), ("seq", .nat trigger.seq), ("target", .string trigger.target.text)]), h)

def route (serde : Serde) (order : ProcessOrder) (h : RequestHandler S) (trigger : LoopTrigger) :
    Except Failure Value × RequestHandler S :=
  match h.checkEnds order trigger with
  | .error e => (.error e, h)
  | .ok () => h.dispatch serde trigger

def handleLoopTrigger (serde : Serde) (order : ProcessOrder) (h : RequestHandler S) (params : Option Value) :
    Except Failure Value × RequestHandler S :=
  match triggerParams serde params with
  | .error e => (.error e, h)
  | .ok trigger => h.route serde order trigger

def withTasks (h : RequestHandler S) (result : Except Failure Value × KernelRequestHandler) :
    Except Failure Value × RequestHandler S :=
  (result.1, { h with toKernelRequestHandler := result.2 })

def handle (serde : Serde) (order : ProcessOrder) (h : RequestHandler S) (method : RpcMethod) (params : Option Value) :
    Except Failure Value × RequestHandler S :=
  match method with
  | .ping => (.ok (.string "pong"), h)
  | .taskSubmit => h.withTasks (h.handleTaskSubmit serde.envelope params)
  | .taskProgress => h.withTasks (h.handleTaskProgress params)
  | .taskComplete => h.withTasks (h.handleTaskComplete params)
  | .taskCancel =>
    match cancelParams params with
    | .error e => (.error e, h)
    | .ok (taskId, reason) =>
      match serde.triggerValue (.new h.triggerSeq .kernel .loop1Agentic (.taskCancel taskId reason)) with
      | .error e => (.error (errorInternal, s!"serialization error: {e}"), h.nextSeq)
      | .ok wrapped => h.nextSeq.handleLoopTrigger serde order (some wrapped)
  | .loopTrigger => h.handleLoopTrigger serde order params

def received (serde : Serde) (h : RequestHandler S) (method : RpcMethod) (params : Option Value) : Option LoopTrigger :=
  match method with
  | .taskCancel =>
    match cancelParams params with
    | .error _ => none
    | .ok (taskId, reason) =>
      match serde.triggerValue (.new h.triggerSeq .kernel .loop1Agentic (.taskCancel taskId reason)) with
      | .error _ => none
      | .ok wrapped => (triggerParams serde (some wrapped)).toOption
  | .loopTrigger => (triggerParams serde params).toOption
  | _ => none

def stored (order : ProcessOrder) (h : RequestHandler S) (trigger : LoopTrigger) : Option MetaCycle :=
  match h.checkEnds order trigger with
  | .error _ => none
  | .ok () => if h.storePoisoned then none else trigger.kind.cycle

omit [StateStore S] in
theorem checkEndsOk {h : RequestHandler S} {order : ProcessOrder} {trigger : LoopTrigger} :
    h.checkEnds order trigger = .ok () ↔ h.supervisor.isRunning order trigger.source = true ∧
      (trigger.target = .kernel ∨ h.supervisor.isRunning order trigger.target = true) := by
  unfold checkEnds
  cases h.supervisor.isRunning order trigger.source with
  | false => simp
  | true => cases h.supervisor.isRunning order trigger.target <;> simp

theorem dispatchStore (serde : Serde) (h : RequestHandler S) (trigger : LoopTrigger) :
    (h.dispatch serde trigger).2.stateStore =
      match (if h.storePoisoned then none else trigger.kind.cycle) with
      | some c => (c.persist serde.display h.stateStore).2
      | none => h.stateStore := by
  unfold dispatch
  cases trigger.kind with
  | metaCycleComplete cycleId policyChanged driftScore =>
    cases poisoned : h.storePoisoned <;> simp [TriggerKind.cycle]
  | taskCancel taskId reason =>
    dsimp only
    split <;> simp [TriggerKind.cycle]
  | _ => simp [TriggerKind.cycle, nextSeq]

theorem routeStore (serde : Serde) (order : ProcessOrder) (h : RequestHandler S) (trigger : LoopTrigger) :
    (h.route serde order trigger).2.stateStore = match h.stored order trigger with
      | some c => (c.persist serde.display h.stateStore).2
      | none => h.stateStore := by
  unfold route stored
  cases h.checkEnds order trigger with
  | error e => rfl
  | ok _ => exact dispatchStore serde h trigger

theorem cycleKind {kind : TriggerKind} {c : MetaCycle} (cycle : kind.cycle = some c) :
    kind = .metaCycleComplete c.cycleId c.policyChanged c.driftScore := by
  cases kind with
  | metaCycleComplete cycleId policyChanged driftScore =>
    cases cycle
    rfl
  | _ => cases cycle

theorem routeStored (serde : Serde) {order : ProcessOrder} {h : RequestHandler S} {trigger : LoopTrigger} {c : MetaCycle}
    (stored : h.stored order trigger = some c) : h.route serde order trigger =
      ((c.persist serde.display h.stateStore).1, { h with stateStore := (c.persist serde.display h.stateStore).2 }) := by
  unfold RequestHandler.stored at stored
  unfold route
  cases ends : h.checkEnds order trigger with
  | error e => simp [ends] at stored
  | ok _ =>
    simp only [ends, Option.ite_none_left_eq_some] at stored
    simp only [dispatch, cycleKind stored.2, if_neg stored.1]

theorem routeRefused (serde : Serde) {order : ProcessOrder} {h : RequestHandler S} {trigger : LoopTrigger} {c : MetaCycle}
    (cycle : trigger.kind.cycle = some c) (none_ : h.stored order trigger = none) :
    ∃ e, h.route serde order trigger = (.error e, h) := by
  unfold stored at none_
  unfold route
  cases ends : h.checkEnds order trigger with
  | error e => exact ⟨e, rfl⟩
  | ok _ =>
    simp only [ends, cycle, ite_eq_left_iff, reduceCtorEq, imp_false, Decidable.not_not] at none_
    exact ⟨lockPoisoned, by simp only [dispatch, cycleKind cycle, if_pos none_]⟩

theorem handleStore (serde : Serde) (order : ProcessOrder) (h : RequestHandler S) (method : RpcMethod)
    (params : Option Value) : (h.handle serde order method params).2.stateStore =
      match (h.received serde method params).bind (h.stored order) with
      | some c => (c.persist serde.display h.stateStore).2
      | none => h.stateStore := by
  cases method with
  | loopTrigger =>
    simp only [handle, handleLoopTrigger, received]
    cases triggerParams serde params with
    | error e => rfl
    | ok trigger => exact routeStore serde order h trigger
  | taskCancel =>
    simp only [handle, received]
    rcases cancelParams params with e | ⟨taskId, reason⟩
    · rfl
    · dsimp only
      cases serde.triggerValue (.new h.triggerSeq .kernel .loop1Agentic (.taskCancel taskId reason)) with
      | error e => rfl
      | ok wrapped =>
        simp only [handleLoopTrigger]
        cases triggerParams serde (some wrapped) with
        | error e => rfl
        | ok trigger => exact routeStore serde order h.nextSeq trigger
  | _ => rfl

end RequestHandler
end ArosKernel.Supervisor
