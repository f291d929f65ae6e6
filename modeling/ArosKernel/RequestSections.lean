import ArosKernel.RequestHandler
import ArosKernel.Transition

/-! Requests of concurrent connections, by their sections: one access to the registry, one
atomic counter, one reading of the supervisor each. The loads of the admission check are
no section either, so a check may have seen any mixture of counters. -/
namespace ArosKernel.Supervisor
open Governor Envelope Store Transition KernelRequestHandler

inductive CounterOp where
  | addActive
  | subActive
  | addRss (mb : UInt64)
  | subRss (mb : UInt64)
  | addTokens (count : UInt64)
  deriving DecidableEq, Repr

def CounterOp.apply (u : TierUsage) : CounterOp → TierUsage
  | .addActive => { u with activeTasks := u.activeTasks + 1 }
  | .subActive => { u with activeTasks := u.activeTasks - 1 }
  | .addRss mb => { u with rssAllocatedMb := u.rssAllocatedMb + mb }
  | .subRss mb => { u with rssAllocatedMb := saturatingSub u.rssAllocatedMb mb }
  | .addTokens count => { u with tokensUsedThisHour := u.tokensUsedThisHour + count }

inductive Act where
  | register (taskId socketPath : String)
  | remove (taskId : String)
  | count (priority : Priority) (op : CounterOp)
  | nextSeq
  | persist (cycle : MetaCycle)
  | supervise (supervisor : KernelSupervisor)
  | updatePressure (level : MemoryPressureLevel)

inductive Phase where
  | received
  | decoded (trigger : LoopTrigger)
  | checked (trigger : LoopTrigger)
  | counting (pending : List (Priority × CounterOp)) (answer : Value)
  | answered (answer : Except Failure Value)

structure Flight where
  method : RpcMethod
  params : Option Value
  phase : Phase

/- What a section meets: the map order of the processes, and what a check's loads gave. -/
structure Circumstance where
  order : ProcessOrder
  seen : ResourceGovernor

def startOps (env : TaskEnvelope) : List (Priority × CounterOp) :=
  [(env.priority, .addActive), (env.priority, .addRss env.resourceBudget.maxRssMb.toUInt64)]

def releaseOps (tokensUsed : UInt64) : List (Priority × CounterOp) :=
  [(.p1Normal, .subActive), (.p1Normal, .subRss 0)] ++
    if 0 < tokensUsed then [(.p1Normal, .addTokens tokensUsed)] else []

def countAct (op : Priority × CounterOp) : Act := .count op.1 op.2

def admittedAnswer (taskId : String) : Value := .object [("status", .string "admitted"), ("task_id", .string taskId)]
def completedAnswer (taskId : String) : Value := .object [("status", .string "completed"), ("task_id", .string taskId)]

namespace Act
variable {S : Type} [StateStore S]

def perform (serde : Serde) (h : RequestHandler S) : Act → RequestHandler S
  | .register taskId socketPath =>
    { h with toKernelRequestHandler := h.toKernelRequestHandler.register taskId socketPath }
  | .remove taskId => { h with taskRegistry := h.taskRegistry.erase taskId }
  | .count priority op => { h with governor := h.governor.record priority (fun u => op.apply u) }
  | .nextSeq => h.nextSeq
  | .persist cycle => { h with stateStore := (cycle.persist serde.display h.stateStore).2 }
  | .supervise supervisor => { h with supervisor }
  | .updatePressure level => { h with governor := h.governor.updatePressure level }

def isOutside : Act → Bool
  | .register .. | .supervise _ | .updatePressure _ => true
  | _ => false

def registers (taskId : String) : Act → Bool
  | .register id _ => id = taskId
  | _ => false

def removes (taskId : String) : Act → Bool
  | .remove id => id = taskId
  | _ => false

end Act

namespace Flight
variable {S : Type} [StateStore S]

def at_ (f : Flight) (phase : Phase) : Flight := { f with phase }

def submitted (serde : Serde) (seen : ResourceGovernor) (params : Option Value) : Phase :=
  match submitParams serde.envelope params with
  | .error e => .answered (.error e)
  | .ok env =>
    let decision := checkEnvelope seen env
    if decision = .admitted then .counting (startOps env) (admittedAnswer env.taskId) else .answered (answer env decision)

def dispatchActs (h : RequestHandler S) (trigger : LoopTrigger) : List Act :=
  match trigger.kind with
  | .metaCycleRequest _ => [.nextSeq]
  | .metaCycleComplete cycleId policyChanged driftScore =>
    if h.storePoisoned then [] else [.persist ⟨cycleId, policyChanged, driftScore⟩]
  | _ => []

def triggered (serde : Serde) (params : Option Value) : Phase :=
  match triggerParams serde params with
  | .error e => .answered (.error e)
  | .ok trigger => .decoded trigger

def receive (serde : Serde) (c : Circumstance) (h : RequestHandler S) (method : RpcMethod) (params : Option Value) :
    Phase × List Act :=
  match method with
  | .ping => (.answered (.ok (.string "pong")), [])
  | .taskSubmit => (submitted serde c.seen params, [])
  | .taskProgress => (.answered (h.handleTaskProgress params).1, [])
  | .taskComplete =>
    match completeParams params with
    | .error e => (.answered (.error e), [])
    | .ok (taskId, tokensUsed) =>
      if taskId ∈ h.taskRegistry then (.counting (releaseOps tokensUsed) (completedAnswer taskId), [.remove taskId])
      else (.answered (.error (unknownTask taskId)), [])
  | .taskCancel =>
    match cancelParams params with
    | .error e => (.answered (.error e), [])
    | .ok (taskId, reason) =>
      match serde.triggerValue (.new h.triggerSeq .kernel .loop1Agentic (.taskCancel taskId reason)) with
      | .error e => (.answered (.error (errorInternal, s!"serialization error: {e}")), [.nextSeq])
      | .ok wrapped => (triggered serde (some wrapped), [.nextSeq])
  | .loopTrigger => (triggered serde params, [])

def section_ (serde : Serde) (c : Circumstance) (h : RequestHandler S) (f : Flight) : Option (Flight × List Act) :=
  match f.phase with
  | .received => some (f.at_ (receive serde c h f.method f.params).1, (receive serde c h f.method f.params).2)
  | .decoded trigger =>
    match h.checkEnds c.order trigger with
    | .error e => some (f.at_ (.answered (.error e)), [])
    | .ok () => some (f.at_ (.checked trigger), [])
  | .checked trigger => some (f.at_ (.answered (h.dispatch serde trigger).1), dispatchActs h trigger)
  | .counting (op :: pending) answer => some (f.at_ (.counting pending answer), [countAct op])
  | .counting [] answer => some (f.at_ (.answered (.ok answer)), [])
  | .answered _ => none

def isReceived (f : Flight) : Bool :=
  match f.phase with
  | .received => true
  | _ => false

end Flight

variable {S : Type} [StateStore S] {serde : Serde}

def alone (serde : Serde) (order : ProcessOrder) (s : RequestHandler S × Flight) (_ : Unit) : Option (RequestHandler S × Flight) :=
  (s.2.section_ serde ⟨order, s.1.governor⟩ s.1).map (fun r => (r.2.foldl (Act.perform serde) s.1, r.1))

def RunsTo (serde : Serde) (order : ProcessOrder) (s t : RequestHandler S × Flight) : Prop :=
  Reachable (alone serde order) s t

theorem RunsTo.next {order : ProcessOrder} {s t u : RequestHandler S × Flight} (next : alone serde order s () = some t)
    (rest : RunsTo serde order t u) : RunsTo serde order s u := by
  obtain ⟨inputs, ran⟩ := rest
  exact ⟨() :: inputs, runCons.mpr ⟨t, next, ran⟩⟩

theorem RunsTo.refl {order : ProcessOrder} (s : RequestHandler S × Flight) : RunsTo serde order s s := ⟨[], rfl⟩

def Flight.counted (h : RequestHandler S) (pending : List (Priority × CounterOp)) : RequestHandler S :=
  { h with governor := pending.foldl (fun gov op => gov.record op.1 (fun u => op.2.apply u)) h.governor }

theorem countingRuns {order : ProcessOrder} (h : RequestHandler S) (f : Flight) (pending : List (Priority × CounterOp))
    (v : Value) : RunsTo serde order (h, f.at_ (.counting pending v)) (Flight.counted h pending, f.at_ (.answered (.ok v))) := by
  induction pending generalizing h with
  | nil => exact .next rfl (.refl _)
  | cons op rest ih => exact .next rfl (ih _)

theorem dispatchPerforms (h : RequestHandler S) (trigger : LoopTrigger) :
    (Flight.dispatchActs h trigger).foldl (Act.perform serde) h = (h.dispatch serde trigger).2 := by
  unfold Flight.dispatchActs RequestHandler.dispatch
  cases trigger.kind with
  | metaCycleComplete cycleId policyChanged driftScore =>
    dsimp only
    split <;> rfl
  | taskCancel taskId reason =>
    dsimp only
    split <;> rfl
  | _ => rfl

theorem triggerRuns (order : ProcessOrder) (h : RequestHandler S) (f : Flight) (params : Option Value) :
    RunsTo serde order (h, f.at_ (Flight.triggered serde params))
      ((h.handleLoopTrigger serde order params).2, f.at_ (.answered (h.handleLoopTrigger serde order params).1)) := by
  unfold Flight.triggered RequestHandler.handleLoopTrigger
  cases triggerParams serde params with
  | error e => exact .refl _
  | ok trigger =>
    have first : alone serde order (h, f.at_ (.decoded trigger)) () =
        some (h, f.at_ (match h.checkEnds order trigger with
          | .error e => .answered (.error e)
          | .ok () => .checked trigger)) := by
      simp only [alone, Flight.section_, Flight.at_]
      cases h.checkEnds order trigger with
      | error e => rfl
      | ok _ => rfl
    refine .next first ?_
    show RunsTo serde order _ ((h.route serde order trigger).2, f.at_ (.answered (h.route serde order trigger).1))
    unfold RequestHandler.route
    cases h.checkEnds order trigger with
    | error e => exact .refl _
    | ok _ =>
      have last : alone serde order (h, f.at_ (.checked trigger)) () =
          some ((h.dispatch serde trigger).2, f.at_ (.answered (h.dispatch serde trigger).1)) := by
        rw [← dispatchPerforms]
        rfl
      exact .next last (.refl _)

theorem recordRecord (gov : ResourceGovernor) (p : Priority) (f g : TierUsage → TierUsage) :
    (gov.record p f).record p g = gov.record p (fun u => g (f u)) := by
  simp only [ResourceGovernor.record, Function.update_self, Function.update_idem, Option.map_map]
  rfl

omit [StateStore S] in
theorem startCounted (h : RequestHandler S) (env : TaskEnvelope) :
    Flight.counted h (startOps env) = { h with governor := start h.governor env } := by
  simp only [Flight.counted, startOps, List.foldl_cons, List.foldl_nil, recordRecord]
  rfl

omit [StateStore S] in
theorem releaseCounted (h : RequestHandler S) (tokensUsed : UInt64) :
    Flight.counted h (releaseOps tokensUsed) = { h with governor := releaseBudget h.governor tokensUsed } := by
  simp only [releaseOps, releaseBudget, ResourceGovernor.taskEnded, ResourceGovernor.tokensUsed]
  split
  · simp only [Flight.counted, List.cons_append, List.nil_append, List.foldl_cons, List.foldl_nil, recordRecord]
    rfl
  · simp only [Flight.counted, List.cons_append, List.nil_append, List.foldl_cons, List.foldl_nil, recordRecord]
    rfl

omit [StateStore S] in
theorem progressState (h : RequestHandler S) (params : Option Value) :
    (h.handleTaskProgress params).2 = h.toKernelRequestHandler := by
  unfold handleTaskProgress
  cases progressParams params with
  | error e => rfl
  | ok taskId =>
    dsimp only
    split <;> rfl

theorem handleRuns (order : ProcessOrder) (h : RequestHandler S) (method : RpcMethod) (params : Option Value) :
    RunsTo serde order (h, ⟨method, params, .received⟩)
      ((h.handle serde order method params).2, ⟨method, params, .answered (h.handle serde order method params).1⟩) := by
  refine .next rfl ?_
  cases method with
  | ping => exact .refl _
  | taskProgress =>
    simp only [RequestHandler.handle, RequestHandler.withTasks, progressState]
    exact .refl _
  | taskSubmit =>
    simp only [RequestHandler.handle, RequestHandler.withTasks, Flight.receive, Flight.submitted, handleTaskSubmit]
    cases submitParams serde.envelope params with
    | error e => exact .refl _
    | ok env =>
      dsimp only
      split
      · rename_i admitted
        rw [admitted]
        have counted := @countingRuns S _ serde order h ⟨.taskSubmit, params, .received⟩ (startOps env)
          (admittedAnswer env.taskId)
        rw [startCounted] at counted
        exact counted
      · exact .refl _
  | taskComplete =>
    simp only [RequestHandler.handle, RequestHandler.withTasks, Flight.receive, handleTaskComplete]
    rcases completeParams params with e | ⟨taskId, tokensUsed⟩
    · exact .refl _
    · dsimp only
      split
      · have counted := @countingRuns S _ serde order
          { h with taskRegistry := h.taskRegistry.erase taskId } ⟨.taskComplete, params, .received⟩
          (releaseOps tokensUsed) (completedAnswer taskId)
        rw [releaseCounted] at counted
        exact counted
      · exact .refl _
  | taskCancel =>
    simp only [RequestHandler.handle, Flight.receive]
    rcases cancelParams params with e | ⟨taskId, reason⟩
    · exact .refl _
    · dsimp only
      cases serde.triggerValue (.new h.triggerSeq .kernel .loop1Agentic (.taskCancel taskId reason)) with
      | error e => exact .refl _
      | ok wrapped => exact triggerRuns order h.nextSeq _ (some wrapped)
  | loopTrigger => exact triggerRuns order h _ params

end ArosKernel.Supervisor
