import ArosKernel.HashMap
import ArosKernel.TaskEnvelope
import Mathlib.Data.String.Basic

/-! The task requests of `supervisor/handler.rs`, with their answers. `serde_json`'s
decoder of envelopes is the parameter `fromValue`; its errors are texts. -/
namespace ArosKernel.Supervisor
open Governor Envelope

def errorInvalidParams : Int32 := -32602
def errorPermissionDenied : Int32 := -32000
def errorBudgetExceeded : Int32 := -32001

abbrev Failure := Int32 × String

abbrev TaskRegistry := HashMap String String

structure KernelRequestHandler where
  governor : ResourceGovernor
  taskRegistry : TaskRegistry

def required (params : Option Value) : Except Failure Value :=
  match params with
  | some params => .ok params
  | none => .error (errorInvalidParams, "missing params")

def strField (params : Value) (name : String) : Except Failure String :=
  match (params.get name).bind Value.asStr with
  | some s => .ok s
  | none => .error (errorInvalidParams, s!"missing {name}")

def unknownTask (taskId : String) : Failure := (errorPermissionDenied, s!"unknown task_id: {taskId}")

namespace KernelRequestHandler

def register (h : KernelRequestHandler) (taskId socketPath : String) : KernelRequestHandler :=
  { h with taskRegistry := h.taskRegistry.insert taskId socketPath }

def progressParams (params : Option Value) : Except Failure String := do
  let params ← required params
  let taskId ← strField params "task_id"
  let _dagId ← strField params "dag_id"
  let _phase ← strField params "phase"
  .ok taskId

def handleTaskProgress (h : KernelRequestHandler) (params : Option Value) : Except Failure Value × KernelRequestHandler :=
  match progressParams params with
  | .error e => (.error e, h)
  | .ok taskId =>
    if taskId ∈ h.taskRegistry then
      (.ok (.object [("status", .string "acknowledged"), ("task_id", .string taskId)]), h)
    else (.error (unknownTask taskId), h)

def completeParams (params : Option Value) : Except Failure (String × UInt64) := do
  let params ← required params
  let taskId ← strField params "task_id"
  let _dagId ← strField params "dag_id"
  .ok (taskId, ((params.get "tokens_used").bind Value.asU64).getD 0)

-- The release: one P1 task of no size, whatever was admitted under the id.
def releaseBudget (gov : ResourceGovernor) (tokensUsed : UInt64) : ResourceGovernor :=
  let gov := gov.taskEnded .p1Normal 0
  if 0 < tokensUsed then gov.tokensUsed .p1Normal tokensUsed else gov

def handleTaskComplete (h : KernelRequestHandler) (params : Option Value) : Except Failure Value × KernelRequestHandler :=
  match completeParams params with
  | .error e => (.error e, h)
  | .ok (taskId, tokensUsed) =>
    if taskId ∈ h.taskRegistry then
      (.ok (.object [("status", .string "completed"), ("task_id", .string taskId)]),
        ⟨releaseBudget h.governor tokensUsed, h.taskRegistry.erase taskId⟩)
    else (.error (unknownTask taskId), h)

/-! task.submit, in its two halves: what happens up to the answer of the admission
check, and the accounting after it. -/

def submitParams (fromValue : Value → Except String TaskEnvelope) (params : Option Value) :
    Except Failure TaskEnvelope := do
  let params ← required params
  match fromValue params with
  | .error e => .error (errorInvalidParams, s!"invalid TaskEnvelope: {e}")
  | .ok env =>
    match env.validate with
    | .error e => .error (errorInvalidParams, s!"envelope validation failed: {e.text}")
    | .ok () => .ok env

def checkEnvelope (gov : ResourceGovernor) (env : TaskEnvelope) : AdmissionDecision :=
  gov.checkAdmission env.priority env.resourceBudget.maxRssMb env.resourceBudget.maxTokens

def answer (env : TaskEnvelope) : AdmissionDecision → Except Failure Value
  | .admitted => .ok (.object [("status", .string "admitted"), ("task_id", .string env.taskId)])
  | .queued reason =>
    .ok (.object [("status", .string "queued"), ("task_id", .string env.taskId), ("reason", .string reason)])
  | .throttled reason => .error (errorBudgetExceeded, s!"throttled: {reason}")
  | .shed reason => .error (errorBudgetExceeded, s!"shed: {reason}")

def admits (fromValue : Value → Except String TaskEnvelope) (gov : ResourceGovernor) (params : Option Value) :
    Option TaskEnvelope :=
  match submitParams fromValue params with
  | .error _ => none
  | .ok env => if checkEnvelope gov env = .admitted then some env else none

def start (gov : ResourceGovernor) (env : TaskEnvelope) : ResourceGovernor :=
  gov.taskStarted env.priority env.resourceBudget.maxRssMb

def handleTaskSubmit (fromValue : Value → Except String TaskEnvelope) (h : KernelRequestHandler) (params : Option Value) :
    Except Failure Value × KernelRequestHandler :=
  match submitParams fromValue params with
  | .error e => (.error e, h)
  | .ok env =>
    let decision := checkEnvelope h.governor env
    (answer env decision, if decision = .admitted then { h with governor := start h.governor env } else h)

variable {fromValue : Value → Except String TaskEnvelope}

theorem submitParamsValid {params : Option Value} {env : TaskEnvelope} (read : submitParams fromValue params = .ok env) :
    env.validate = .ok () := by
  unfold submitParams at read
  cases params with
  | none => cases read
  | some v =>
    simp only [required, bind, Except.bind] at read
    split at read
    · cases read
    · split at read
      · cases read
      · rename_i valid
        cases read
        exact valid

theorem admitsIff {gov : ResourceGovernor} {params : Option Value} {env : TaskEnvelope} :
    admits fromValue gov params = some env ↔
      submitParams fromValue params = .ok env ∧ checkEnvelope gov env = .admitted := by
  unfold admits
  cases submitParams fromValue params with
  | error e => simp
  | ok found =>
    simp only [Option.ite_none_right_eq_some, Option.some.injEq, Except.ok.injEq]
    constructor
    · intro ⟨admitted, same⟩
      exact ⟨same, same ▸ admitted⟩
    · intro ⟨same, admitted⟩
      exact ⟨same ▸ admitted, same⟩

theorem submitState (h : KernelRequestHandler) (params : Option Value) :
    (handleTaskSubmit fromValue h params).2 =
      match admits fromValue h.governor params with
      | some env => { h with governor := start h.governor env }
      | none => h := by
  unfold handleTaskSubmit admits
  cases submitParams fromValue params with
  | error e => rfl
  | ok env =>
    dsimp only
    split <;> rfl

theorem submitAnswer (h : KernelRequestHandler) (params : Option Value) (taskId : String) :
    (handleTaskSubmit fromValue h params).1 =
        .ok (.object [("status", .string "admitted"), ("task_id", .string taskId)]) ↔
      ∃ env, admits fromValue h.governor params = some env ∧ env.taskId = taskId := by
  unfold handleTaskSubmit admits
  cases submitParams fromValue params with
  | error e => simp
  | ok env =>
    dsimp only
    cases checkEnvelope h.governor env <;> simp [answer]

def completes (registry : TaskRegistry) (params : Option Value) : Option String :=
  match completeParams params with
  | .error _ => none
  | .ok (taskId, _) => if taskId ∈ registry then some taskId else none

theorem completeState (h : KernelRequestHandler) (params : Option Value) :
    (completes h.taskRegistry params = none ∧ (handleTaskComplete h params).2 = h) ∨
    (∃ taskId tokensUsed, completes h.taskRegistry params = some taskId ∧
      (handleTaskComplete h params).2 = ⟨releaseBudget h.governor tokensUsed, h.taskRegistry.erase taskId⟩) := by
  unfold completes handleTaskComplete
  rcases completeParams params with e | ⟨taskId, tokensUsed⟩
  · exact .inl ⟨rfl, rfl⟩
  · dsimp only
    split
    · exact .inr ⟨taskId, tokensUsed, rfl, rfl⟩
    · exact .inl ⟨rfl, rfl⟩

theorem completeAnswer (h : KernelRequestHandler) (params : Option Value) (taskId : String) :
    (handleTaskComplete h params).1 =
        .ok (.object [("status", .string "completed"), ("task_id", .string taskId)]) ↔
      completes h.taskRegistry params = some taskId := by
  unfold completes handleTaskComplete
  rcases completeParams params with e | ⟨id, tokensUsed⟩
  · simp
  · dsimp only
    split <;> simp

end KernelRequestHandler
end ArosKernel.Supervisor
