import ArosKernel.Rpc

/-! The JSON of the messages in `dispatch/rpc.rs` and `dispatch/contracts.rs`, and which
of them come back from it. -/
namespace ArosKernel.Supervisor
open Envelope JsonFormat Format Fields

abbrev VarOrder := HashMap.Order String String

def ProcessId.format : Format ProcessId :=
  units text [.init, .kernel, .loop0Meta, .loop1Agentic, .loop2Harness, .modelAdapter, .embeddingAdapter]
    (fun p => by cases p <;> decide) (fun a b => by cases a <;> cases b <;> decide)

def progressFormat : Format (String × String × String × Option Value) :=
  object ((member "task_id" string).both
    ((member "dag_id" string).both ((member "phase" string).both (optional "detail" value) ⟨rfl⟩) ⟨rfl⟩) ⟨rfl⟩)

def completeFormat : Format (String × String × String × UInt64 × F64) :=
  object ((member "task_id" string).both
    ((member "dag_id" string).both
      ((member "output" string).both
        ((member "tokens_used" u64).both (member "duration_secs" f64) ⟨rfl⟩) ⟨rfl⟩) ⟨rfl⟩) ⟨rfl⟩)

def failedFormat : Format (String × String × String × Bool) :=
  object ((member "task_id" string).both
    ((member "dag_id" string).both ((member "error" string).both (member "retryable" bool) ⟨rfl⟩) ⟨rfl⟩) ⟨rfl⟩)

def cancelFormat : Format (String × String) :=
  object ((member "task_id" string).both (member "reason" string) ⟨rfl⟩)

def cycleRequestFormat : Format String := object (member "trigger_source" string)

def authorizedFormat : Format String := object (member "cycle_id" string)

def cycleCompleteFormat : Format (String × Bool × F64) :=
  object ((member "cycle_id" string).both
    ((member "policy_changed" bool).both (member "drift_score" f64) ⟨rfl⟩) ⟨rfl⟩)

-- `tag = "kind", content = "payload"`
def tagged (kind : String) (payload : Option Value) : Value :=
  .object (("kind", .string kind) :: (payload.map (fun v => ("payload", v))).toList)

namespace TriggerKind

def encode (order : VarOrder) : TriggerKind → Value
  | .taskDispatch envelope => tagged "TaskDispatch" (some ((TaskEnvelope.format order).encode envelope))
  | .taskProgress taskId dagId phase detail =>
    tagged "TaskProgress" (some (progressFormat.encode (taskId, dagId, phase, detail)))
  | .taskComplete taskId dagId output tokensUsed durationSecs =>
    tagged "TaskComplete" (some (completeFormat.encode (taskId, dagId, output, tokensUsed, durationSecs)))
  | .taskFailed taskId dagId error retryable =>
    tagged "TaskFailed" (some (failedFormat.encode (taskId, dagId, error, retryable)))
  | .taskCancel taskId reason => tagged "TaskCancel" (some (cancelFormat.encode (taskId, reason)))
  | .metaCycleRequest triggerSource => tagged "MetaCycleRequest" (some (cycleRequestFormat.encode triggerSource))
  | .metaCycleAuthorized cycleId => tagged "MetaCycleAuthorized" (some (authorizedFormat.encode cycleId))
  | .metaCycleComplete cycleId policyChanged driftScore =>
    tagged "MetaCycleComplete" (some (cycleCompleteFormat.encode (cycleId, policyChanged, driftScore)))
  | .ping => tagged "Ping" none
  | .pong => tagged "Pong" none

def ofProgress (p : String × String × String × Option Value) : TriggerKind := .taskProgress p.1 p.2.1 p.2.2.1 p.2.2.2

def ofComplete (p : String × String × String × UInt64 × F64) : TriggerKind :=
  .taskComplete p.1 p.2.1 p.2.2.1 p.2.2.2.1 p.2.2.2.2

def ofFailed (p : String × String × String × Bool) : TriggerKind := .taskFailed p.1 p.2.1 p.2.2.1 p.2.2.2

def ofCancel (p : String × String) : TriggerKind := .taskCancel p.1 p.2

def ofCycle (p : String × Bool × F64) : TriggerKind := .metaCycleComplete p.1 p.2.1 p.2.2

def ofPayload (order : VarOrder) (kind : String) (payload : Option Value) : Option TriggerKind :=
  match kind with
  | "TaskDispatch" => (payload.bind (TaskEnvelope.format order).decode).map .taskDispatch
  | "TaskProgress" => (payload.bind progressFormat.decode).map ofProgress
  | "TaskComplete" => (payload.bind completeFormat.decode).map ofComplete
  | "TaskFailed" => (payload.bind failedFormat.decode).map ofFailed
  | "TaskCancel" => (payload.bind cancelFormat.decode).map ofCancel
  | "MetaCycleRequest" => (payload.bind cycleRequestFormat.decode).map .metaCycleRequest
  | "MetaCycleAuthorized" => (payload.bind authorizedFormat.decode).map .metaCycleAuthorized
  | "MetaCycleComplete" => (payload.bind cycleCompleteFormat.decode).map ofCycle
  | "Ping" => some .ping
  | "Pong" => some .pong
  | _ => none

def decode (order : VarOrder) (v : Value) : Option TriggerKind :=
  ((v.get "kind").bind Value.asStr).bind (fun kind => ofPayload order kind (v.get "payload"))

-- What JSON can say: no non-finite number, and no null in the place of an optional value.
def Writable : TriggerKind → Prop
  | .taskDispatch envelope => envelope.resourceBudget.budgetWarningThreshold.isFinite = true
  | .taskProgress _ _ _ detail => detail ≠ some .null
  | .taskComplete _ _ _ _ durationSecs => durationSecs.isFinite = true
  | .metaCycleComplete _ _ driftScore => driftScore.isFinite = true
  | _ => True

theorem decodeTagged (order : VarOrder) (kind : String) (payload : Option Value) :
    decode order (tagged kind payload) = ofPayload order kind payload := by
  cases payload <;> rfl

theorem ofProgressInj : Function.Injective ofProgress := fun ⟨_, _, _, _⟩ ⟨_, _, _, _⟩ same => by cases same; rfl
theorem ofCompleteInj : Function.Injective ofComplete := fun ⟨_, _, _, _, _⟩ ⟨_, _, _, _, _⟩ same => by cases same; rfl
theorem ofFailedInj : Function.Injective ofFailed := fun ⟨_, _, _, _⟩ ⟨_, _, _, _⟩ same => by cases same; rfl
theorem ofCancelInj : Function.Injective ofCancel := fun ⟨_, _⟩ ⟨_, _⟩ same => by cases same; rfl
theorem ofCycleInj : Function.Injective ofCycle := fun ⟨_, _, _⟩ ⟨_, _, _⟩ same => by cases same; rfl

theorem writableIff (order : VarOrder) (kind : TriggerKind) :
    decode order (kind.encode order) = some kind ↔ kind.Writable := by
  cases kind with
  | taskDispatch envelope =>
    rw [encode, decodeTagged]
    exact (mapKept _ _ (fun _ _ => TriggerKind.taskDispatch.inj) _).trans (envelopeKept order envelope)
  | taskProgress taskId dagId phase detail =>
    rw [encode, decodeTagged]
    refine (mapKept progressFormat _ ofProgressInj (taskId, dagId, phase, detail)).trans ?_
    simp [progressFormat, Writable]
  | taskComplete taskId dagId output tokensUsed durationSecs =>
    rw [encode, decodeTagged]
    refine (mapKept completeFormat _ ofCompleteInj (taskId, dagId, output, tokensUsed, durationSecs)).trans ?_
    simp [completeFormat, Writable]
  | taskFailed taskId dagId error retryable =>
    rw [encode, decodeTagged]
    refine (mapKept failedFormat _ ofFailedInj (taskId, dagId, error, retryable)).trans ?_
    simp [failedFormat, Writable]
  | taskCancel taskId reason =>
    rw [encode, decodeTagged]
    refine (mapKept cancelFormat _ ofCancelInj (taskId, reason)).trans ?_
    simp [cancelFormat, Writable]
  | metaCycleRequest triggerSource =>
    rw [encode, decodeTagged]
    exact mapKept cycleRequestFormat _ (fun _ _ => TriggerKind.metaCycleRequest.inj) triggerSource
  | metaCycleAuthorized cycleId =>
    rw [encode, decodeTagged]
    exact mapKept authorizedFormat _ (fun _ _ => TriggerKind.metaCycleAuthorized.inj) cycleId
  | metaCycleComplete cycleId policyChanged driftScore =>
    rw [encode, decodeTagged]
    refine (mapKept cycleCompleteFormat _ ofCycleInj (cycleId, policyChanged, driftScore)).trans ?_
    simp [cycleCompleteFormat, Writable]
  | ping => exact iff_of_true rfl trivial
  | pong => exact iff_of_true rfl trivial

def format (order : VarOrder) : Format TriggerKind :=
  { encode := encode order, decode := decode order, Kept := Writable, keptIff := writableIff order }

end TriggerKind

def LoopTrigger.format (order : VarOrder) : Format LoopTrigger :=
  record
    ((member "seq" u64).both
      ((member "source" ProcessId.format).both
        ((member "target" ProcessId.format).both
          ((member "kind" (TriggerKind.format order)).both (optional "trace_parent" string) ⟨rfl⟩) ⟨rfl⟩)
        ⟨rfl⟩) ⟨rfl⟩)
    (fun t => (t.seq, t.source, t.target, t.kind, t.traceParent))
    (fun p => ⟨p.1, p.2.1, p.2.2.1, p.2.2.2.1, p.2.2.2.2⟩) (fun _ => rfl) (fun _ => rfl)

theorem triggerKept (order : VarOrder) (trigger : LoopTrigger) :
    (LoopTrigger.format order).Kept trigger ↔ trigger.kind.Writable := by
  have source : ProcessId.format.Kept trigger.source := trivial
  have target : ProcessId.format.Kept trigger.target := trivial
  have kind : (TriggerKind.format order).Kept trigger.kind ↔ trigger.kind.Writable := Iff.rfl
  simp [LoopTrigger.format, source, target, kind]

end ArosKernel.Supervisor

namespace ArosKernel.Dispatch
open Supervisor JsonFormat Format Fields

def JsonRpcRequest.format : Format JsonRpcRequest :=
  record
    ((member "jsonrpc" string).both
      ((member "method" string).both ((optional "params" value).both (member "id" value) ⟨rfl⟩) ⟨rfl⟩) ⟨rfl⟩)
    (fun r => (r.jsonrpc, r.method, r.params, r.id)) (fun p => ⟨p.1, p.2.1, p.2.2.1, p.2.2.2⟩) (fun _ => rfl)
    (fun _ => rfl)

def JsonRpcError.format : Format JsonRpcError :=
  record ((member "code" i32).both ((member "message" string).both (skipped "data" value) ⟨rfl⟩) ⟨rfl⟩)
    (fun e => (e.code, e.message, e.data)) (fun p => ⟨p.1, p.2.1, p.2.2⟩) (fun _ => rfl) (fun _ => rfl)

def JsonRpcResponse.format : Format JsonRpcResponse :=
  record
    ((member "jsonrpc" string).both
      ((skipped "result" value).both ((skipped "error" JsonRpcError.format).both (member "id" value) ⟨rfl⟩) ⟨rfl⟩) ⟨rfl⟩)
    (fun r => (r.jsonrpc, r.result, r.error, r.id)) (fun p => ⟨p.1, p.2.1, p.2.2.1, p.2.2.2⟩) (fun _ => rfl)
    (fun _ => rfl)

theorem requestKept (request : JsonRpcRequest) : JsonRpcRequest.format.Kept request ↔ request.params ≠ some .null := by
  simp [JsonRpcRequest.format]

theorem responseKept (response : JsonRpcResponse) : JsonRpcResponse.format.Kept response ↔
    response.result ≠ some .null ∧ ∀ e ∈ response.error, e.data ≠ some .null := by
  simp [JsonRpcResponse.format, JsonRpcError.format]

theorem roundTripIff (order : VarOrder) :
    (∀ request : JsonRpcRequest, JsonRpcRequest.format.decode (JsonRpcRequest.format.encode request) = some request ↔
      request.params ≠ some .null) ∧
    (∀ id result, JsonRpcResponse.format.decode (JsonRpcResponse.format.encode (.success id result)) =
      some (.success id result) ↔ result ≠ .null) ∧
    (∀ id code message data, JsonRpcResponse.format.decode
      (JsonRpcResponse.format.encode (.failure id code message data)) = some (.failure id code message data) ↔
        data ≠ some .null) ∧
    ∀ trigger : LoopTrigger, (LoopTrigger.format order).decode ((LoopTrigger.format order).encode trigger) =
      some trigger ↔ trigger.kind.Writable := by
  refine ⟨fun request => ?_, fun id result => ?_, fun id code message data => ?_, fun trigger => ?_⟩
  · exact (JsonRpcRequest.format.keptIff request).trans (requestKept request)
  · rw [JsonRpcResponse.format.keptIff, responseKept]
    simp [JsonRpcResponse.success]
  · rw [JsonRpcResponse.format.keptIff, responseKept]
    simp [JsonRpcResponse.failure]
  · exact ((LoopTrigger.format order).keptIff trigger).trans (triggerKept order trigger)

theorem nullResultLost :
    JsonRpcResponse.format.decode (JsonRpcResponse.format.encode (.success (.nat 1) .null)) =
      some { jsonrpc := "2.0", result := none, error := none, id := .nat 1 } ∧
    JsonRpcResponse.format.decode (JsonRpcResponse.format.encode (.success (.nat 1) .null)) ≠
      some (.success (.nat 1) .null) := by
  have arrives : JsonRpcResponse.format.decode (JsonRpcResponse.format.encode (.success (.nat 1) .null)) =
      some { jsonrpc := "2.0", result := none, error := none, id := .nat 1 } := rfl
  refine ⟨arrives, fun same => ?_⟩
  rw [arrives] at same
  exact Option.some_ne_none _ (congrArg JsonRpcResponse.result (Option.some.inj same)).symm

end ArosKernel.Dispatch
