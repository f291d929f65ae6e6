import ArosKernel.Governor
import ArosKernel.Duration
import ArosKernel.JsonFormat

/-! The task envelope of `envelope/task_envelope.rs`, its validation with the error
texts, and the JSON its derived codec gives it. -/
namespace ArosKernel.Envelope
open Governor JsonFormat

def envelopeVersion : UInt32 := 1

inductive SecurityZone where
  | green
  | yellow
  | red
  deriving DecidableEq, Repr

structure ResourceBudget where
  maxRssMb : UInt32
  maxWallTime : Duration
  maxTokens : UInt64
  budgetWarningThreshold : F64
  deriving DecidableEq, Repr

def ResourceBudget.default : ResourceBudget :=
  { maxRssMb := 512, maxWallTime := .ofSecs 300, maxTokens := 100000,
    budgetWarningThreshold := ⟨0x3FECCCCCCCCCCCCD⟩ }

structure ToolEndpoint where
  name : String
  socketPath : String
  capabilities : List String
  deriving DecidableEq, Repr

structure CheckpointPolicy where
  interval : Duration
  onToolCall : Bool
  deriving DecidableEq, Repr

def CheckpointPolicy.default : CheckpointPolicy := { interval := .ofSecs 60, onToolCall := true }

structure TaskSpec where
  title : String
  description : String
  workingDir : Option String
  envVars : HashMap String String
  maxRetries : UInt32
  deriving DecidableEq

structure TaskEnvelope where
  taskId : String
  parentDagId : String
  taskSpec : TaskSpec
  securityZone : SecurityZone
  priority : Priority
  resourceBudget : ResourceBudget
  toolEndpoints : List ToolEndpoint
  checkpointPolicy : CheckpointPolicy
  createdAt : String
  envelopeVersion : UInt32
  deriving DecidableEq

inductive EnvelopeError where
  | emptyTaskId
  | emptyDagId
  | unsupportedVersion (version : UInt32)
  | invalidBudget (message : String)
  deriving DecidableEq, Repr

def EnvelopeError.text : EnvelopeError → String
  | .emptyTaskId => "empty task_id"
  | .emptyDagId => "empty parent_dag_id"
  | .unsupportedVersion version => s!"unsupported envelope version: {version}"
  | .invalidBudget message => s!"invalid resource budget: {message}"

namespace TaskEnvelope

def new (taskId parentDagId : String) (taskSpec : TaskSpec) (securityZone : SecurityZone) (priority : Priority)
    (createdAt : String) : TaskEnvelope :=
  { taskId, parentDagId, taskSpec, securityZone, priority, resourceBudget := .default, toolEndpoints := [],
    checkpointPolicy := .default, createdAt, envelopeVersion := Envelope.envelopeVersion }

def validate (env : TaskEnvelope) : Except EnvelopeError Unit :=
  if env.taskId.isEmpty then .error .emptyTaskId
  else if env.parentDagId.isEmpty then .error .emptyDagId
  else if env.envelopeVersion != Envelope.envelopeVersion then .error (.unsupportedVersion env.envelopeVersion)
  else if F64.lt env.resourceBudget.budgetWarningThreshold F64.zero ||
      F64.lt F64.one env.resourceBudget.budgetWarningThreshold then
    .error (.invalidBudget "budget_warning_threshold must be between 0.0 and 1.0")
  else if env.resourceBudget.maxTokens == 0 then .error (.invalidBudget "max_tokens must be greater than 0")
  else if env.resourceBudget.maxRssMb == 0 then .error (.invalidBudget "max_rss_mb must be greater than 0")
  else if env.resourceBudget.maxWallTime.isZero then .error (.invalidBudget "max_wall_time must be greater than 0")
  else .ok ()

theorem guardOk {bad : Bool} {e : EnvelopeError} {rest : Except EnvelopeError Unit} :
    (if bad = true then .error e else rest) = .ok () ↔ bad = false ∧ rest = .ok () := by
  cases bad <;> simp

/- What an accepted envelope guarantees. A NaN threshold passes: both comparisons fail. -/
theorem validateOk {env : TaskEnvelope} : env.validate = .ok () ↔
    env.taskId.isEmpty = false ∧ env.parentDagId.isEmpty = false ∧ env.envelopeVersion = Envelope.envelopeVersion ∧
    (F64.lt env.resourceBudget.budgetWarningThreshold F64.zero = false ∧
      F64.lt F64.one env.resourceBudget.budgetWarningThreshold = false) ∧ env.resourceBudget.maxTokens ≠ 0 ∧
    env.resourceBudget.maxRssMb ≠ 0 ∧ env.resourceBudget.maxWallTime.isZero = false := by
  simp only [validate, guardOk, Bool.or_eq_false_iff, bne_eq_false_iff_eq, beq_eq_false_iff_ne, and_true]

theorem newValidates {taskId parentDagId : String} (named : taskId ≠ "") (owned : parentDagId ≠ "") (spec : TaskSpec)
    (zone : SecurityZone) (p : Priority) (createdAt : String) :
    (new taskId parentDagId spec zone p createdAt).validate = .ok () := by
  have budget : (new taskId parentDagId spec zone p createdAt).resourceBudget = .default := rfl
  rw [validateOk, budget]
  exact ⟨by simpa [new] using named, by simpa [new] using owned, rfl, by decide⟩

def running (env : TaskEnvelope) : Running := ⟨env.priority, env.resourceBudget.maxRssMb⟩

end TaskEnvelope

open Format Fields

def SecurityZone.text : SecurityZone → String
  | .green => "Green"
  | .yellow => "Yellow"
  | .red => "Red"

def SecurityZone.format : Format SecurityZone :=
  units text [.green, .yellow, .red] (fun z => by cases z <;> decide) (fun a b => by cases a <;> cases b <;> decide)

def priorityText : Priority → String
  | .p0Critical => "P0Critical"
  | .p1Normal => "P1Normal"
  | .p2Background => "P2Background"

def priorityFormat : Format Priority :=
  units priorityText [.p0Critical, .p1Normal, .p2Background] (fun p => by cases p <;> decide)
    (fun a b => by cases a <;> cases b <;> decide)

-- `Duration::new` carries whole seconds out of the nanoseconds.
def durationOf (p : UInt64 × UInt32) : Option Duration :=
  if fits : p.1.toNat * 1000000000 + p.2.toNat < 2 ^ 64 * 1000000000 then some ⟨_, fits⟩ else none

def durationParts (d : Duration) : UInt64 × UInt32 :=
  (UInt64.ofNat (d.nanos / 1000000000), UInt32.ofNat (d.nanos % 1000000000))

theorem durationBack (d : Duration) : durationOf (durationParts d) = some d := by
  have fits := d.fits
  have secs : (durationParts d).1.toNat = d.nanos / 1000000000 := by
    rw [durationParts, UInt64.toNat_ofNat', Nat.mod_eq_of_lt (by omega)]
  have nanos : (durationParts d).2.toNat = d.nanos % 1000000000 := by
    rw [durationParts, UInt32.toNat_ofNat', Nat.mod_eq_of_lt (by omega)]
  have sum : (durationParts d).1.toNat * 1000000000 + (durationParts d).2.toNat = d.nanos := by omega
  unfold durationOf
  simp only [sum, dif_pos fits]

def durationFields : Format (UInt64 × UInt32) :=
  object ((member "secs" u64).both (member "nanos" u32) ⟨rfl⟩)

theorem durationFormatBack (d : Duration) :
    (durationFields.decode (durationFields.encode (durationParts d))).bind durationOf = some d := by
  have kept : durationFields.decode (durationFields.encode (durationParts d)) = some (durationParts d) :=
    (durationFields.keptIff _).mpr ⟨trivial, trivial⟩
  rw [kept, Option.bind_some, durationBack]

def durationFormat : Format Duration :=
  total (fun d => durationFields.encode (durationParts d)) (fun v => (durationFields.decode v).bind durationOf)
    durationFormatBack

def ResourceBudget.format : Format ResourceBudget :=
  record
    ((member "max_rss_mb" u32).both
      ((member "max_wall_time" durationFormat).both
        ((member "max_tokens" u64).both (member "budget_warning_threshold" f64) ⟨rfl⟩) ⟨rfl⟩) ⟨rfl⟩)
    (fun b => (b.maxRssMb, b.maxWallTime, b.maxTokens, b.budgetWarningThreshold))
    (fun p => ⟨p.1, p.2.1, p.2.2.1, p.2.2.2⟩) (fun _ => rfl) (fun _ => rfl)

def ToolEndpoint.format : Format ToolEndpoint :=
  record
    ((member "name" string).both
      ((member "socket_path" string).both (member "capabilities" (list string)) ⟨rfl⟩) ⟨rfl⟩)
    (fun t => (t.name, t.socketPath, t.capabilities)) (fun p => ⟨p.1, p.2.1, p.2.2⟩) (fun _ => rfl) (fun _ => rfl)

def CheckpointPolicy.format : Format CheckpointPolicy :=
  record ((member "interval" durationFormat).both (member "on_tool_call" bool) ⟨rfl⟩)
    (fun c => (c.interval, c.onToolCall)) (fun p => ⟨p.1, p.2⟩) (fun _ => rfl) (fun _ => rfl)

def TaskSpec.format (order : HashMap.Order String String) : Format TaskSpec :=
  record
    ((member "title" string).both
      ((member "description" string).both
        ((optional "working_dir" string).both
          ((member "env_vars" (texts order)).both (member "max_retries" u32) ⟨rfl⟩) ⟨rfl⟩)
        ⟨rfl⟩) ⟨rfl⟩)
    (fun t => (t.title, t.description, t.workingDir, t.envVars, t.maxRetries))
    (fun p => ⟨p.1, p.2.1, p.2.2.1, p.2.2.2.1, p.2.2.2.2⟩) (fun _ => rfl) (fun _ => rfl)

def TaskEnvelope.format (order : HashMap.Order String String) : Format TaskEnvelope :=
  record
    ((member "task_id" string).both
      ((member "parent_dag_id" string).both
        ((member "task_spec" (TaskSpec.format order)).both
          ((member "security_zone" SecurityZone.format).both
            ((member "priority" priorityFormat).both
              ((member "resource_budget" ResourceBudget.format).both
                ((member "tool_endpoints" (list ToolEndpoint.format)).both
                  ((member "checkpoint_policy" CheckpointPolicy.format).both
                    ((member "created_at" string).both (member "envelope_version" u32) ⟨rfl⟩) ⟨rfl⟩)
                  ⟨rfl⟩) ⟨rfl⟩) ⟨rfl⟩) ⟨rfl⟩) ⟨rfl⟩) ⟨rfl⟩) ⟨rfl⟩)
    (fun e => (e.taskId, e.parentDagId, e.taskSpec, e.securityZone, e.priority, e.resourceBudget, e.toolEndpoints,
      e.checkpointPolicy, e.createdAt, e.envelopeVersion))
    (fun p => ⟨p.1, p.2.1, p.2.2.1, p.2.2.2.1, p.2.2.2.2.1, p.2.2.2.2.2.1, p.2.2.2.2.2.2.1, p.2.2.2.2.2.2.2.1,
      p.2.2.2.2.2.2.2.2.1, p.2.2.2.2.2.2.2.2.2⟩) (fun _ => rfl) (fun _ => rfl)

theorem envelopeKept (order : HashMap.Order String String) (env : TaskEnvelope) :
    (TaskEnvelope.format order).Kept env ↔ env.resourceBudget.budgetWarningThreshold.isFinite = true := by
  have spec : (TaskSpec.format order).Kept env.taskSpec := by simp [TaskSpec.format]
  have tools : ∀ t ∈ env.toolEndpoints, ToolEndpoint.format.Kept t := by simp [ToolEndpoint.format]
  have checkpoint : CheckpointPolicy.format.Kept env.checkpointPolicy := ⟨trivial, trivial⟩
  have zone : SecurityZone.format.Kept env.securityZone := trivial
  have priority : priorityFormat.Kept env.priority := trivial
  have budget : ResourceBudget.format.Kept env.resourceBudget ↔
      env.resourceBudget.budgetWarningThreshold.isFinite = true := by
    have wall : durationFormat.Kept env.resourceBudget.maxWallTime := trivial
    simp [ResourceBudget.format, wall]
  rw [← budget]
  simp only [TaskEnvelope.format, recordKept, bothKept, memberKept, stringKept, u32Kept, listKept, true_and, and_true]
  exact ⟨fun kept => kept.2.2.2.1, fun kept => ⟨spec, zone, priority, kept, tools, checkpoint⟩⟩

end ArosKernel.Envelope
