import ArosKernel.Handler
import ArosKernel.GovernorRuns
import Mathlib.Data.String.Basic

/-! The books of the request handler. A submission opens an entry, a completion should
close it; the handler closes another one, so the books are right exactly as long as no
completion is accepted. -/
namespace ArosKernel.Supervisor
open Governor Envelope Ledger Transition KernelRequestHandler

inductive Request where
  | submit (params : Option Value)
  | register (taskId socketPath : String)
  | complete (params : Option Value)

structure Traffic where
  handler : KernelRequestHandler
  admitted : List TaskEnvelope
  unfinished : List TaskEnvelope

namespace Traffic

def start (config : GovernorConfig) : Traffic := ⟨⟨.new config, ∅⟩, [], []⟩

def finish (taskId : String) (unfinished : List TaskEnvelope) : List TaskEnvelope :=
  match unfinished.findIdx? (fun env => env.taskId == taskId) with
  | some i => unfinished.eraseIdx i
  | none => unfinished

/- `register` is the spawn step, which follows an admission. -/
def step (fromValue : Value → Except String TaskEnvelope) (s : Traffic) : Request → Option Traffic
  | .submit params =>
    let handler := (handleTaskSubmit fromValue s.handler params).2
    match admits fromValue s.handler.governor params with
    | some env => some ⟨handler, s.admitted ++ [env], s.unfinished ++ [env]⟩
    | none => some { s with handler }
  | .register taskId socketPath =>
    if taskId ∈ s.admitted.map TaskEnvelope.taskId then
      some { s with handler := s.handler.register taskId socketPath }
    else none
  | .complete params =>
    let handler := (handleTaskComplete s.handler params).2
    match completes s.handler.taskRegistry params with
    | some taskId => some { s with handler, unfinished := finish taskId s.unfinished }
    | none => some { s with handler }

def running (s : Traffic) : List Running := s.unfinished.map TaskEnvelope.running

def Conserved (s : Traffic) : Prop := Tracks s.handler.governor s.running

def Refuses (s : Traffic) : Request → Prop
  | .complete params => completes s.handler.taskRegistry params = none
  | _ => True

structure Sound (s : Traffic) : Prop where
  budgets : ∀ p, s.handler.governor.tierBudgets p = some p.budget
  tracks : Tracks s.handler.governor s.running
  fits : FitsTiers s.running
  sized : ∀ env ∈ s.unfinished, env.resourceBudget.maxRssMb ≠ 0

variable {fromValue : Value → Except String TaskEnvelope}

theorem startSound (config : GovernorConfig) : Sound (start config) :=
  ⟨fun _ => rfl, .new config, .empty, by simp [start]⟩

theorem stepSound (s : Traffic) (request : Request) (t : Traffic) (sound : Sound s) (refuses : s.Refuses request)
    (next : step fromValue s request = some t) : Sound t := by
  obtain ⟨budgets, tracks, fits, sized⟩ := sound
  cases request with
  | submit params =>
    simp only [step, submitState] at next
    cases admission : admits fromValue s.handler.governor params with
    | none =>
      simp only [admission, Option.some.injEq] at next
      subst next
      exact ⟨budgets, tracks, fits, sized⟩
    | some env =>
      simp only [admission, Option.some.injEq] at next
      subst next
      obtain ⟨read, admitted⟩ := admitsIff.mp admission
      have room := tracks.admittedTiers budgets fits (t := env.running) admitted
      have grown : running ⟨{ s.handler with governor := KernelRequestHandler.start s.handler.governor env },
          s.admitted ++ [env], s.unfinished ++ [env]⟩ = s.running ++ [env.running] := by simp [running]
      refine ⟨budgets, ?_, grown ▸ room, fun e member => ?_⟩
      · rw [grown]
        exact tracks.startedFits room
      · rcases List.mem_append.mp member with old | new
        · exact sized e old
        · rw [List.mem_singleton.mp new]
          exact (TaskEnvelope.validateOk.mp (submitParamsValid read)).2.2.2.2.2.1
  | register taskId socketPath =>
    simp only [step] at next
    split at next
    · cases next
      exact ⟨budgets, tracks, fits, sized⟩
    · contradiction
  | complete params =>
    rcases completeState s.handler params with ⟨none_, same⟩ | ⟨taskId, tokensUsed, accepted, _⟩
    · simp only [step, none_, same, Option.some.injEq] at next
      subst next
      exact ⟨budgets, tracks, fits, sized⟩
    · simp only [Refuses, accepted, reduceCtorEq] at refuses

theorem releaseCounters {gov : ResourceGovernor} {running : List Running} (tracks : Tracks gov running)
    (tokensUsed : UInt64) (p : Priority) : ∃ u u', gov.tierUsage p = some u ∧
      (releaseBudget gov tokensUsed).tierUsage p = some u' ∧ u'.rssAllocatedMb = u.rssAllocatedMb ∧
      (p = .p1Normal → u'.activeTasks = u.activeTasks - 1) := by
  obtain ⟨u, found, _⟩ := tracks.usage p
  have kept : saturatingSub u.rssAllocatedMb (UInt32.toUInt64 0) = u.rssAllocatedMb := by
    simp [saturatingSub]
  unfold releaseBudget
  by_cases mine : p = .p1Normal
  · subst p
    refine ⟨u, ?_⟩
    dsimp only
    split
    · exact ⟨(u.recordTaskEnd 0).recordTokens tokensUsed, found,
        by simp [ResourceGovernor.tokensUsed, ResourceGovernor.taskEnded, found], kept, fun _ => rfl⟩
    · exact ⟨u.recordTaskEnd 0, found, by simp [ResourceGovernor.taskEnded, found], kept, fun _ => rfl⟩
  · refine ⟨u, u, found, ?_, rfl, fun same => absurd same mine⟩
    dsimp only
    split
    · rw [ResourceGovernor.tokensUsed, ResourceGovernor.recordOther _ mine, ResourceGovernor.taskEnded,
        ResourceGovernor.recordOther _ mine, found]
    · rw [ResourceGovernor.taskEnded, ResourceGovernor.recordOther _ mine, found]

theorem releaseLosesTask {gov : ResourceGovernor} {running : List Running} (tracks : Tracks gov running)
    (tokensUsed : UInt64) : ¬ Tracks (releaseBudget gov tokensUsed) running := by
  intro after
  obtain ⟨u, u', before, released, _, active⟩ := releaseCounters tracks tokensUsed .p1Normal
  obtain ⟨v, found, counted, _⟩ := tracks.usage .p1Normal
  obtain ⟨v', found', counted', _⟩ := after.usage .p1Normal
  rw [before] at found
  rw [released] at found'
  cases found
  cases found'
  have same : u'.activeTasks = u.activeTasks := UInt64.toNat_inj.mp (counted'.trans counted.symm)
  rw [active rfl] at same
  simp at same

theorem releaseKeepsSize {gov : ResourceGovernor} {running : List Running} (tracks : Tracks gov running)
    (tokensUsed : UInt64) {i : Nat} {t : Running} (at_ : running[i]? = some t) (sized : t.rssMb ≠ 0) :
    ¬ Tracks (releaseBudget gov tokensUsed) (running.eraseIdx i) := by
  intro after
  obtain ⟨u, u', before, released, rss, _⟩ := releaseCounters tracks tokensUsed t.priority
  obtain ⟨v, found, _, summed⟩ := tracks.usage t.priority
  obtain ⟨v', found', _, summed'⟩ := after.usage t.priority
  rw [before] at found
  rw [released] at found'
  cases found
  cases found'
  rw [rss, summed, rssOf, owedClose at_, if_pos rfl] at summed'
  have positive : 0 < t.mb := by
    rw [Running.mb, Nat.pos_iff_ne_zero]
    exact fun zero => sized (UInt32.toNat_inj.mp zero)
  dsimp only [rssOf] at summed'
  omega

theorem completeBreaks {s t : Traffic} (sound : Sound s) {params : Option Value} {taskId : String}
    (accepted : completes s.handler.taskRegistry params = some taskId)
    (next : step fromValue s (.complete params) = some t) : ¬ t.Conserved := by
  rcases completeState s.handler params with ⟨refused, _⟩ | ⟨id, tokensUsed, accepted', state⟩
  · rw [accepted] at refused
    cases refused
  · simp only [step, accepted, state, Option.some.injEq] at next
    subst next
    unfold Conserved running
    cases index : s.unfinished.findIdx? (fun env => env.taskId == taskId) with
    | none =>
      simp only [finish, index]
      exact releaseLosesTask sound.tracks tokensUsed
    | some i =>
      obtain ⟨lt, _⟩ := List.findIdx?_eq_some_iff_getElem.mp index
      have entry : s.running[i]? = some s.unfinished[i].running := by simp [running, List.getElem?_eq_getElem lt]
      simp only [finish, index]
      rw [← List.eraseIdx_map]
      exact releaseKeepsSize sound.tracks tokensUsed entry (sound.sized _ (List.getElem_mem lt))

theorem conservedIffNoCompletion (config : GovernorConfig) (requests : List Request) :
    Always (step fromValue) Conserved (start config) requests ↔ Meets (step fromValue) Refuses (start config) requests := by
  refine alwaysIffMeets stepSound (fun s sound => sound.tracks) (fun s request sound after => ?_) (startSound config)
  cases request with
  | submit params => trivial
  | register taskId socketPath => trivial
  | complete params =>
    rcases completeState s.handler params with ⟨refused, _⟩ | ⟨taskId, _, accepted, _⟩
    · exact refused
    · have next : ∃ t, step fromValue s (.complete params) = some t := by simp [step, accepted]
      obtain ⟨t, next⟩ := next
      exact absurd (after t next) (completeBreaks sound accepted next)

end Traffic

def sampleEnvelope (taskId priority : String) (rssMb : UInt64) : Value :=
  .object [("task_id", .string taskId), ("parent_dag_id", .string "dag-1"),
    ("task_spec", .object [("title", .string "t"), ("description", .string "d"), ("working_dir", .null),
      ("env_vars", .object []), ("max_retries", .nat 0)]),
    ("security_zone", .string "Green"), ("priority", .string priority),
    ("resource_budget", .object [("max_rss_mb", .nat rssMb),
      ("max_wall_time", .object [("secs", .nat 300), ("nanos", .nat 0)]), ("max_tokens", .nat 1000),
      ("budget_warning_threshold", .number (.float ⟨0x3FECCCCCCCCCCCCD⟩))]),
    ("tool_endpoints", .array []),
    ("checkpoint_policy", .object [("interval", .object [("secs", .nat 60), ("nanos", .nat 0)]),
      ("on_tool_call", .bool true)]),
    ("created_at", .string "2026-01-01T00:00:00Z"), ("envelope_version", .nat 1)]

def readEnvelope (v : Value) : Except String TaskEnvelope :=
  match (TaskEnvelope.format .sorted).decode v with
  | some env => .ok env
  | none => .error "invalid type"

namespace Traffic

def criticalLife : List Request :=
  [.submit (some (sampleEnvelope "t1" "P0Critical" 256)), .register "t1" "/tmp/loop1-t1.sock",
    .complete (some (.object [("task_id", .string "t1"), ("dag_id", .string "dag-1")]))]

theorem conservationFailsCritical :
    ∃ t, run (step readEnvelope) (start daemonConfig) criticalLife = some t ∧ t.unfinished = [] ∧
      t.handler.governor.tierUsage .p0Critical = some ⟨1, 0, 256⟩ ∧
      t.handler.governor.tierUsage .p1Normal = some ⟨0xFFFFFFFFFFFFFFFF, 0, 0⟩ ∧ ¬ t.Conserved := by
  have counters : (run (step readEnvelope) (start daemonConfig) criticalLife).map (fun t =>
      (t.unfinished, t.handler.governor.tierUsage .p0Critical, t.handler.governor.tierUsage .p1Normal)) =
      some ([], some ⟨1, 0, 256⟩, some ⟨0xFFFFFFFFFFFFFFFF, 0, 0⟩) := by decide +kernel
  obtain ⟨t, ran, same⟩ := Option.map_eq_some_iff.mp counters
  simp only [Prod.mk.injEq] at same
  refine ⟨t, ran, same.1, same.2.1, same.2.2, fun conserved => ?_⟩
  obtain ⟨u, found, counted, _⟩ := conserved.usage .p0Critical
  rw [same.2.1] at found
  cases found
  simp [activeOf, running, same.1] at counted

end Traffic
end ArosKernel.Supervisor
