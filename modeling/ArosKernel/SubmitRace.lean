import ArosKernel.HandlerRuns

/-! Submissions on concurrent connections. The check and the accounting of a request
are two steps, and other requests can be checked between them against counters that do
not show it yet. -/
namespace ArosKernel.Supervisor
open Governor Envelope Ledger Transition KernelRequestHandler

structure Connections where
  governor : ResourceGovernor
  waiting : List Running
  started : List Running

inductive Half where
  | check (params : Option Value)
  | start (request : Nat)

structure Limits (config : GovernorConfig) (gov : ResourceGovernor) : Prop where
  tiers : ∀ p, ∃ u b, gov.tierUsage p = some u ∧ gov.tierBudgets p = some b ∧
    u.activeTasks.toNat ≤ b.maxConcurrent.toNat ∧ u.rssAllocatedMb.toNat ≤ b.maxRssMb.toNat
  system : (∑ p, gov.allocated p) + config.headroomMb.toNat ≤ config.systemRssCeilingMb.toNat

namespace Connections

def opening (config : GovernorConfig) (level : MemoryPressureLevel) : Connections :=
  ⟨(ResourceGovernor.new config).updatePressure level, [], []⟩

def step (fromValue : Value → Except String TaskEnvelope) (s : Connections) : Half → Option Connections
  | .check params =>
    match admits fromValue s.governor params with
    | some env => some { s with waiting := s.waiting ++ [env.running] }
    | none => some s
  | .start i => do
    let t ← s.waiting[i]?
    some ⟨s.governor.taskStarted t.priority t.rssMb, s.waiting.eraseIdx i, s.started ++ [t]⟩

structure Welcome (config : GovernorConfig) (s : Connections) (env : TaskEnvelope) : Prop where
  calm : ¬ (s.governor.pressureLevel = .critical ∧ env.priority.budget.sheddable = true)
  tokens : env.resourceBudget.maxTokens ≤ env.priority.budget.maxTokensPerHour
  room : Fits config (s.started ++ [env.running])

def Roomy (fromValue : Value → Except String TaskEnvelope) (config : GovernorConfig) (s : Connections) : Half → Prop
  | .check params => ∀ env, submitParams fromValue params = .ok env → Welcome config s env →
      Fits config (s.started ++ s.waiting ++ [env.running])
  | .start _ => True

instance (config : GovernorConfig) (s : Connections) (env : TaskEnvelope) : Decidable (Welcome config s env) :=
  decidable_of_iff (¬ (s.governor.pressureLevel = .critical ∧ env.priority.budget.sheddable = true) ∧
    env.resourceBudget.maxTokens ≤ env.priority.budget.maxTokensPerHour ∧ Fits config (s.started ++ [env.running]))
    ⟨fun h => ⟨h.1, h.2.1, h.2.2⟩, fun h => ⟨h.1, h.2, h.3⟩⟩

instance (fromValue : Value → Except String TaskEnvelope) (config : GovernorConfig) (s : Connections) :
    (half : Half) → Decidable (Roomy fromValue config s half)
  | .check params =>
    match read : submitParams fromValue params with
    | .error _ => isTrue (by simp [Roomy, read])
    | .ok env =>
      decidable_of_iff (Welcome config s env → Fits config (s.started ++ s.waiting ++ [env.running])) (by simp [Roomy, read])
  | .start _ => isTrue trivial

structure Sound (config : GovernorConfig) (s : Connections) : Prop where
  budgets : ∀ p, s.governor.tierBudgets p = some p.budget
  fixed : s.governor.config = config
  tracks : Tracks s.governor s.started
  fits : Fits config (s.started ++ s.waiting)

variable {fromValue : Value → Except String TaskEnvelope} {config : GovernorConfig}

theorem openingSound (room : config.headroomMb ≤ config.systemRssCeilingMb) (level : MemoryPressureLevel) :
    Sound config (opening config level) :=
  ⟨fun _ => rfl, rfl, (Tracks.new config).updatePressure level, .empty room⟩

theorem Sound.welcome {s : Connections} (sound : Sound config s) {env : TaskEnvelope}
    (admitted : checkEnvelope s.governor env = .admitted) : Welcome config s env := by
  obtain ⟨b, u, budget, _, calm, _, tokens, _, _⟩ := ResourceGovernor.admittedIff.mp admitted
  rw [sound.budgets] at budget
  cases Option.some.inj budget
  have fits : Fits s.governor.config s.started := sound.fixed ▸ sound.fits.left
  refine ⟨calm, UInt64.le_trans (ResourceGovernor.leSaturatingAdd _ _) tokens, ?_⟩
  exact sound.fixed ▸ sound.tracks.admitted sound.budgets fits (t := env.running) admitted

theorem stepSound (s : Connections) (half : Half) (t : Connections) (sound : Sound config s)
    (roomy : Roomy fromValue config s half) (next : step fromValue s half = some t) : Sound config t := by
  cases half with
  | check params =>
    simp only [step] at next
    cases admission : admits fromValue s.governor params with
    | none =>
      simp only [admission, Option.some.injEq] at next
      exact next ▸ sound
    | some env =>
      simp only [admission, Option.some.injEq] at next
      subst next
      obtain ⟨read, admitted⟩ := admitsIff.mp admission
      have fits := roomy env read (sound.welcome admitted)
      rw [List.append_assoc] at fits
      exact ⟨sound.budgets, sound.fixed, sound.tracks, fits⟩
  | start i =>
    simp only [step, Option.bind_eq_bind, Option.bind_eq_some_iff] at next
    obtain ⟨task, at_, last⟩ := next
    cases last
    have moved : (s.started ++ s.waiting).Perm (s.started ++ [task] ++ s.waiting.eraseIdx i) := by
      rw [List.append_assoc]
      exact (closePerm at_).symm.append_left s.started
    have fits := sound.fits.perm moved
    exact ⟨sound.budgets, sound.fixed, sound.tracks.startedFits fits.left.toFitsTiers, fits⟩

theorem Sound.limits {s : Connections} (sound : Sound config s) : Limits config s.governor := by
  have fits := sound.fits.left
  refine ⟨fun p => ?_, ?_⟩
  · obtain ⟨u, found, counted, summed⟩ := sound.tracks.usage p
    exact ⟨u, p.budget, found, sound.budgets p, counted ▸ fits.concurrent p, summed ▸ fits.rss p⟩
  · rw [sound.tracks.allocated]
    exact fits.system

theorem submitHalves (h : KernelRequestHandler) (params : Option Value) (started : List Running) :
    ∃ halves : List Half, ∃ after, run (step fromValue) ⟨h.governor, [], started⟩ halves =
      some ⟨(handleTaskSubmit fromValue h params).2.governor, [], after⟩ ∧ halves.head? = some (.check params) := by
  rw [submitState]
  cases admission : admits fromValue h.governor params with
  | none => exact ⟨[.check params], started, by simp [run, step, admission], rfl⟩
  | some env =>
    exact ⟨[.check params, .start 0], started ++ [env.running],
      by simp [run, step, admission, KernelRequestHandler.start, TaskEnvelope.running], rfl⟩

theorem limitsKeptWhenRoomy (room : config.headroomMb ≤ config.systemRssCeilingMb) (level : MemoryPressureLevel)
    {halves : List Half} (roomy : Meets (step fromValue) (Roomy fromValue config) (opening config level) halves) :
    Always (step fromValue) (fun s => Limits config s.governor) (opening config level) halves :=
  alwaysOfMeets stepSound (fun _ sound => sound.limits) (openingSound room level) roomy

def friendly : List Half :=
  [.check (some (sampleEnvelope "t1" "P1Normal" 1000)), .check (some (sampleEnvelope "t2" "P1Normal" 2000)),
    .start 0, .start 0]

theorem limitsKeptWhenRoomyFriendly :
    Always (step readEnvelope) (fun s => Limits daemonConfig s.governor) (opening daemonConfig .normal) friendly :=
  limitsKeptWhenRoomy (by decide) .normal (by decide +kernel)

def rivals : List Half :=
  [.check (some (sampleEnvelope "t1" "P1Normal" 3000)), .check (some (sampleEnvelope "t2" "P1Normal" 3000)),
    .start 0, .start 0]

theorem limitsBreakRivals :
    ∃ t, run (step readEnvelope) (opening daemonConfig .normal) rivals = some t ∧
      t.governor.tierUsage .p1Normal = some ⟨2, 0, 6000⟩ ∧ ¬ Limits daemonConfig t.governor := by
  have counters : (run (step readEnvelope) (opening daemonConfig .normal) rivals).map (fun t =>
      (t.governor.tierUsage .p1Normal, t.governor.tierBudgets .p1Normal)) =
      some (some ⟨2, 0, 6000⟩, some TierBudget.p1Normal) := by decide +kernel
  obtain ⟨t, ran, same⟩ := Option.map_eq_some_iff.mp counters
  simp only [Prod.mk.injEq] at same
  refine ⟨t, ran, same.1, fun limits => ?_⟩
  obtain ⟨u, b, usage, budget, _, rss⟩ := limits.tiers .p1Normal
  rw [same.1] at usage
  rw [same.2] at budget
  cases usage
  cases budget
  exact absurd rss (by decide)

end Connections
end ArosKernel.Supervisor
