import ArosKernel.Governor
import ArosKernel.Transition

/-! Whole runs of the governor with its tasks: a submission is the check and, if
admitted, the start at once; an end names a task that still runs. -/
namespace ArosKernel.Governor
open Transition Ledger

inductive Event where
  | submit (priority : Priority) (rssMb : UInt32) (tokensEstimate : UInt64)
  | taskEnded (task : Nat)
  | tokensUsed (priority : Priority) (count : UInt64)
  | resetHourlyTokens
  | updatePressure (level : MemoryPressureLevel)
  deriving DecidableEq, Repr

structure Books where
  gov : ResourceGovernor
  running : List Running

namespace Books

def start (config : GovernorConfig) : Books := ⟨.new config, []⟩

def step (s : Books) : Event → Option Books
  | .submit p rssMb tokens =>
    if s.gov.checkAdmission p rssMb tokens = .admitted then
      some ⟨s.gov.taskStarted p rssMb, s.running ++ [⟨p, rssMb⟩]⟩
    else some s
  | .taskEnded i => do
    let t ← s.running[i]?
    some ⟨s.gov.taskEnded t.priority t.rssMb, s.running.eraseIdx i⟩
  | .tokensUsed p count => some { s with gov := s.gov.tokensUsed p count }
  | .resetHourlyTokens => some { s with gov := s.gov.resetHourlyTokens }
  | .updatePressure level => some { s with gov := s.gov.updatePressure level }

structure Sound (config : GovernorConfig) (s : Books) : Prop where
  budgets : ∀ p, s.gov.tierBudgets p = some p.budget
  fixed : s.gov.config = config
  tracks : Tracks s.gov s.running
  fits : Fits config s.running

end Books

theorem Tracks.untouched {gov gov' : ResourceGovernor} {running : List Running} (tracks : Tracks gov running)
    (same : ∀ p u, gov.tierUsage p = some u → ∃ u', gov'.tierUsage p = some u' ∧ u'.activeTasks = u.activeTasks ∧
      u'.rssAllocatedMb = u.rssAllocatedMb) : Tracks gov' running := by
  refine ⟨fun p => ?_⟩
  obtain ⟨u, found, counted, summed⟩ := tracks.usage p
  obtain ⟨u', found', active, rss⟩ := same p u found
  exact ⟨u', found', active ▸ counted, rss ▸ summed⟩

theorem Tracks.tokensUsed {gov : ResourceGovernor} {running : List Running} (tracks : Tracks gov running) (p : Priority)
    (n : UInt64) : Tracks (gov.tokensUsed p n) running := by
  refine tracks.untouched (fun q u found => ?_)
  by_cases mine : q = p
  · subst q
    exact ⟨u.recordTokens n, by simp [ResourceGovernor.tokensUsed, found], rfl, rfl⟩
  · exact ⟨u, by rw [ResourceGovernor.tokensUsed, ResourceGovernor.recordOther gov mine, found], rfl, rfl⟩

theorem Tracks.resetHourlyTokens {gov : ResourceGovernor} {running : List Running} (tracks : Tracks gov running) :
    Tracks gov.resetHourlyTokens running :=
  tracks.untouched (fun q u found => ⟨u.resetHourlyTokens, by simp [ResourceGovernor.resetHourlyTokens, found], rfl, rfl⟩)

theorem Tracks.updatePressure {gov : ResourceGovernor} {running : List Running} (tracks : Tracks gov running)
    (level : MemoryPressureLevel) : Tracks (gov.updatePressure level) running :=
  tracks.untouched (fun _ u found => ⟨u, found, rfl, rfl⟩)

theorem Fits.ended {config : GovernorConfig} {running : List Running} (fits : Fits config running) {i : Nat}
    {t : Running} (at_ : running[i]? = some t) : Fits config (running.eraseIdx i) :=
  (fits.perm ((closePerm at_).symm.trans (List.perm_append_singleton t _).symm)).left

namespace Books

theorem startSound {config : GovernorConfig} (room : config.headroomMb ≤ config.systemRssCeilingMb) :
    Sound config (start config) :=
  ⟨fun _ => rfl, rfl, .new config, .empty room⟩

theorem stepSound {config : GovernorConfig} (s : Books) (event : Event) (t : Books) (sound : Sound config s)
    (next : step s event = some t) : Sound config t := by
  obtain ⟨budgets, same, tracks, fits⟩ := sound
  cases event with
  | submit p rssMb tokens =>
    simp only [step] at next
    split at next
    · rename_i admitted
      cases next
      have room := tracks.admitted budgets (same ▸ fits) (t := ⟨p, rssMb⟩) admitted
      exact ⟨budgets, same, tracks.startedFits room.toFitsTiers, same ▸ room⟩
    · cases next
      exact ⟨budgets, same, tracks, fits⟩
  | taskEnded i =>
    simp only [step, Option.bind_eq_bind, Option.bind_eq_some_iff] at next
    obtain ⟨task, at_, last⟩ := next
    cases last
    exact ⟨budgets, same, tracks.ended at_, fits.ended at_⟩
  | tokensUsed p count =>
    cases next
    exact ⟨budgets, same, tracks.tokensUsed p count, fits⟩
  | resetHourlyTokens =>
    cases next
    exact ⟨budgets, same, tracks.resetHourlyTokens, fits⟩
  | updatePressure level =>
    cases next
    exact ⟨budgets, same, tracks.updatePressure level, fits⟩

end Books

def ResourceGovernor.allocated (gov : ResourceGovernor) (p : Priority) : Nat :=
  ((gov.tierUsage p).map (fun u => u.rssAllocatedMb.toNat)).getD 0

theorem allocatedNone {gov : ResourceGovernor} {p : Priority} (found : gov.tierUsage p = none) : gov.allocated p = 0 := by
  rw [ResourceGovernor.allocated, found]
  rfl

theorem allocatedSome {gov : ResourceGovernor} {p : Priority} {u : TierUsage} (found : gov.tierUsage p = some u) :
    gov.allocated p = u.rssAllocatedMb.toNat := by
  rw [ResourceGovernor.allocated, found]
  rfl

theorem Tracks.allocated {gov : ResourceGovernor} {running : List Running} (tracks : Tracks gov running) :
    (∑ p, gov.allocated p) = rssTotal running := by
  rw [← sumRss]
  refine Finset.sum_congr rfl (fun p _ => ?_)
  obtain ⟨u, found, _, summed⟩ := tracks.usage p
  rw [allocatedSome found, summed]

theorem governorBooksExact {config : GovernorConfig} (room : config.headroomMb ≤ config.systemRssCeilingMb) {s : Books}
    (reached : Reachable Books.step (Books.start config) s) :
    (∀ p, ∃ u b, s.gov.tierUsage p = some u ∧ s.gov.tierBudgets p = some b ∧
      u.activeTasks.toNat = activeOf p s.running ∧ u.activeTasks.toNat ≤ b.maxConcurrent.toNat ∧
      u.rssAllocatedMb.toNat = rssOf p s.running ∧ u.rssAllocatedMb.toNat ≤ b.maxRssMb.toNat) ∧
    (∑ p, s.gov.allocated p) ≤ config.systemRssCeilingMb.toNat - config.headroomMb.toNat := by
  have sound := reachableInvariant Books.stepSound (Books.startSound room) reached
  constructor
  · intro p
    obtain ⟨u, found, counted, summed⟩ := sound.tracks.usage p
    exact ⟨u, p.budget, found, sound.budgets p, counted, counted ▸ sound.fits.concurrent p, summed,
      summed ▸ sound.fits.rss p⟩
  · rw [sound.tracks.allocated]
    have := sound.fits.system
    omega

-- The configuration `run_daemon` builds on a machine with 16 GB.
def daemonConfig : GovernorConfig := { systemRssCeilingMb := 14336, headroomMb := 2048 }

def busyHour : List Event :=
  [.submit .p1Normal 3000 100, .submit .p1Normal 2000 100, .submit .p2Background 1500 200, .taskEnded 0,
    .tokensUsed .p1Normal 2900, .submit .p1Normal 2000 50]

def busy : Books := (run Books.step (Books.start daemonConfig) busyHour).getD (Books.start daemonConfig)

example : (run Books.step (Books.start daemonConfig) busyHour).map Books.running =
    some [⟨.p2Background, 1500⟩, ⟨.p1Normal, 2000⟩] := by decide +kernel

theorem governorBooksExactBusy :
    (∀ p, ∃ u b, busy.gov.tierUsage p = some u ∧ busy.gov.tierBudgets p = some b ∧
      u.activeTasks.toNat = activeOf p busy.running ∧ u.activeTasks.toNat ≤ b.maxConcurrent.toNat ∧
      u.rssAllocatedMb.toNat = rssOf p busy.running ∧ u.rssAllocatedMb.toNat ≤ b.maxRssMb.toNat) ∧
    (∑ p, busy.gov.allocated p) ≤ daemonConfig.systemRssCeilingMb.toNat - daemonConfig.headroomMb.toNat :=
  governorBooksExact (by decide) (reachableEnd (by decide +kernel))

end ArosKernel.Governor
