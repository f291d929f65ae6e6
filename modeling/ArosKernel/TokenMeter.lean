import ArosKernel.TokenBudget

/-! The hourly token counter against the exact sum of what was reported since it was
last reset. The counter is that sum in 64 bits, so a large sum can look small. -/
namespace ArosKernel.Governor
open Transition

inductive MeterEvent where
  | tokensUsed (priority : Priority) (count : UInt64)
  | resetHourlyTokens
  | taskStarted (priority : Priority) (rssMb : UInt32)
  | taskEnded (priority : Priority) (rssMb : UInt32)
  | updatePressure (level : MemoryPressureLevel)
  deriving DecidableEq, Repr

structure Meter where
  gov : ResourceGovernor
  reported : Priority → Nat

namespace Meter

def start (config : GovernorConfig) : Meter := ⟨.new config, fun _ => 0⟩

def step (s : Meter) : MeterEvent → Option Meter
  | .tokensUsed p count => some ⟨s.gov.tokensUsed p count, Function.update s.reported p (s.reported p + count.toNat)⟩
  | .resetHourlyTokens => some ⟨s.gov.resetHourlyTokens, fun _ => 0⟩
  | .taskStarted p rssMb => some { s with gov := s.gov.taskStarted p rssMb }
  | .taskEnded p rssMb => some { s with gov := s.gov.taskEnded p rssMb }
  | .updatePressure level => some { s with gov := s.gov.updatePressure level }

def Exhausted (s : Meter) (p : Priority) : Prop := s.gov.tokenCap p < s.reported p

def Closed (s : Meter) : Prop :=
  ∀ p, s.Exhausted p → ∀ rssMb tokensEstimate, s.gov.checkAdmission p rssMb tokensEstimate ≠ .admitted

instance (s : Meter) (p : Priority) : Decidable (s.Exhausted p) := inferInstanceAs (Decidable (_ < _))

end Meter

def ResourceGovernor.HasRoom (gov : ResourceGovernor) (p : Priority) : Prop :=
  ∃ b u, gov.tierBudgets p = some b ∧ gov.tierUsage p = some u ∧
    ¬ (gov.pressureLevel = .critical ∧ b.sheddable = true) ∧ u.activeTasks < b.maxConcurrent.toUInt64 ∧
    ∃ rssMb : UInt32, u.rssAllocatedMb + rssMb.toUInt64 ≤ b.maxRssMb.toUInt64 ∧
      gov.totalRss + rssMb.toUInt64 ≤ gov.config.ceiling

namespace Meter

-- A sum over the cap is still over it in the counter's 64 bits, or the tier is full anyway.
def Shows (s : Meter) : Prop :=
  ∀ p, s.Exhausted p → s.gov.HasRoom p → s.gov.tokenCap p < s.reported p % 2 ^ 64

structure Metered (s : Meter) : Prop where
  usage : ∀ p, (s.gov.tierUsage p).isSome
  counted : ∀ p, s.gov.tokensRecorded p = s.reported p % 2 ^ 64

theorem startMetered (config : GovernorConfig) : Metered (start config) := ⟨fun _ => rfl, fun _ => rfl⟩

theorem stepMetered (s : Meter) (event : MeterEvent) (t : Meter) (metered : s.Metered) (next : s.step event = some t) :
    t.Metered := by
  obtain ⟨usage, counted⟩ := metered
  cases event with
  | tokensUsed p count =>
    cases next
    refine ⟨fun q => ResourceGovernor.recordSome (usage q) p _, fun q => ?_⟩
    by_cases mine : q = p
    · subst q
      have added : Function.update s.reported p (s.reported p + count.toNat) p = s.reported p + count.toNat :=
        Function.update_self ..
      rw [ResourceGovernor.recordedWraps (usage p), counted, Nat.mod_add_mod]
      exact (congrArg (· % 2 ^ 64) added).symm
    · have kept : Function.update s.reported p (s.reported p + count.toNat) q = s.reported q := Function.update_of_ne mine ..
      rw [ResourceGovernor.recordedOther s.gov mine, counted q]
      exact (congrArg (· % 2 ^ 64) kept).symm
  | resetHourlyTokens =>
    cases next
    refine ⟨fun q => ?_, fun q => ?_⟩
    · rw [ResourceGovernor.resetHourlyTokens, Option.isSome_map]
      exact usage q
    · simp only [ResourceGovernor.tokensRecorded, ResourceGovernor.resetHourlyTokens, Option.map_map]
      cases s.gov.tierUsage q with
      | none => rfl
      | some u => rfl
  | taskStarted p rssMb =>
    cases next
    exact ⟨fun q => ResourceGovernor.recordSome (usage q) p _, fun q =>
      (s.gov.recordedStarted p rssMb q).trans (counted q)⟩
  | taskEnded p rssMb =>
    cases next
    exact ⟨fun q => ResourceGovernor.recordSome (usage q) p _, fun q => (s.gov.recordedEnded p rssMb q).trans (counted q)⟩
  | updatePressure level =>
    cases next
    exact ⟨usage, counted⟩

end Meter

namespace ResourceGovernor

theorem saturatingAddLe (a b : UInt64) : a ≤ saturatingAdd a b := by
  unfold saturatingAdd
  split
  · assumption
  · rw [UInt64.le_iff_toNat_le]
    exact Nat.le_of_lt_succ a.toNat_lt

theorem saturatingAddZero (a : UInt64) : saturatingAdd a 0 = a := by
  rw [saturatingAdd, UInt64.add_zero, if_pos (UInt64.le_refl a)]

theorem admitsIff {gov : ResourceGovernor} {p : Priority} :
    (∃ rssMb tokens, gov.checkAdmission p rssMb tokens = .admitted) ↔
      gov.HasRoom p ∧ gov.tokensRecorded p ≤ gov.tokenCap p := by
  constructor
  · rintro ⟨rssMb, tokens, admitted⟩
    obtain ⟨b, u, budget, usage, calm, free, within, tier, system⟩ := admittedIff.mp admitted
    refine ⟨⟨b, u, budget, usage, calm, free, rssMb, tier, system⟩, ?_⟩
    have least := UInt64.le_iff_toNat_le.mp (UInt64.le_trans (saturatingAddLe _ tokens) within)
    simpa only [tokensRecorded, tokenCap, budget, usage, Option.map_some, Option.getD_some] using least
  · rintro ⟨⟨b, u, budget, usage, calm, free, rssMb, tier, system⟩, within⟩
    refine ⟨rssMb, 0, admittedIff.mpr ⟨b, u, budget, usage, calm, free, ?_, tier, system⟩⟩
    rw [saturatingAddZero, UInt64.le_iff_toNat_le]
    simpa only [tokensRecorded, tokenCap, budget, usage, Option.map_some, Option.getD_some] using within

end ResourceGovernor

namespace Meter

theorem Metered.closedIff {s : Meter} (metered : s.Metered) : s.Closed ↔ s.Shows := by
  constructor
  · intro closed p exhausted room
    refine Nat.lt_of_not_le (fun small => ?_)
    rw [← metered.counted] at small
    obtain ⟨rssMb, tokens, admitted⟩ := ResourceGovernor.admitsIff.mpr ⟨room, small⟩
    exact closed p exhausted rssMb tokens admitted
  · intro shows p exhausted rssMb tokens admitted
    obtain ⟨room, within⟩ := ResourceGovernor.admitsIff.mp ⟨rssMb, tokens, admitted⟩
    have seen := shows p exhausted room
    rw [← metered.counted] at seen
    exact Nat.not_lt.mpr within seen

theorem closedIffShows (config : GovernorConfig) (events : List MeterEvent) :
    Always step Closed (start config) events ↔ Always step Shows (start config) events := by
  have metered : ∀ taken t, run step (start config) taken = some t → t.Metered :=
    fun taken t ran => reachableInvariant stepMetered (startMetered config) ⟨taken, ran⟩
  rw [alwaysIff, alwaysIff]
  constructor
  · intro closed taken inside t ran
    exact (metered taken t ran).closedIff.mp (closed taken inside t ran)
  · intro shows taken inside t ran
    exact (metered taken t ran).closedIff.mpr (shows taken inside t ran)

def wrapped : List MeterEvent := [.resetHourlyTokens, .tokensUsed .p1Normal 0xFFFFFFFFFFFFFFFF, .tokensUsed .p1Normal 1]

theorem exhaustedReopens : ¬ Always step Closed (start daemonConfig) wrapped := by
  intro closed
  have ends : run step (start daemonConfig) wrapped = some ((run step (start daemonConfig) wrapped).getD (start daemonConfig)) := rfl
  have last := alwaysIff.mp closed _ (List.prefix_refl _) _ ends
  exact last .p1Normal (by decide +kernel) 512 100000 (by decide +kernel)

end Meter
end ArosKernel.Governor
