import ArosKernel.Ledger
import Mathlib.Data.UInt

/-! The resource governor of `governor/governor.rs` and `governor/budget.rs`. The usage
counters are atomics that wrap. A map over the three priorities is a function to
`Option`, and a sum over its values takes the tiers that are present. -/
namespace ArosKernel.Governor
open Ledger

inductive Priority where
  | p0Critical
  | p1Normal
  | p2Background
  deriving DecidableEq, Repr

instance : Fintype Priority := ⟨{.p0Critical, .p1Normal, .p2Background}, fun p => by cases p <;> decide⟩

inductive MemoryPressureLevel where
  | normal
  | warn
  | critical
  deriving DecidableEq, Repr

-- By severity, as `worse` compares two levels.
def MemoryPressureLevel.ordinal : MemoryPressureLevel → Nat
  | .normal => 0
  | .warn => 1
  | .critical => 2

structure TierBudget where
  maxConcurrent : UInt32
  maxTokensPerHour : UInt64
  maxRssMb : UInt32
  sheddable : Bool
  deriving DecidableEq, Repr

namespace TierBudget

def p0Critical : TierBudget :=
  { maxConcurrent := 2, maxTokensPerHour := 50000, maxRssMb := 512, sheddable := false }

def p1Normal : TierBudget :=
  { maxConcurrent := 4, maxTokensPerHour := 500000, maxRssMb := 4096, sheddable := false }

def p2Background : TierBudget :=
  { maxConcurrent := 2, maxTokensPerHour := 200000, maxRssMb := 2048, sheddable := true }

end TierBudget

structure TierUsage where
  activeTasks : UInt64
  tokensUsedThisHour : UInt64
  rssAllocatedMb : UInt64
  deriving DecidableEq, Repr

def saturatingSub (a b : UInt64) : UInt64 := if b ≤ a then a - b else 0
def saturatingAdd (a b : UInt64) : UInt64 := if a ≤ a + b then a + b else 0xFFFFFFFFFFFFFFFF

namespace TierUsage

def new : TierUsage := ⟨0, 0, 0⟩

def recordTaskStart (u : TierUsage) (rssMb : UInt64) : TierUsage :=
  { u with activeTasks := u.activeTasks + 1, rssAllocatedMb := u.rssAllocatedMb + rssMb }

def recordTaskEnd (u : TierUsage) (rssMb : UInt64) : TierUsage :=
  { u with activeTasks := u.activeTasks - 1, rssAllocatedMb := saturatingSub u.rssAllocatedMb rssMb }

def recordTokens (u : TierUsage) (count : UInt64) : TierUsage :=
  { u with tokensUsedThisHour := u.tokensUsedThisHour + count }

def resetHourlyTokens (u : TierUsage) : TierUsage := { u with tokensUsedThisHour := 0 }

end TierUsage

structure GovernorConfig where
  systemRssCeilingMb : UInt32
  headroomMb : UInt32
  deriving DecidableEq, Repr

def GovernorConfig.ceiling (config : GovernorConfig) : UInt64 :=
  config.systemRssCeilingMb.toUInt64 - config.headroomMb.toUInt64

inductive AdmissionDecision where
  | admitted
  | queued (reason : String)
  | throttled (reason : String)
  | shed (reason : String)
  deriving DecidableEq, Repr

structure ResourceGovernor where
  tierBudgets : Priority → Option TierBudget
  tierUsage : Priority → Option TierUsage
  pressureLevel : MemoryPressureLevel
  config : GovernorConfig

def Priority.budget : Priority → TierBudget
  | .p0Critical => TierBudget.p0Critical
  | .p1Normal => TierBudget.p1Normal
  | .p2Background => TierBudget.p2Background

namespace ResourceGovernor

def new (config : GovernorConfig) : ResourceGovernor :=
  { tierBudgets := fun p => some p.budget, tierUsage := fun _ => some TierUsage.new, pressureLevel := .normal, config }

def updatePressure (gov : ResourceGovernor) (level : MemoryPressureLevel) : ResourceGovernor :=
  { gov with pressureLevel := level }

def totalRss (gov : ResourceGovernor) : UInt64 :=
  (([.p0Critical, .p1Normal, .p2Background] : List Priority).filterMap gov.tierUsage).foldl
    (fun sum u => sum + u.rssAllocatedMb) 0

def checkTier (gov : ResourceGovernor) (budget : TierBudget) (usage : TierUsage) (rssMb : UInt32)
    (tokensEstimate : UInt64) : AdmissionDecision :=
  if gov.pressureLevel = .critical && budget.sheddable then
    .shed "system under critical pressure; sheddable tier"
  else if budget.maxConcurrent.toUInt64 ≤ usage.activeTasks then
    .queued s!"tier concurrent limit reached ({usage.activeTasks}/{budget.maxConcurrent})"
  else if budget.maxTokensPerHour < saturatingAdd usage.tokensUsedThisHour tokensEstimate then
    if budget.sheddable then
      .shed s!"token budget exhausted ({usage.tokensUsedThisHour}/{budget.maxTokensPerHour}); sheddable tier"
    else .throttled s!"token budget exhausted ({usage.tokensUsedThisHour}/{budget.maxTokensPerHour})"
  else if budget.maxRssMb.toUInt64 < usage.rssAllocatedMb + rssMb.toUInt64 then
    .queued s!"tier RSS limit reached ({usage.rssAllocatedMb} + {rssMb} > {budget.maxRssMb} MB)"
  else if gov.config.ceiling < gov.totalRss + rssMb.toUInt64 then
    .queued s!"system RSS ceiling would be exceeded ({gov.totalRss} + {rssMb} > {gov.config.ceiling} MB)"
  else .admitted

def checkAdmission (gov : ResourceGovernor) (priority : Priority) (rssMb : UInt32) (tokensEstimate : UInt64) :
    AdmissionDecision :=
  match gov.tierBudgets priority with
  | none => .shed "unknown priority tier"
  | some budget =>
    match gov.tierUsage priority with
    | none => .shed "unknown priority tier"
    | some usage => gov.checkTier budget usage rssMb tokensEstimate

def record (gov : ResourceGovernor) (priority : Priority) (f : TierUsage → TierUsage) : ResourceGovernor :=
  { gov with tierUsage := Function.update gov.tierUsage priority ((gov.tierUsage priority).map f) }

def taskStarted (gov : ResourceGovernor) (priority : Priority) (rssMb : UInt32) : ResourceGovernor :=
  gov.record priority (fun u => u.recordTaskStart rssMb.toUInt64)

def taskEnded (gov : ResourceGovernor) (priority : Priority) (rssMb : UInt32) : ResourceGovernor :=
  gov.record priority (fun u => u.recordTaskEnd rssMb.toUInt64)

def tokensUsed (gov : ResourceGovernor) (priority : Priority) (count : UInt64) : ResourceGovernor :=
  gov.record priority (fun u => u.recordTokens count)

def resetHourlyTokens (gov : ResourceGovernor) : ResourceGovernor :=
  { gov with tierUsage := fun p => (gov.tierUsage p).map TierUsage.resetHourlyTokens }

theorem leSaturatingAdd (a b : UInt64) : b ≤ saturatingAdd a b := by
  have := a.toNat_lt
  have := b.toNat_lt
  unfold saturatingAdd
  split
  · rename_i fits
    rw [UInt64.le_iff_toNat_le, UInt64.toNat_add] at *
    omega
  · rw [UInt64.le_iff_toNat_le]
    exact Nat.le_of_lt_succ b.toNat_lt

theorem admittedIff {gov : ResourceGovernor} {p : Priority} {rssMb : UInt32} {tokens : UInt64} :
    gov.checkAdmission p rssMb tokens = .admitted ↔ ∃ b u, gov.tierBudgets p = some b ∧ gov.tierUsage p = some u ∧
      ¬ (gov.pressureLevel = .critical ∧ b.sheddable = true) ∧ u.activeTasks < b.maxConcurrent.toUInt64 ∧
      saturatingAdd u.tokensUsedThisHour tokens ≤ b.maxTokensPerHour ∧
      u.rssAllocatedMb + rssMb.toUInt64 ≤ b.maxRssMb.toUInt64 ∧ gov.totalRss + rssMb.toUInt64 ≤ gov.config.ceiling := by
  unfold checkAdmission
  cases gov.tierBudgets p with
  | none => simp
  | some b =>
    cases gov.tierUsage p with
    | none => simp
    | some u =>
      simp only [checkTier, Bool.and_eq_true, decide_eq_true_eq]
      constructor
      · intro admitted
        split at admitted <;> [contradiction; rename_i calm]
        split at admitted <;> [contradiction; rename_i free]
        split at admitted <;> [(split at admitted <;> contradiction); rename_i tokens]
        split at admitted <;> [contradiction; rename_i tier]
        split at admitted <;> [contradiction; rename_i system]
        exact ⟨b, u, rfl, rfl, calm, UInt64.not_le.mp free, UInt64.not_lt.mp tokens, UInt64.not_lt.mp tier,
          UInt64.not_lt.mp system⟩
      · intro ⟨_, _, sameBudget, sameUsage, calm, free, tokens, tier, system⟩
        cases sameBudget
        cases sameUsage
        rw [if_neg calm, if_neg (UInt64.not_le.mpr free), if_neg (UInt64.not_lt.mpr tokens),
          if_neg (UInt64.not_lt.mpr tier), if_neg (UInt64.not_lt.mpr system)]

@[simp] theorem recordSelf (gov : ResourceGovernor) (p : Priority) (f : TierUsage → TierUsage) :
    (gov.record p f).tierUsage p = (gov.tierUsage p).map f := Function.update_self ..

@[simp] theorem recordOther (gov : ResourceGovernor) {p q : Priority} (different : q ≠ p) (f : TierUsage → TierUsage) :
    (gov.record p f).tierUsage q = gov.tierUsage q := Function.update_of_ne different ..

theorem recordGrows (gov : ResourceGovernor) (p q : Priority) {f : TierUsage → TierUsage} (amount : TierUsage → Nat)
    {extra : Nat} (grows : ∀ u, amount (f u) ≤ amount u + extra) :
    (((gov.record p f).tierUsage q).map amount).getD 0 ≤
      ((gov.tierUsage q).map amount).getD 0 + if p = q then extra else 0 := by
  by_cases mine : q = p
  · subst mine
    rw [recordSelf, if_pos rfl]
    cases gov.tierUsage q with
    | none => exact Nat.zero_le _
    | some u => exact grows u
  · rw [recordOther gov mine]
    exact Nat.le_add_right ..

end ResourceGovernor

structure Running where
  priority : Priority
  rssMb : UInt32
  deriving DecidableEq, Repr

def Running.mb (t : Running) : Nat := t.rssMb.toNat

abbrev activeOf (p : Priority) (running : List Running) : Nat := count Running.priority p running
abbrev rssOf (p : Priority) (running : List Running) : Nat := owed Running.priority Running.mb p running
abbrev rssTotal (running : List Running) : Nat := total Running.mb running

theorem sumRss (running : List Running) : (∑ p, rssOf p running) = rssTotal running := sumOwed running

structure Tracks (gov : ResourceGovernor) (running : List Running) : Prop where
  usage : ∀ p, ∃ u, gov.tierUsage p = some u ∧ u.activeTasks.toNat = activeOf p running ∧
    u.rssAllocatedMb.toNat = rssOf p running

structure FitsTiers (running : List Running) : Prop where
  concurrent : ∀ p : Priority, activeOf p running ≤ p.budget.maxConcurrent.toNat
  rss : ∀ p : Priority, rssOf p running ≤ p.budget.maxRssMb.toNat

structure Fits (config : GovernorConfig) (running : List Running) : Prop extends FitsTiers running where
  system : rssTotal running + config.headroomMb.toNat ≤ config.systemRssCeilingMb.toNat

instance (running : List Running) : Decidable (FitsTiers running) :=
  decidable_of_iff ((∀ p : Priority, activeOf p running ≤ p.budget.maxConcurrent.toNat) ∧
    ∀ p : Priority, rssOf p running ≤ p.budget.maxRssMb.toNat) ⟨fun h => ⟨h.1, h.2⟩, fun h => ⟨h.1, h.2⟩⟩

instance (config : GovernorConfig) (running : List Running) : Decidable (Fits config running) :=
  decidable_of_iff (FitsTiers running ∧
    rssTotal running + config.headroomMb.toNat ≤ config.systemRssCeilingMb.toNat)
    ⟨fun h => ⟨h.1, h.2⟩, fun h => ⟨h.1, h.2⟩⟩

theorem sumPriority (f : Priority → Nat) : (∑ p, f p) = f .p0Critical + f .p1Normal + f .p2Background := by
  show f .p0Critical + (f .p1Normal + (f .p2Background + 0)) = _
  omega

theorem Tracks.new (config : GovernorConfig) : Tracks (.new config) [] :=
  ⟨fun _ => ⟨TierUsage.new, rfl, rfl, rfl⟩⟩

theorem FitsTiers.empty : FitsTiers [] := ⟨by simp, by simp⟩

theorem Fits.empty {config : GovernorConfig} (room : config.headroomMb ≤ config.systemRssCeilingMb) :
    Fits config [] := ⟨.empty, by simpa using UInt32.le_iff_toNat_le.mp room⟩

theorem FitsTiers.left {first second : List Running} (fits : FitsTiers (first ++ second)) : FitsTiers first := by
  refine ⟨fun p => ?_, fun p => ?_⟩
  · have := fits.concurrent p
    rw [activeOf, countAppend] at this
    exact (Nat.le_add_right ..).trans this
  · have := fits.rss p
    rw [rssOf, owedAppend] at this
    exact (Nat.le_add_right ..).trans this

theorem Fits.left {config : GovernorConfig} {first second : List Running} (fits : Fits config (first ++ second)) :
    Fits config first := by
  refine ⟨fits.toFitsTiers.left, ?_⟩
  have := fits.system
  rw [rssTotal, totalAppend] at this
  dsimp only [rssTotal]
  omega

theorem Fits.perm {config : GovernorConfig} {l m : List Running} (fits : Fits config l) (perm : l.Perm m) :
    Fits config m := by
  refine ⟨⟨fun p => ?_, fun p => ?_⟩, ?_⟩
  · rw [activeOf, ← countPerm p perm]
    exact fits.concurrent p
  · rw [rssOf, ← owedPerm p perm]
    exact fits.rss p
  · rw [rssTotal, ← totalPerm perm]
    exact fits.system

theorem Fits.small {config : GovernorConfig} {running : List Running} (fits : Fits config running) :
    rssTotal running < 2 ^ 32 := by
  have := fits.system
  have := config.systemRssCeilingMb.toNat_lt
  omega

theorem Tracks.totalRss {gov : ResourceGovernor} {running : List Running} (tracks : Tracks gov running)
    (small : rssTotal running < 2 ^ 32) : gov.totalRss.toNat = rssTotal running := by
  obtain ⟨u, hu, _, ru⟩ := tracks.usage .p0Critical
  obtain ⟨v, hv, _, rv⟩ := tracks.usage .p1Normal
  obtain ⟨w, hw, _, rw_⟩ := tracks.usage .p2Background
  have sum := sumRss running
  rw [sumPriority] at sum
  simp only [ResourceGovernor.totalRss, List.filterMap_cons, hu, hv, hw, List.filterMap_nil, List.foldl_cons,
    List.foldl_nil, UInt64.toNat_add, ru, rv, rw_, UInt64.toNat_zero]
  dsimp only [rssOf, rssTotal] at sum small ⊢
  omega

theorem ceilingNat {config : GovernorConfig} (room : config.headroomMb.toNat ≤ config.systemRssCeilingMb.toNat) :
    config.ceiling.toNat = config.systemRssCeilingMb.toNat - config.headroomMb.toNat := by
  have := config.systemRssCeilingMb.toNat_lt
  rw [GovernorConfig.ceiling, UInt64.toNat_sub, UInt32.toNat_toUInt64, UInt32.toNat_toUInt64]
  omega

theorem Tracks.started {gov : ResourceGovernor} {running : List Running} (tracks : Tracks gov running) {t : Running}
    (active : activeOf t.priority running + 1 < 2 ^ 64) (rss : rssOf t.priority running + t.mb < 2 ^ 64) :
    Tracks (gov.taskStarted t.priority t.rssMb) (running ++ [t]) := by
  refine ⟨fun p => ?_⟩
  obtain ⟨u, found, counted, summed⟩ := tracks.usage p
  by_cases mine : t.priority = p
  · subst p
    refine ⟨u.recordTaskStart t.rssMb.toUInt64, by simp [ResourceGovernor.taskStarted, found], ?_, ?_⟩
    · rw [activeOf, countOpen, if_pos rfl, TierUsage.recordTaskStart, UInt64.toNat_add, counted]
      exact Nat.mod_eq_of_lt active
    · rw [rssOf, owedOpen, if_pos rfl, TierUsage.recordTaskStart, UInt64.toNat_add, summed, UInt32.toNat_toUInt64]
      exact Nat.mod_eq_of_lt rss
  · refine ⟨u, ?_, ?_, ?_⟩
    · rw [ResourceGovernor.taskStarted, ResourceGovernor.recordOther gov (fun same => mine same.symm), found]
    · rw [activeOf, countOpen, if_neg mine]
      exact counted
    · rw [rssOf, owedOpen, if_neg mine]
      exact summed

theorem Tracks.ended {gov : ResourceGovernor} {running : List Running} (tracks : Tracks gov running) {i : Nat}
    {t : Running} (at_ : running[i]? = some t) : Tracks (gov.taskEnded t.priority t.rssMb) (running.eraseIdx i) := by
  refine ⟨fun p => ?_⟩
  obtain ⟨u, found, counted, summed⟩ := tracks.usage p
  rw [activeOf, countClose at_] at counted
  rw [rssOf, owedClose at_] at summed
  by_cases mine : t.priority = p
  · subst p
    rw [if_pos rfl] at counted summed
    refine ⟨u.recordTaskEnd t.rssMb.toUInt64, by simp [ResourceGovernor.taskEnded, found], ?_, ?_⟩
    · rw [TierUsage.recordTaskEnd, UInt64.toNat_sub_of_le _ _ (UInt64.le_iff_toNat_le.mpr (by simp [counted])), counted]
      simp
    · have enough : t.rssMb.toUInt64 ≤ u.rssAllocatedMb := by
        rw [UInt64.le_iff_toNat_le, summed, UInt32.toNat_toUInt64]
        exact Nat.le_add_left ..
      rw [TierUsage.recordTaskEnd, saturatingSub, if_pos enough, UInt64.toNat_sub_of_le _ _ enough, summed,
        UInt32.toNat_toUInt64]
      exact Nat.add_sub_cancel ..
  · rw [if_neg mine] at counted summed
    refine ⟨u, ?_, counted, summed⟩
    rw [ResourceGovernor.taskEnded, ResourceGovernor.recordOther gov (fun same => mine same.symm), found]

theorem Tracks.startedFits {gov : ResourceGovernor} {running : List Running} (tracks : Tracks gov running) {t : Running}
    (fits : FitsTiers (running ++ [t])) : Tracks (gov.taskStarted t.priority t.rssMb) (running ++ [t]) := by
  have active := fits.concurrent t.priority
  have rss := fits.rss t.priority
  have small := t.priority.budget.maxConcurrent.toNat_lt
  have small' := t.priority.budget.maxRssMb.toNat_lt
  rw [activeOf, countOpen, if_pos rfl] at active
  rw [rssOf, owedOpen, if_pos rfl] at rss
  exact tracks.started (by dsimp only [activeOf]; omega) (by dsimp only [rssOf]; omega)

theorem Tracks.admittedTiers {gov : ResourceGovernor} {running : List Running} (tracks : Tracks gov running)
    (budgets : ∀ p, gov.tierBudgets p = some p.budget) (fits : FitsTiers running) {t : Running} {tokens : UInt64}
    (admitted : gov.checkAdmission t.priority t.rssMb tokens = .admitted) : FitsTiers (running ++ [t]) := by
  obtain ⟨b, u, budget, usage, _, free, _, tier, _⟩ := ResourceGovernor.admittedIff.mp admitted
  rw [budgets] at budget
  cases Option.some.inj budget
  obtain ⟨u', usage', counted, summed⟩ := tracks.usage t.priority
  rw [usage] at usage'
  cases Option.some.inj usage'
  rw [UInt64.lt_iff_toNat_lt, UInt32.toNat_toUInt64, counted] at free
  rw [UInt64.le_iff_toNat_le, UInt64.toNat_add, UInt32.toNat_toUInt64, UInt32.toNat_toUInt64, summed] at tier
  refine ⟨fun p => ?_, fun p => ?_⟩
  · rw [activeOf, countOpen]
    split
    · rename_i mine
      subst mine
      exact free
    · exact fits.concurrent p
  · rw [rssOf, owedOpen]
    split
    · rename_i mine
      subst mine
      have bound := fits.rss t.priority
      have small := t.rssMb.toNat_lt
      have small' := t.priority.budget.maxRssMb.toNat_lt
      have size : t.mb = t.rssMb.toNat := rfl
      dsimp only [rssOf] at bound tier
      omega
    · exact fits.rss p

theorem Tracks.admitted {gov : ResourceGovernor} {running : List Running} (tracks : Tracks gov running)
    (budgets : ∀ p, gov.tierBudgets p = some p.budget) (fits : Fits gov.config running) {t : Running} {tokens : UInt64}
    (admitted : gov.checkAdmission t.priority t.rssMb tokens = .admitted) : Fits gov.config (running ++ [t]) := by
  obtain ⟨_, _, _, _, _, _, _, _, system⟩ := ResourceGovernor.admittedIff.mp admitted
  have small := fits.small
  have room := fits.system
  have := t.rssMb.toNat_lt
  rw [UInt64.le_iff_toNat_le, UInt64.toNat_add, UInt32.toNat_toUInt64, tracks.totalRss small,
    ceilingNat (by omega)] at system
  refine ⟨tracks.admittedTiers budgets fits.toFitsTiers admitted, ?_⟩
  have size : t.mb = t.rssMb.toNat := rfl
  rw [rssTotal, totalOpen]
  dsimp only [rssTotal] at *
  omega

end ArosKernel.Governor
