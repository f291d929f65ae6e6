import ArosKernel.GovernorRuns
import Mathlib.Algebra.Order.BigOperators.Group.Finset
import Mathlib.Data.Option.Basic

/-! What `check_admission` answers as the load grows, and what its sums need to be exact. -/
namespace ArosKernel.Governor
open Transition

def AdmissionDecision.severity : AdmissionDecision → Nat
  | .admitted => 0
  | .queued _ => 1
  | .throttled _ => 2
  | .shed _ => 3

namespace ResourceGovernor

def ShedsTier (gov : ResourceGovernor) (budget : TierBudget) : Prop :=
  gov.pressureLevel = .critical ∧ budget.sheddable = true

def AtTaskLimit (budget : TierBudget) (usage : TierUsage) : Prop := budget.maxConcurrent.toUInt64 ≤ usage.activeTasks

def OverTokens (budget : TierBudget) (usage : TierUsage) (tokensEstimate : UInt64) : Prop :=
  budget.maxTokensPerHour < saturatingAdd usage.tokensUsedThisHour tokensEstimate

def OutOfMemory (gov : ResourceGovernor) (budget : TierBudget) (usage : TierUsage) (rssMb : UInt32) : Prop :=
  budget.maxRssMb.toUInt64 < usage.rssAllocatedMb + rssMb.toUInt64 ∨
    gov.config.ceiling < gov.totalRss + rssMb.toUInt64

instance (gov : ResourceGovernor) (b : TierBudget) : Decidable (gov.ShedsTier b) := inferInstanceAs (Decidable (_ ∧ _))
instance (b : TierBudget) (u : TierUsage) : Decidable (AtTaskLimit b u) := inferInstanceAs (Decidable (_ ≤ _))
instance (b : TierBudget) (u : TierUsage) (n : UInt64) : Decidable (OverTokens b u n) := inferInstanceAs (Decidable (_ < _))
instance (gov : ResourceGovernor) (b : TierBudget) (u : TierUsage) (mb : UInt32) : Decidable (gov.OutOfMemory b u mb) :=
  inferInstanceAs (Decidable (_ ∨ _))

theorem shedsTierIff {gov : ResourceGovernor} {b : TierBudget} :
    (gov.pressureLevel = .critical && b.sheddable) = true ↔ gov.ShedsTier b := by
  rw [ShedsTier, Bool.and_eq_true, decide_eq_true_iff]

theorem severityTier (gov : ResourceGovernor) (b : TierBudget) (u : TierUsage) (rssMb : UInt32) (tokens : UInt64) :
    (gov.checkTier b u rssMb tokens).severity =
      if gov.ShedsTier b then 3
      else if AtTaskLimit b u then 1
      else if OverTokens b u tokens then (if b.sheddable then 3 else 2)
      else if gov.OutOfMemory b u rssMb then 1 else 0 := by
  unfold checkTier
  by_cases sheds : gov.ShedsTier b
  · rw [if_pos (shedsTierIff.mpr sheds), if_pos sheds]
    rfl
  rw [if_neg (mt shedsTierIff.mp sheds), if_neg sheds]
  by_cases limit : AtTaskLimit b u
  · rw [if_pos limit, if_pos (show b.maxConcurrent.toUInt64 ≤ u.activeTasks from limit)]
    rfl
  rw [if_neg limit, if_neg (show ¬ b.maxConcurrent.toUInt64 ≤ u.activeTasks from limit)]
  by_cases spent : OverTokens b u tokens
  · rw [if_pos spent, if_pos (show b.maxTokensPerHour < _ from spent)]
    cases b.sheddable <;> rfl
  rw [if_neg spent, if_neg (show ¬ b.maxTokensPerHour < _ from spent)]
  by_cases tier : b.maxRssMb.toUInt64 < u.rssAllocatedMb + rssMb.toUInt64
  · rw [if_pos tier, if_pos (show gov.OutOfMemory b u rssMb from .inl tier)]
    rfl
  rw [if_neg tier]
  by_cases system : gov.config.ceiling < gov.totalRss + rssMb.toUInt64
  · rw [if_pos system, if_pos (show gov.OutOfMemory b u rssMb from .inr system)]
    rfl
  rw [if_neg system, if_neg (show ¬ gov.OutOfMemory b u rssMb from not_or.mpr ⟨tier, system⟩)]
  rfl

end ResourceGovernor

theorem saturatingAddNat (a b : UInt64) : (saturatingAdd a b).toNat = min (a.toNat + b.toNat) (2 ^ 64 - 1) := by
  have := a.toNat_lt
  have := b.toNat_lt
  unfold saturatingAdd
  split
  · rename_i fits
    rw [UInt64.le_iff_toNat_le, UInt64.toNat_add] at fits
    rw [UInt64.toNat_add]
    omega
  · rename_i wraps
    rw [UInt64.le_iff_toNat_le, UInt64.toNat_add] at wraps
    show 2 ^ 64 - 1 = _
    omega

namespace ResourceGovernor

theorem sumTiers (gov : ResourceGovernor) :
    (([.p0Critical, .p1Normal, .p2Background] : List Priority).map gov.allocated).sum = ∑ p, gov.allocated p := by
  rw [sumPriority]
  simp only [List.map_cons, List.map_nil, List.sum_cons, List.sum_nil]
  omega

theorem totalRssNat (gov : ResourceGovernor) : gov.totalRss.toNat = (∑ p, gov.allocated p) % 2 ^ 64 := by
  have each : ∀ (tiers : List Priority) (sum : UInt64),
      ((tiers.filterMap gov.tierUsage).foldl (fun sum u => sum + u.rssAllocatedMb) sum).toNat =
        (sum.toNat + (tiers.map gov.allocated).sum) % 2 ^ 64 := by
    intro tiers
    induction tiers with
    | nil => exact fun sum => (Nat.mod_eq_of_lt sum.toNat_lt).symm
    | cons p rest ih =>
      intro sum
      cases found : gov.tierUsage p with
      | none =>
        rw [List.filterMap_cons_none found, ih, List.map_cons, List.sum_cons, allocatedNone found, Nat.zero_add]
      | some u =>
        rw [List.filterMap_cons_some found, List.foldl_cons, ih, List.map_cons, List.sum_cons, allocatedSome found,
          UInt64.toNat_add, Nat.mod_add_mod, Nat.add_assoc]
  refine (each _ 0).trans ?_
  rw [sumTiers, UInt64.toNat_zero, Nat.zero_add]

end ResourceGovernor

structure TierUsage.Le (u v : TierUsage) : Prop where
  active : u.activeTasks ≤ v.activeTasks
  tokens : u.tokensUsedThisHour ≤ v.tokensUsedThisHour
  rss : u.rssAllocatedMb ≤ v.rssAllocatedMb

structure Situation where
  gov : ResourceGovernor
  rssMb : UInt32
  tokensEstimate : UInt64

namespace Situation
open ResourceGovernor

def decision (s : Situation) (p : Priority) : AdmissionDecision := s.gov.checkAdmission p s.rssMb s.tokensEstimate

structure Le (first second : Situation) : Prop where
  budgets : second.gov.tierBudgets = first.gov.tierBudgets
  config : second.gov.config = first.gov.config
  pressure : first.gov.pressureLevel.ordinal ≤ second.gov.pressureLevel.ordinal
  usage : ∀ p, Option.Rel TierUsage.Le (first.gov.tierUsage p) (second.gov.tierUsage p)
  rss : first.rssMb ≤ second.rssMb
  tokens : first.tokensEstimate ≤ second.tokensEstimate

-- The first fails the token check, which the second's task limit keeps it from reaching.
def Overtaken (p : Priority) (first second : Situation) : Prop :=
  ∃ b u v, first.gov.tierBudgets p = some b ∧ first.gov.tierUsage p = some u ∧ second.gov.tierUsage p = some v ∧
    ¬ AtTaskLimit b u ∧ OverTokens b u first.tokensEstimate ∧ ¬ second.gov.ShedsTier b ∧ AtTaskLimit b v

-- Both get to the memory checks, and only the smaller one fails them.
def Overflowed (p : Priority) (first second : Situation) : Prop :=
  ∃ b u v, first.gov.tierBudgets p = some b ∧ first.gov.tierUsage p = some u ∧ second.gov.tierUsage p = some v ∧
    ¬ second.gov.ShedsTier b ∧ ¬ AtTaskLimit b v ∧ ¬ OverTokens b v second.tokensEstimate ∧
    first.gov.OutOfMemory b u first.rssMb ∧ ¬ second.gov.OutOfMemory b v second.rssMb

theorem Le.sheds {first second : Situation} (more : first.Le second) {b : TierBudget}
    (sheds : first.gov.ShedsTier b) : second.gov.ShedsTier b := by
  have pressure := more.pressure
  rw [sheds.1] at pressure
  refine ⟨?_, sheds.2⟩
  cases level : second.gov.pressureLevel with
  | critical => rfl
  | normal => simp [level, MemoryPressureLevel.ordinal] at pressure
  | warn => simp [level, MemoryPressureLevel.ordinal] at pressure

theorem overTokensMono {b : TierBudget} {u v : TierUsage} (more : u.Le v) {n m : UInt64} (le : n ≤ m)
    (spent : OverTokens b u n) : OverTokens b v m := by
  have used := UInt64.le_iff_toNat_le.mp more.tokens
  have asked := UInt64.le_iff_toNat_le.mp le
  have grown : saturatingAdd u.tokensUsedThisHour n ≤ saturatingAdd v.tokensUsedThisHour m := by
    rw [UInt64.le_iff_toNat_le, saturatingAddNat, saturatingAddNat]
    omega
  exact UInt64.lt_of_lt_of_le spent grown

theorem limitedMono {u v : TierUsage} (more : u.Le v) {b : TierBudget} (limit : AtTaskLimit b u) : AtTaskLimit b v :=
  UInt64.le_trans limit more.active

section
variable {first second : Situation} {b : TierBudget} {u v : TierUsage}

theorem overtakenFalls (more : first.Le second) (below : ¬ AtTaskLimit b u) (spent : OverTokens b u first.tokensEstimate)
    (calm : ¬ second.gov.ShedsTier b) (limit : AtTaskLimit b v) :
    ¬ (first.gov.checkTier b u first.rssMb first.tokensEstimate).severity ≤
      (second.gov.checkTier b v second.rssMb second.tokensEstimate).severity := by
  rw [severityTier, severityTier, if_neg (mt more.sheds calm), if_neg below, if_pos spent, if_neg calm, if_pos limit]
  split <;> omega

theorem overflowedFalls (more : first.Le second) (usage : u.Le v) (calm : ¬ second.gov.ShedsTier b)
    (below : ¬ AtTaskLimit b v) (left : ¬ OverTokens b v second.tokensEstimate)
    (full : first.gov.OutOfMemory b u first.rssMb) (fits : ¬ second.gov.OutOfMemory b v second.rssMb) :
    ¬ (first.gov.checkTier b u first.rssMb first.tokensEstimate).severity ≤
      (second.gov.checkTier b v second.rssMb second.tokensEstimate).severity := by
  rw [severityTier, severityTier, if_neg (mt more.sheds calm), if_neg (mt (limitedMono usage) below),
    if_neg (mt (overTokensMono usage more.tokens) left), if_pos full, if_neg calm, if_neg below, if_neg left, if_neg fits]
  omega

theorem severityGrows (more : first.Le second) (usage : u.Le v)
    (ahead : ¬ (¬ AtTaskLimit b u ∧ OverTokens b u first.tokensEstimate ∧ ¬ second.gov.ShedsTier b ∧ AtTaskLimit b v))
    (exact_ : ¬ (¬ second.gov.ShedsTier b ∧ ¬ AtTaskLimit b v ∧ ¬ OverTokens b v second.tokensEstimate ∧
      first.gov.OutOfMemory b u first.rssMb ∧ ¬ second.gov.OutOfMemory b v second.rssMb)) :
    (first.gov.checkTier b u first.rssMb first.tokensEstimate).severity ≤
      (second.gov.checkTier b v second.rssMb second.tokensEstimate).severity := by
  rw [severityTier, severityTier]
  by_cases sheds : second.gov.ShedsTier b
  · rw [if_pos sheds]
    split_ifs <;> omega
  rw [if_neg sheds, if_neg (mt more.sheds sheds)]
  by_cases limit : AtTaskLimit b v
  · rw [if_pos limit]
    by_cases early : AtTaskLimit b u
    · rw [if_pos early]
    · rw [if_neg early, if_neg (fun spent => ahead ⟨early, spent, sheds, limit⟩)]
      split <;> omega
  rw [if_neg limit, if_neg (mt (limitedMono usage) limit)]
  by_cases spent : OverTokens b v second.tokensEstimate
  · rw [if_pos spent]
    split_ifs <;> omega
  rw [if_neg spent, if_neg (mt (overTokensMono usage more.tokens) spent)]
  by_cases full : second.gov.OutOfMemory b v second.rssMb
  · rw [if_pos full]
    split <;> omega
  · rw [if_neg full, if_neg (fun early => exact_ ⟨sheds, limit, spent, early, full⟩)]

end

theorem tierMonotoneIff {first second : Situation} (more : first.Le second) {u v : TierUsage} (usage : u.Le v)
    (b : TierBudget) : (first.gov.checkTier b u first.rssMb first.tokensEstimate).severity ≤
      (second.gov.checkTier b v second.rssMb second.tokensEstimate).severity ↔
    ¬ (¬ AtTaskLimit b u ∧ OverTokens b u first.tokensEstimate ∧ ¬ second.gov.ShedsTier b ∧ AtTaskLimit b v) ∧
    ¬ (¬ second.gov.ShedsTier b ∧ ¬ AtTaskLimit b v ∧ ¬ OverTokens b v second.tokensEstimate ∧
      first.gov.OutOfMemory b u first.rssMb ∧ ¬ second.gov.OutOfMemory b v second.rssMb) := by
  constructor
  · intro atMost
    constructor
    · rintro ⟨below, spent, calm, limit⟩
      exact overtakenFalls more below spent calm limit atMost
    · rintro ⟨calm, below, left, full, fits⟩
      exact overflowedFalls more usage calm below left full fits atMost
  · rintro ⟨ahead, exact_⟩
    exact severityGrows more usage ahead exact_

theorem Le.tier {first second : Situation} (more : first.Le second) (p : Priority) :
    (first.gov.tierUsage p = none ∧ second.gov.tierUsage p = none) ∨
    ∃ u v, first.gov.tierUsage p = some u ∧ second.gov.tierUsage p = some v ∧ u.Le v := by
  have usage := more.usage p
  generalize first.gov.tierUsage p = u at usage
  generalize second.gov.tierUsage p = v at usage
  cases usage with
  | none => exact .inl ⟨rfl, rfl⟩
  | some le => exact .inr ⟨_, _, rfl, rfl, le⟩

theorem Le.allocated {first second : Situation} (more : first.Le second) :
    (∑ p, first.gov.allocated p) ≤ ∑ p, second.gov.allocated p := by
  refine Finset.sum_le_sum (fun p _ => ?_)
  obtain ⟨before, _⟩ | ⟨u, v, before, after, le⟩ := more.tier p
  · rw [allocatedNone before]
    exact Nat.zero_le _
  · rw [allocatedSome before, allocatedSome after]
    exact UInt64.le_iff_toNat_le.mp le.rss

theorem overflowedWraps {p : Priority} {first second : Situation} (more : first.Le second)
    (overflowed : Overflowed p first second) :
    2 ^ 64 ≤ second.gov.allocated p + second.rssMb.toNat ∨ 2 ^ 64 ≤ (∑ q, second.gov.allocated q) + second.rssMb.toNat := by
  obtain ⟨b, u, v, _, before, after, _, _, _, full, fits⟩ := overflowed
  obtain ⟨tier, system⟩ := not_or.mp fits
  have asked := UInt32.le_iff_toNat_le.mp more.rss
  have total := more.allocated
  have sumFirst := first.gov.totalRssNat
  have sumSecond := second.gov.totalRssNat
  by_contra small
  rw [not_or, Nat.not_le, Nat.not_le, allocatedSome after] at small
  obtain ⟨gone, _⟩ | ⟨_, _, before', after', le⟩ := more.tier p
  · cases before.symm.trans gone
  cases before.symm.trans before'
  cases after.symm.trans after'
  have used := UInt64.le_iff_toNat_le.mp le.rss
  simp only [UInt64.not_lt, UInt64.le_iff_toNat_le, UInt64.toNat_add, UInt32.toNat_toUInt64] at tier system
  rcases full with full | full
  · simp only [UInt64.lt_iff_toNat_lt, UInt64.toNat_add, UInt32.toNat_toUInt64] at full
    omega
  · simp only [UInt64.lt_iff_toNat_lt, UInt64.toNat_add, UInt32.toNat_toUInt64, ← more.config] at full
    omega

theorem decisionMonotoneIff (p : Priority) {first second : Situation} (more : first.Le second) :
    (first.decision p).severity ≤ (second.decision p).severity ↔
      ¬ Overtaken p first second ∧ ¬ Overflowed p first second := by
  unfold decision checkAdmission Overtaken Overflowed
  rw [more.budgets]
  cases budget : first.gov.tierBudgets p with
  | none => simp
  | some b =>
    obtain ⟨before, after⟩ | ⟨u, v, before, after, le⟩ := more.tier p
    · rw [before, after]
      simp
    · rw [before, after]
      dsimp only
      rw [tierMonotoneIff more le]
      simp only [Option.some.injEq, exists_and_left, exists_eq_left']

theorem severityMonotoneIff (p : Priority) {first second : Situation} (more : first.Le second) :
    ((first.decision p).severity ≤ (second.decision p).severity ↔
      ¬ Overtaken p first second ∧ ¬ Overflowed p first second) ∧
    (Overflowed p first second → 2 ^ 64 ≤ second.gov.allocated p + second.rssMb.toNat ∨
      2 ^ 64 ≤ (∑ q, second.gov.allocated q) + second.rssMb.toNat) :=
  ⟨decisionMonotoneIff p more, overflowedWraps more⟩

def spent : ResourceGovernor := (ResourceGovernor.new daemonConfig).tokensUsed .p1Normal 600000

def spentFull : ResourceGovernor := (List.replicate 4 .p1Normal).foldl (fun gov p => gov.taskStarted p 256) spent

def throttledBefore : Situation := ⟨spent, 256, 1000⟩
def queuedAfter : Situation := ⟨spentFull, 256, 1000⟩

theorem throttledGrows : throttledBefore.Le queuedAfter where
  budgets := rfl
  config := rfl
  pressure := Nat.le_refl _
  usage p := by
    cases p with
    | p0Critical => exact .some ⟨by decide, by decide, by decide⟩
    | p1Normal => exact .some ⟨by decide, by decide, by decide⟩
    | p2Background => exact .some ⟨by decide, by decide, by decide⟩
  rss := by decide
  tokens := by decide

theorem throttledThenQueued : throttledBefore.Le queuedAfter ∧ daemonConfig.headroomMb ≤ daemonConfig.systemRssCeilingMb ∧
    ¬ (throttledBefore.decision .p1Normal).severity ≤ (queuedAfter.decision .p1Normal).severity := by
  refine ⟨throttledGrows, by decide, ?_⟩
  have first : (throttledBefore.decision .p1Normal).severity = 2 := by decide +kernel
  have second : (queuedAfter.decision .p1Normal).severity = 1 := by decide +kernel
  rw [first, second]
  decide

theorem severityMonotoneIffBackground :
    ((throttledBefore.decision .p2Background).severity ≤ (queuedAfter.decision .p2Background).severity ↔
      ¬ Overtaken .p2Background throttledBefore queuedAfter ∧ ¬ Overflowed .p2Background throttledBefore queuedAfter) ∧
    (Overflowed .p2Background throttledBefore queuedAfter →
      2 ^ 64 ≤ queuedAfter.gov.allocated .p2Background + queuedAfter.rssMb.toNat ∨
      2 ^ 64 ≤ (∑ q, queuedAfter.gov.allocated q) + queuedAfter.rssMb.toNat) :=
  severityMonotoneIff .p2Background throttledGrows

end Situation

/-! The same checks with every operation exact, as a build that checks for overflow runs
them: `none` is its panic. -/

def checkedAdd (a b : UInt64) : Option UInt64 := if a ≤ a + b then some (a + b) else none
def checkedSub (a b : UInt64) : Option UInt64 := if b ≤ a then some (a - b) else none

theorem checkedAddIff {a b c : UInt64} : checkedAdd a b = some c ↔ c.toNat = a.toNat + b.toNat := by
  have := a.toNat_lt
  have := b.toNat_lt
  have := c.toNat_lt
  have sum := UInt64.toNat_add a b
  unfold checkedAdd
  split
  · rename_i fits
    rw [UInt64.le_iff_toNat_le] at fits
    rw [Option.some.injEq, ← UInt64.toNat_inj]
    omega
  · rename_i wraps
    rw [UInt64.le_iff_toNat_le] at wraps
    exact iff_of_false (fun same => nomatch same) (by omega)

theorem checkedAddWraps {a b c : UInt64} (sum : checkedAdd a b = some c) : a + b = c := by
  unfold checkedAdd at sum
  split at sum
  · exact Option.some.inj sum
  · contradiction

theorem checkedSubWraps {a b c : UInt64} (difference : checkedSub a b = some c) : a - b = c := by
  unfold checkedSub at difference
  split at difference
  · exact Option.some.inj difference
  · contradiction

theorem checkedAddSome {a b : UInt64} : (∃ c, checkedAdd a b = some c) ↔ a.toNat + b.toNat < 2 ^ 64 := by
  constructor
  · intro ⟨c, sum⟩
    exact checkedAddIff.mp sum ▸ c.toNat_lt
  · intro small
    exact ⟨.ofNat (a.toNat + b.toNat), checkedAddIff.mpr (by rw [UInt64.toNat_ofNat', Nat.mod_eq_of_lt small])⟩

theorem checkedSubIff {a b c : UInt64} : checkedSub a b = some c ↔ c.toNat + b.toNat = a.toNat := by
  unfold checkedSub
  split
  · rename_i enough
    have difference := UInt64.toNat_sub_of_le _ _ enough
    rw [UInt64.le_iff_toNat_le] at enough
    rw [Option.some.injEq, ← UInt64.toNat_inj]
    omega
  · rename_i less
    rw [UInt64.le_iff_toNat_le] at less
    exact iff_of_false (fun same => nomatch same) (by omega)

namespace ResourceGovernor

def checkedTotal (gov : ResourceGovernor) : Option UInt64 :=
  (([.p0Critical, .p1Normal, .p2Background] : List Priority).filterMap gov.tierUsage).foldlM
    (fun sum u => checkedAdd sum u.rssAllocatedMb) 0

def checkMemoryExactly (gov : ResourceGovernor) (budget : TierBudget) (usage : TierUsage) (rssMb : UInt32) :
    Option AdmissionDecision := do
  let wanted ← checkedAdd usage.rssAllocatedMb rssMb.toUInt64
  if budget.maxRssMb.toUInt64 < wanted then
    some (.queued s!"tier RSS limit reached ({usage.rssAllocatedMb} + {rssMb} > {budget.maxRssMb} MB)")
  else
    let totalRss ← gov.checkedTotal
    let ceiling ← checkedSub gov.config.systemRssCeilingMb.toUInt64 gov.config.headroomMb.toUInt64
    let wanted ← checkedAdd totalRss rssMb.toUInt64
    if ceiling < wanted then
      some (.queued s!"system RSS ceiling would be exceeded ({totalRss} + {rssMb} > {ceiling} MB)")
    else some .admitted

def checkTierExactly (gov : ResourceGovernor) (budget : TierBudget) (usage : TierUsage) (rssMb : UInt32)
    (tokensEstimate : UInt64) : Option AdmissionDecision :=
  if gov.pressureLevel = .critical && budget.sheddable then
    some (.shed "system under critical pressure; sheddable tier")
  else if budget.maxConcurrent.toUInt64 ≤ usage.activeTasks then
    some (.queued s!"tier concurrent limit reached ({usage.activeTasks}/{budget.maxConcurrent})")
  else if budget.maxTokensPerHour < saturatingAdd usage.tokensUsedThisHour tokensEstimate then
    if budget.sheddable then
      some (.shed s!"token budget exhausted ({usage.tokensUsedThisHour}/{budget.maxTokensPerHour}); sheddable tier")
    else some (.throttled s!"token budget exhausted ({usage.tokensUsedThisHour}/{budget.maxTokensPerHour})")
  else gov.checkMemoryExactly budget usage rssMb

def checkExactly (gov : ResourceGovernor) (priority : Priority) (rssMb : UInt32) (tokensEstimate : UInt64) :
    Option AdmissionDecision :=
  match gov.tierBudgets priority with
  | none => some (.shed "unknown priority tier")
  | some budget =>
    match gov.tierUsage priority with
    | none => some (.shed "unknown priority tier")
    | some usage => gov.checkTierExactly budget usage rssMb tokensEstimate

theorem checkedTotalIff {gov : ResourceGovernor} {sum : UInt64} :
    gov.checkedTotal = some sum ↔ sum.toNat = ∑ p, gov.allocated p := by
  have each : ∀ (tiers : List Priority) (start : UInt64),
      (tiers.filterMap gov.tierUsage).foldlM (fun sum u => checkedAdd sum u.rssAllocatedMb) start = some sum ↔
        sum.toNat = start.toNat + (tiers.map gov.allocated).sum := by
    intro tiers
    induction tiers with
    | nil =>
      intro start
      show some start = some sum ↔ _
      rw [Option.some.injEq, ← UInt64.toNat_inj]
      exact eq_comm
    | cons p rest ih =>
      intro start
      cases found : gov.tierUsage p with
      | none =>
        rw [List.filterMap_cons_none found, ih, List.map_cons, List.sum_cons, allocatedNone found, Nat.zero_add]
      | some u =>
        rw [List.filterMap_cons_some found, List.foldlM_cons, List.map_cons, List.sum_cons, allocatedSome found]
        constructor
        · intro added
          obtain ⟨next, first, later⟩ := Option.bind_eq_some_iff.mp added
          have step := checkedAddIff.mp first
          have whole := (ih next).mp later
          omega
        · intro whole
          have small := sum.toNat_lt
          obtain ⟨next, first⟩ := checkedAddSome.mpr (show start.toNat + u.rssAllocatedMb.toNat < 2 ^ 64 by omega)
          have step := checkedAddIff.mp first
          exact Option.bind_eq_some_iff.mpr ⟨next, first, (ih next).mpr (by omega)⟩
  refine (each _ 0).trans ?_
  rw [sumTiers, UInt64.toNat_zero, Nat.zero_add]

def ReachesMemory (gov : ResourceGovernor) (b : TierBudget) (u : TierUsage) (tokens : UInt64) : Prop :=
  ¬ gov.ShedsTier b ∧ ¬ AtTaskLimit b u ∧ ¬ OverTokens b u tokens

theorem exactlyEarly {gov : ResourceGovernor} {b : TierBudget} {u : TierUsage} {tokens : UInt64}
    (early : ¬ gov.ReachesMemory b u tokens) (rssMb : UInt32) :
    gov.checkTierExactly b u rssMb tokens = some (gov.checkTier b u rssMb tokens) := by
  unfold checkTierExactly checkTier
  by_cases sheds : gov.ShedsTier b
  · rw [if_pos (shedsTierIff.mpr sheds), if_pos (shedsTierIff.mpr sheds)]
  rw [if_neg (mt shedsTierIff.mp sheds), if_neg (mt shedsTierIff.mp sheds)]
  by_cases limit : b.maxConcurrent.toUInt64 ≤ u.activeTasks
  · rw [if_pos limit, if_pos limit]
  rw [if_neg limit, if_neg limit]
  by_cases spent : b.maxTokensPerHour < saturatingAdd u.tokensUsedThisHour tokens
  · rw [if_pos spent, if_pos spent]
    cases b.sheddable <;> rfl
  · exact absurd ⟨sheds, limit, spent⟩ early

theorem exactlyLate {gov : ResourceGovernor} {b : TierBudget} {u : TierUsage} {tokens : UInt64}
    (late : gov.ReachesMemory b u tokens) (rssMb : UInt32) :
    gov.checkTierExactly b u rssMb tokens = gov.checkMemoryExactly b u rssMb := by
  obtain ⟨calm, free, left⟩ := late
  rw [checkTierExactly, if_neg (mt shedsTierIff.mp calm),
    if_neg (show ¬ b.maxConcurrent.toUInt64 ≤ u.activeTasks from free),
    if_neg (show ¬ b.maxTokensPerHour < _ from left)]

theorem checkLate {gov : ResourceGovernor} {b : TierBudget} {u : TierUsage} {tokens : UInt64}
    (late : gov.ReachesMemory b u tokens) (rssMb : UInt32) : gov.checkTier b u rssMb tokens =
      if b.maxRssMb.toUInt64 < u.rssAllocatedMb + rssMb.toUInt64 then
        .queued s!"tier RSS limit reached ({u.rssAllocatedMb} + {rssMb} > {b.maxRssMb} MB)"
      else if gov.config.ceiling < gov.totalRss + rssMb.toUInt64 then
        .queued s!"system RSS ceiling would be exceeded ({gov.totalRss} + {rssMb} > {gov.config.ceiling} MB)"
      else .admitted := by
  obtain ⟨calm, free, left⟩ := late
  rw [checkTier, if_neg (mt shedsTierIff.mp calm),
    if_neg (show ¬ b.maxConcurrent.toUInt64 ≤ u.activeTasks from free),
    if_neg (show ¬ b.maxTokensPerHour < _ from left)]

structure SumsFit (gov : ResourceGovernor) (b : TierBudget) (u : TierUsage) (rssMb : UInt32) : Prop where
  tier : u.rssAllocatedMb.toNat + rssMb.toNat < 2 ^ 64
  system : u.rssAllocatedMb.toNat + rssMb.toNat ≤ b.maxRssMb.toNat →
    (∑ p, gov.allocated p) + rssMb.toNat < 2 ^ 64 ∧ gov.config.headroomMb ≤ gov.config.systemRssCeilingMb

theorem SumsFit.ofExactly {gov : ResourceGovernor} {b : TierBudget} {u : TierUsage} {rssMb : UInt32}
    {d : AdmissionDecision} (ran : gov.checkMemoryExactly b u rssMb = some d) : gov.SumsFit b u rssMb := by
  obtain ⟨wanted, tier, ran⟩ := Option.bind_eq_some_iff.mp ran
  have tierSum := checkedAddIff.mp tier
  have wantedFits := wanted.toNat_lt
  rw [UInt32.toNat_toUInt64] at tierSum
  refine ⟨by omega, fun within => ?_⟩
  have passes : ¬ b.maxRssMb.toUInt64 < wanted := by
    rw [UInt64.lt_iff_toNat_lt, UInt32.toNat_toUInt64]
    omega
  rw [if_neg passes] at ran
  obtain ⟨total, sum, ran⟩ := Option.bind_eq_some_iff.mp ran
  obtain ⟨ceiling, rest, ran⟩ := Option.bind_eq_some_iff.mp ran
  obtain ⟨all, last, _⟩ := Option.bind_eq_some_iff.mp ran
  have allSum := checkedAddIff.mp last
  have allFits := all.toNat_lt
  have room := checkedSubIff.mp rest
  rw [checkedTotalIff.mp sum, UInt32.toNat_toUInt64] at allSum
  rw [UInt32.toNat_toUInt64, UInt32.toNat_toUInt64] at room
  exact ⟨by omega, UInt32.le_iff_toNat_le.mpr (by omega)⟩

theorem SumsFit.exactly {gov : ResourceGovernor} {b : TierBudget} {u : TierUsage} {rssMb : UInt32}
    (fits : gov.SumsFit b u rssMb) : ∃ d, gov.checkMemoryExactly b u rssMb = some d := by
  obtain ⟨wanted, tier⟩ := checkedAddSome.mpr (UInt32.toNat_toUInt64 rssMb ▸ fits.tier)
  have tierSum := checkedAddIff.mp tier
  rw [UInt32.toNat_toUInt64] at tierSum
  rw [checkMemoryExactly, tier]
  show ∃ d, (if b.maxRssMb.toUInt64 < wanted then _ else _) = some d
  by_cases full : b.maxRssMb.toUInt64 < wanted
  · rw [if_pos full]
    exact ⟨_, rfl⟩
  · rw [if_neg full]
    rw [UInt64.lt_iff_toNat_lt, UInt32.toNat_toUInt64] at full
    obtain ⟨small, room⟩ := fits.system (by omega)
    rw [UInt32.le_iff_toNat_le] at room
    obtain ⟨total, sum⟩ : ∃ total : UInt64, total.toNat = ∑ p, gov.allocated p :=
      ⟨.ofNat (∑ p, gov.allocated p), by rw [UInt64.toNat_ofNat', Nat.mod_eq_of_lt (by omega)]⟩
    obtain ⟨all, last⟩ := checkedAddSome.mpr (show total.toNat + rssMb.toUInt64.toNat < 2 ^ 64 by
      rw [sum, UInt32.toNat_toUInt64]
      exact small)
    have ceiling : checkedSub gov.config.systemRssCeilingMb.toUInt64 gov.config.headroomMb.toUInt64 =
        some gov.config.ceiling := if_pos (UInt64.le_iff_toNat_le.mpr (by simpa using room))
    rw [checkedTotalIff.mpr sum, ceiling]
    simp only [Option.bind_eq_bind, Option.bind_some, last]
    split <;> exact ⟨_, rfl⟩

theorem memoryAgrees {gov : ResourceGovernor} {b : TierBudget} {u : TierUsage} {tokens : UInt64}
    (late : gov.ReachesMemory b u tokens) {rssMb : UInt32} {d : AdmissionDecision}
    (ran : gov.checkMemoryExactly b u rssMb = some d) : gov.checkTier b u rssMb tokens = d := by
  rw [checkLate late]
  obtain ⟨wanted, tier, ran⟩ := Option.bind_eq_some_iff.mp ran
  rw [checkedAddWraps tier]
  by_cases full : b.maxRssMb.toUInt64 < wanted
  · rw [if_pos full] at ran ⊢
    exact Option.some.inj ran
  · rw [if_neg full] at ran ⊢
    obtain ⟨total, sum, ran⟩ := Option.bind_eq_some_iff.mp ran
    obtain ⟨ceiling, rest, ran⟩ := Option.bind_eq_some_iff.mp ran
    obtain ⟨all, last, ran⟩ := Option.bind_eq_some_iff.mp ran
    have wrapped : gov.totalRss = total := by
      have exact_ := checkedTotalIff.mp sum
      rw [← UInt64.toNat_inj, gov.totalRssNat, ← exact_, Nat.mod_eq_of_lt total.toNat_lt]
    have reserve : gov.config.ceiling = ceiling := checkedSubWraps rest
    rw [wrapped, reserve, checkedAddWraps last]
    by_cases past : ceiling < all
    · rw [if_pos past] at ran ⊢
      exact Option.some.inj ran
    · rw [if_neg past] at ran ⊢
      exact Option.some.inj ran

theorem exactlyAgrees {gov : ResourceGovernor} {p : Priority} {rssMb : UInt32} {tokens : UInt64} {d : AdmissionDecision}
    (ran : gov.checkExactly p rssMb tokens = some d) : gov.checkAdmission p rssMb tokens = d := by
  unfold checkExactly at ran
  unfold checkAdmission
  cases budget : gov.tierBudgets p with
  | none =>
    rw [budget] at ran
    exact Option.some.inj ran
  | some b =>
    cases usage : gov.tierUsage p with
    | none =>
      rw [budget, usage] at ran
      exact Option.some.inj ran
    | some u =>
      rw [budget, usage] at ran
      dsimp only at ran ⊢
      by_cases late : gov.ReachesMemory b u tokens
      · rw [exactlyLate late] at ran
        exact memoryAgrees late ran
      · rw [exactlyEarly late] at ran
        exact Option.some.inj ran

structure KeepsHeadroom (gov : ResourceGovernor) (p : Priority) (rssMb : UInt32) (tokens : UInt64) : Prop where
  exact : ∃ d, gov.checkExactly p rssMb tokens = some d
  kept : gov.checkAdmission p rssMb tokens = .admitted →
    (∑ q, gov.allocated q) + rssMb.toNat + gov.config.headroomMb.toNat ≤ gov.config.systemRssCeilingMb.toNat

def RoomForSums (gov : ResourceGovernor) (p : Priority) (rssMb : UInt32) (tokens : UInt64) : Prop :=
  ∀ b u, gov.tierBudgets p = some b → gov.tierUsage p = some u → gov.ReachesMemory b u tokens → gov.SumsFit b u rssMb

theorem keepsHeadroomIff {gov : ResourceGovernor} {p : Priority} {rssMb : UInt32} {tokens : UInt64} :
    gov.KeepsHeadroom p rssMb tokens ↔ gov.RoomForSums p rssMb tokens := by
  constructor
  · intro ⟨⟨d, ran⟩, _⟩ b u budget usage late
    rw [checkExactly, budget, usage] at ran
    dsimp only at ran
    rw [exactlyLate late] at ran
    exact .ofExactly ran
  · intro room
    refine ⟨?_, fun admitted => ?_⟩
    · unfold checkExactly
      cases budget : gov.tierBudgets p with
      | none => exact ⟨_, rfl⟩
      | some b =>
        cases usage : gov.tierUsage p with
        | none => exact ⟨_, rfl⟩
        | some u =>
          by_cases late : gov.ReachesMemory b u tokens
          · obtain ⟨d, ran⟩ := (room b u budget usage late).exactly
            exact ⟨d, (exactlyLate late rssMb).trans ran⟩
          · exact ⟨_, exactlyEarly late rssMb⟩
    · obtain ⟨b, u, budget, usage, calm, free, within, tier, system⟩ := admittedIff.mp admitted
      have fits := room b u budget usage ⟨calm, UInt64.not_le.mpr free, UInt64.not_lt.mpr within⟩
      have exact_ := fits.tier
      simp only [UInt64.le_iff_toNat_le, UInt64.toNat_add, UInt32.toNat_toUInt64] at tier system
      obtain ⟨small, reserve⟩ := fits.system (by omega)
      rw [UInt32.le_iff_toNat_le] at reserve
      rw [gov.totalRssNat, ceilingNat reserve] at system
      omega

end ResourceGovernor

inductive LoadEvent where
  | taskStarted (priority : Priority) (rssMb : UInt32)
  | taskEnded (priority : Priority) (rssMb : UInt32)
  | updatePressure (level : MemoryPressureLevel)
  | checkAdmission (priority : Priority) (rssMb : UInt32) (tokensEstimate : UInt64)
  deriving DecidableEq, Repr

namespace LoadEvent

def step (gov : ResourceGovernor) : LoadEvent → Option ResourceGovernor
  | .taskStarted p rssMb => some (gov.taskStarted p rssMb)
  | .taskEnded p rssMb => some (gov.taskEnded p rssMb)
  | .updatePressure level => some (gov.updatePressure level)
  | .checkAdmission _ _ _ => some gov

def HeadroomKept (gov : ResourceGovernor) : LoadEvent → Prop
  | .checkAdmission p rssMb tokens => gov.KeepsHeadroom p rssMb tokens
  | _ => True

def Fits (gov : ResourceGovernor) : LoadEvent → Prop
  | .checkAdmission p rssMb tokens => gov.RoomForSums p rssMb tokens
  | _ => True

theorem headroomKeptIff (config : GovernorConfig) (events : List LoadEvent) :
    Meets step HeadroomKept (.new config) events ↔ Meets step Fits (.new config) events := by
  have each : HeadroomKept = Fits := by
    funext gov event
    cases event with
    | checkAdmission p rssMb tokens => exact propext ResourceGovernor.keepsHeadroomIff
    | taskStarted p rssMb => rfl
    | taskEnded p rssMb => rfl
    | updatePressure level => rfl
  rw [each]

theorem headroomUnderflows : ¬ Meets step HeadroomKept (.new ⟨1024, 2048⟩) [.checkAdmission .p1Normal 512 1000] ∧
    (ResourceGovernor.new ⟨1024, 2048⟩).checkAdmission .p1Normal 512 1000 = .admitted := by
  have admitted : (ResourceGovernor.new ⟨1024, 2048⟩).checkAdmission .p1Normal 512 1000 = .admitted := by decide +kernel
  refine ⟨fun meets => ?_, admitted⟩
  exact absurd (meets.1.kept admitted) (by decide +kernel)

end LoadEvent
end ArosKernel.Governor
