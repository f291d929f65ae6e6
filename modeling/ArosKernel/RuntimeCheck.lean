import ArosKernel.FloatArith
import ArosKernel.Admission
import ArosKernel.TokenBudget

/-! The second phase of the governor, `check_runtime`, with its warning threshold in
floats, and the tokens of a task between the two phases. -/
namespace ArosKernel.Governor
open Transition Rounding

inductive RuntimeDecision where
  | continue_
  | warning (reason : String)
  | exceeded (reason : String)
  deriving DecidableEq, Repr

def RuntimeDecision.severity : RuntimeDecision → Nat
  | .continue_ => 0
  | .warning _ => 1
  | .exceeded _ => 2

def TierBudget.warningThreshold (budget : TierBudget) : UInt64 := (budget.maxTokensPerHour.toFloat * 0.8).toUInt64

def ResourceGovernor.checkRuntime (gov : ResourceGovernor) (priority : Priority) (tokensUsed : UInt64)
    (_rssCurrentMb : UInt32) : RuntimeDecision :=
  match gov.tierBudgets priority with
  | none => .exceeded "unknown priority tier"
  | some budget =>
    if gov.pressureLevel = .critical ∧ priority ≠ .p0Critical then .exceeded "system under critical pressure"
    else if budget.maxTokensPerHour < tokensUsed then
      .exceeded s!"token budget exceeded ({tokensUsed}/{budget.maxTokensPerHour})"
    else if budget.warningThreshold < tokensUsed then
      .warning s!"approaching token budget ({tokensUsed}/{budget.maxTokensPerHour})"
    else if gov.pressureLevel = .warn ∧ priority ≠ .p0Critical then .warning "system memory pressure is elevated"
    else .continue_

theorem fourFifths : Denotes 0.8 ((7205759403792794 : Nat) * 2 ^ (-53 : Int)) :=
  literalDenotes 7205759403792794 (-53) (by decide) (by rfl)

theorem thresholdNat {budget : TierBudget} (modest : budget.maxTokensPerHour.toNat ≤ 2 ^ 50) :
    budget.warningThreshold.toNat = 4 * budget.maxTokensPerHour.toNat / 5 := by
  rw [TierBudget.warningThreshold]
  generalize budget.maxTokensPerHour = most at modest ⊢
  have whole : (0 : ℚ) ≤ most.toNat := Nat.cast_nonneg _
  have bound : (most.toNat : ℚ) ≤ 1125899906842624 := by exact_mod_cast (show most.toNat ≤ 1125899906842624 by omega)
  have split := Nat.div_add_mod (4 * most.toNat) 5
  have rest := Nat.mod_lt (4 * most.toNat) (show 0 < 5 by decide)
  have split' : (5 * (4 * most.toNat / 5 : Nat) : ℚ) + (4 * most.toNat % 5 : Nat) = 4 * most.toNat := by exact_mod_cast split
  have rest' : ((4 * most.toNat % 5 : Nat) : ℚ) ≤ 4 := by exact_mod_cast Nat.lt_succ_iff.mp rest
  have natural : (0 : ℚ) ≤ (4 * most.toNat % 5 : Nat) := Nat.cast_nonneg _
  have near : (most.toNat : ℚ) * ((7205759403792794 : Nat) * 2 ^ (-53 : Int)) =
      4 * most.toNat / 5 + 2 * most.toNat / 5 * (1 / 2 ^ 53) := by
    norm_num
    ring
  have size : |(most.toNat : ℚ) * ((7205759403792794 : Nat) * 2 ^ (-53 : Int))| < 2 ^ (1000 : Int) := by
    rw [near, abs_of_nonneg (by positivity)]
    have small : (2 : ℚ) ^ 64 < 2 ^ (1000 : Int) := word
    refine lt_trans ?_ small
    norm_num
    linarith
  obtain ⟨r, product, faithful⟩ := mulDenotes (wordExact (show most.toNat < 2 ^ 53 by omega)) fourFifths size
  clear size
  rw [near] at faithful
  generalize 4 * most.toNat / 5 = k at split split' faithful
  have few : k < 2 ^ 50 := by omega
  -- The product lies between two floats with the same whole part.
  have least : (k : ℚ) ≤ r := by
    refine (faithful k ?_).1 ?_
    · have represented := representableNat (show k < 2 ^ 53 by omega) (show (-1074 : Int) ≤ 0 by decide)
      rwa [zpow_zero, mul_one] at represented
    · have extra : (0 : ℚ) ≤ 2 * most.toNat / 5 * (1 / 2 ^ 53) := by positivity
      linarith
  have most_ : r ≤ ((8 * k + 7 : Nat) : ℚ) * 2 ^ (-3 : Int) := by
    refine (faithful _ (representableNat (show 8 * k + 7 < 2 ^ 53 by omega) (by decide))).2 ?_
    push_cast
    norm_num
    linarith
  have below : r < k + 1 := by
    refine lt_of_le_of_lt most_ ?_
    push_cast
    norm_num
    linarith
  have floor : ⌊r⌋₊ = k := (Nat.floor_eq_iff ((Nat.cast_nonneg k).trans least)).mpr ⟨least, below⟩
  have fits : r < 2 ^ 64 := by
    refine lt_trans below ?_
    have cast : (k : ℚ) < 1125899906842624 := by exact_mod_cast (show k < 1125899906842624 by omega)
    norm_num
    linarith
  rw [floorDenotes product ((Nat.cast_nonneg k).trans least) fits, floor]

def ResourceGovernor.runtimeExactly (gov : ResourceGovernor) (priority : Priority) (tokensUsed : UInt64) : RuntimeDecision :=
  if gov.pressureLevel = .critical ∧ priority ≠ .p0Critical then .exceeded "system under critical pressure"
  else if priority.budget.maxTokensPerHour.toNat < tokensUsed.toNat then
    .exceeded s!"token budget exceeded ({tokensUsed}/{priority.budget.maxTokensPerHour})"
  else if 4 * priority.budget.maxTokensPerHour.toNat < 5 * tokensUsed.toNat then
    .warning s!"approaching token budget ({tokensUsed}/{priority.budget.maxTokensPerHour})"
  else if gov.pressureLevel = .warn ∧ priority ≠ .p0Critical then .warning "system memory pressure is elevated"
  else .continue_

theorem budgetModest (p : Priority) : p.budget.maxTokensPerHour.toNat ≤ 2 ^ 50 := by
  cases p <;> decide

theorem checkRuntimeExact {gov : ResourceGovernor} {p : Priority} (budget : gov.tierBudgets p = some p.budget)
    (tokensUsed : UInt64) (rssMb : UInt32) : gov.checkRuntime p tokensUsed rssMb = gov.runtimeExactly p tokensUsed := by
  have warns : p.budget.warningThreshold < tokensUsed ↔
      4 * p.budget.maxTokensPerHour.toNat < 5 * tokensUsed.toNat := by
    rw [UInt64.lt_iff_toNat_lt, thresholdNat (budgetModest p)]
    omega
  simp only [ResourceGovernor.checkRuntime, ResourceGovernor.runtimeExactly, budget, warns, UInt64.lt_iff_toNat_lt]

theorem exactlySeverity (gov : ResourceGovernor) (p : Priority) (tokensUsed : UInt64) :
    (gov.runtimeExactly p tokensUsed).severity =
      if (gov.pressureLevel = .critical ∧ p ≠ .p0Critical) ∨ p.budget.maxTokensPerHour.toNat < tokensUsed.toNat then 2
      else if 4 * p.budget.maxTokensPerHour.toNat < 5 * tokensUsed.toNat ∨ (gov.pressureLevel = .warn ∧ p ≠ .p0Critical) then 1
      else 0 := by
  unfold ResourceGovernor.runtimeExactly
  by_cases critical : gov.pressureLevel = .critical ∧ p ≠ .p0Critical
  · rw [if_pos critical, if_pos (.inl critical)]
    rfl
  rw [if_neg critical]
  by_cases beyond : p.budget.maxTokensPerHour.toNat < tokensUsed.toNat
  · rw [if_pos beyond, if_pos (.inr beyond)]
    rfl
  rw [if_neg beyond, if_neg (not_or.mpr ⟨critical, beyond⟩)]
  by_cases near : 4 * p.budget.maxTokensPerHour.toNat < 5 * tokensUsed.toNat
  · rw [if_pos near, if_pos (.inl near)]
    rfl
  rw [if_neg near]
  by_cases tense : gov.pressureLevel = .warn ∧ p ≠ .p0Critical
  · rw [if_pos tense, if_pos (.inr tense)]
    rfl
  · rw [if_neg tense, if_neg (not_or.mpr ⟨near, tense⟩)]
    rfl

theorem cascadeMono {a b a' b' : Prop} [Decidable a] [Decidable b] [Decidable a'] [Decidable b'] (first : a → a')
    (second : b → a' ∨ b') : (if a then 2 else if b then 1 else 0) ≤ if a' then 2 else if b' then 1 else 0 := by
  by_cases last : a'
  · rw [if_pos last]
    split
    · exact Nat.le_refl 2
    · split <;> decide
  · rw [if_neg last, if_neg (fun met => last (first met))]
    by_cases warned : b
    · rw [if_pos warned, if_pos ((second warned).resolve_left last)]
    · rw [if_neg warned]
      exact Nat.zero_le _

theorem exactlyMono {gov gov' : ResourceGovernor} (p : Priority) (pressure : gov.pressureLevel.ordinal ≤ gov'.pressureLevel.ordinal)
    {tokens tokens' : UInt64} (more : tokens ≤ tokens') :
    (gov.runtimeExactly p tokens).severity ≤ (gov'.runtimeExactly p tokens').severity := by
  have grown := UInt64.le_iff_toNat_le.mp more
  have critical : gov.pressureLevel = .critical → gov'.pressureLevel = .critical := by
    intro before
    rw [before] at pressure
    cases after : gov'.pressureLevel <;> simp [after, MemoryPressureLevel.ordinal] at pressure ⊢
  have tense : gov.pressureLevel = .warn → gov'.pressureLevel = .critical ∨ gov'.pressureLevel = .warn := by
    intro before
    rw [before] at pressure
    cases after : gov'.pressureLevel <;> simp [after, MemoryPressureLevel.ordinal] at pressure ⊢
  rw [exactlySeverity, exactlySeverity]
  refine cascadeMono ?_ ?_
  · rintro (⟨before, background⟩ | beyond)
    · exact .inl ⟨critical before, background⟩
    · exact .inr (by omega)
  · rintro (near | ⟨before, background⟩)
    · exact .inr (.inl (by omega))
    · rcases tense before with worst | same
      · exact .inl (.inl ⟨worst, background⟩)
      · exact .inr (.inr ⟨same, background⟩)

structure Furnished (gov : ResourceGovernor) : Prop where
  budgets : ∀ p, gov.tierBudgets p = some p.budget
  usage : ∀ p, ∃ u, gov.tierUsage p = some u

theorem newFurnished (config : GovernorConfig) : Furnished (.new config) := ⟨fun _ => rfl, fun _ => ⟨TierUsage.new, rfl⟩⟩

theorem Furnished.record {gov : ResourceGovernor} (furnished : Furnished gov) (p : Priority) (f : TierUsage → TierUsage) :
    Furnished (gov.record p f) := by
  refine ⟨furnished.budgets, fun q => ?_⟩
  obtain ⟨u, found⟩ := furnished.usage q
  by_cases mine : q = p
  · subst mine
    exact ⟨f u, by rw [ResourceGovernor.recordSelf, found, Option.map_some]⟩
  · exact ⟨u, by rw [ResourceGovernor.recordOther gov mine, found]⟩

namespace Books

theorem stepFurnished (s : Books) (event : Event) (t : Books) (furnished : Furnished s.gov) (next : step s event = some t) :
    Furnished t.gov := by
  cases event with
  | submit p rssMb tokens =>
    simp only [step] at next
    split at next <;> cases next
    · exact furnished.record p _
    · exact furnished
  | taskEnded i =>
    simp only [step, Option.bind_eq_bind, Option.bind_eq_some_iff] at next
    obtain ⟨task, _, last⟩ := next
    cases last
    exact furnished.record task.priority _
  | tokensUsed p count =>
    cases next
    exact furnished.record p _
  | resetHourlyTokens =>
    cases next
    refine ⟨furnished.budgets, fun p => ?_⟩
    obtain ⟨u, found⟩ := furnished.usage p
    exact ⟨u.resetHourlyTokens, by simp [ResourceGovernor.resetHourlyTokens, found]⟩
  | updatePressure level =>
    cases next
    exact ⟨furnished.budgets, furnished.usage⟩

theorem reachableFurnished {config : GovernorConfig} {s : Books} (reached : Reachable step (start config) s) :
    Furnished s.gov := reachableInvariant stepFurnished (newFurnished config) reached

end Books

theorem runtimeCheckExact {config : GovernorConfig} {s : Books} (reached : Reachable Books.step (Books.start config) s)
    (p : Priority) (tokensUsed : UInt64) (rssMb : UInt32) :
    s.gov.checkRuntime p tokensUsed rssMb = s.gov.runtimeExactly p tokensUsed ∧
    ∀ t, Reachable Books.step (Books.start config) t → s.gov.pressureLevel.ordinal ≤ t.gov.pressureLevel.ordinal →
      ∀ tokensUsed' rssMb', tokensUsed ≤ tokensUsed' →
        (s.gov.checkRuntime p tokensUsed rssMb).severity ≤ (t.gov.checkRuntime p tokensUsed' rssMb').severity := by
  have here := checkRuntimeExact ((Books.reachableFurnished reached).budgets p) tokensUsed rssMb
  refine ⟨here, fun t reached' pressure tokensUsed' rssMb' more => ?_⟩
  rw [here, checkRuntimeExact ((Books.reachableFurnished reached').budgets p) tokensUsed' rssMb']
  exact exactlyMono p pressure more

def pressed : Books := (busy.step (.updatePressure .critical)).getD busy

theorem runtimeCheckExactBusy :
    busy.gov.checkRuntime .p1Normal 400001 3000 = busy.gov.runtimeExactly .p1Normal 400001 ∧
    ∀ t, Reachable Books.step (Books.start daemonConfig) t → busy.gov.pressureLevel.ordinal ≤ t.gov.pressureLevel.ordinal →
      ∀ tokensUsed' rssMb', 400001 ≤ tokensUsed' →
        (busy.gov.checkRuntime .p1Normal 400001 3000).severity ≤ (t.gov.checkRuntime .p1Normal tokensUsed' rssMb').severity :=
  @runtimeCheckExact daemonConfig busy (reachableEnd (by decide +kernel)) .p1Normal 400001 3000

def recorded (p : Priority) : List Event → Nat
  | [] => 0
  | .tokensUsed q count :: rest => (if q = p then count.toNat else 0) + recorded p rest
  | _ :: rest => recorded p rest

theorem stepSpent (p : Priority) (s : Books) (event : Event) (t : Books) (next : s.step event = some t) :
    t.gov.tokensRecorded p ≤ s.gov.tokensRecorded p + recorded p [event] := by
  have same (q : Priority) (f : TierUsage → TierUsage) (kept : ∀ u, (f u).tokensUsedThisHour = u.tokensUsedThisHour) :
      (s.gov.record q f).tokensRecorded p ≤ s.gov.tokensRecorded p := by
    have still : ∀ u, (f u).tokensUsedThisHour.toNat ≤ u.tokensUsedThisHour.toNat + 0 := fun u => by rw [kept u, Nat.add_zero]
    have bound := s.gov.recordGrows q p (fun u => u.tokensUsedThisHour.toNat) still
    rwa [ite_self] at bound
  cases event with
  | submit q rssMb tokens =>
    simp only [Books.step] at next
    split at next <;> cases next
    · exact same q _ (fun _ => rfl)
    · exact Nat.le_refl _
  | taskEnded i =>
    simp only [Books.step, Option.bind_eq_bind, Option.bind_eq_some_iff] at next
    obtain ⟨task, _, last⟩ := next
    cases last
    exact same task.priority _ (fun _ => rfl)
  | tokensUsed q count =>
    cases next
    refine s.gov.recordGrows q p (fun u => u.tokensUsedThisHour.toNat) (fun u => ?_)
    rw [TierUsage.recordTokens, UInt64.toNat_add]
    exact Nat.mod_le _ _
  | resetHourlyTokens =>
    cases next
    unfold ResourceGovernor.tokensRecorded ResourceGovernor.resetHourlyTokens
    dsimp only
    cases s.gov.tierUsage p with
    | none => exact Nat.zero_le _
    | some u => exact Nat.zero_le _
  | updatePressure level =>
    cases next
    exact Nat.le_refl _

theorem recordedCons (p : Priority) (event : Event) (rest : List Event) :
    recorded p (event :: rest) = recorded p [event] + recorded p rest := by
  cases event <;> simp [recorded]

theorem runSpent (p : Priority) {s t : Books} {events : List Event} (ran : run Books.step s events = some t) :
    t.gov.tokensRecorded p ≤ s.gov.tokensRecorded p + recorded p events := by
  induction events generalizing s with
  | nil =>
    cases ran
    exact Nat.le_refl _
  | cons event rest ih =>
    obtain ⟨u, next, ran⟩ := runCons.mp ran
    have first := stepSpent p s event u next
    have later := ih ran
    rw [recordedCons]
    omega

/- A task that keeps to its estimate is not told to stop for its tokens, whatever the other
tiers do; critical pressure alone stops it, also where it admitted the task. -/
theorem estimateKept {config : GovernorConfig} {s : Books} (reached : Reachable Books.step (Books.start config) s)
    {p : Priority} {rssMb : UInt32} {tokensEstimate : UInt64}
    (admitted : s.gov.checkAdmission p rssMb tokensEstimate = .admitted) {events : List Event} {t : Books}
    (ran : run Books.step s events = some t) (within : recorded p events ≤ tokensEstimate.toNat) :
    ∃ u, t.gov.tierUsage p = some u ∧ ∀ rssMb',
      ((∃ why, t.gov.checkRuntime p u.tokensUsedThisHour rssMb' = .exceeded why) ↔
        t.gov.pressureLevel = .critical ∧ p ≠ .p0Critical) := by
  obtain ⟨inputs, before⟩ := reached
  have furnished := Books.reachableFurnished ⟨inputs ++ events, by rw [runConcat, before]; exact ran⟩
  obtain ⟨u, usage⟩ := furnished.usage p
  refine ⟨u, usage, fun rssMb' => ?_⟩
  have budgets := (Books.reachableFurnished ⟨inputs, before⟩).budgets p
  obtain ⟨b, v, budget, earlier, _, _, tokens, _⟩ := ResourceGovernor.admittedIff.mp admitted
  rw [budgets] at budget
  cases Option.some.inj budget
  have spent := runSpent p ran
  simp only [ResourceGovernor.tokensRecorded, usage, earlier, Option.map_some, Option.getD_some] at spent
  rw [UInt64.le_iff_toNat_le, saturatingAddNat] at tokens
  have modest := budgetModest p
  have fits : ¬ p.budget.maxTokensPerHour.toNat < u.tokensUsedThisHour.toNat := by omega
  rw [checkRuntimeExact (furnished.budgets p)]
  unfold ResourceGovernor.runtimeExactly
  by_cases critical : t.gov.pressureLevel = .critical ∧ p ≠ .p0Critical
  · rw [if_pos critical]
    exact ⟨fun _ => critical, fun _ => ⟨_, rfl⟩⟩
  · rw [if_neg critical, if_neg fits]
    refine ⟨?_, fun stopped => absurd stopped critical⟩
    rintro ⟨why, stopped⟩
    split at stopped
    · cases stopped
    · split at stopped <;> cases stopped

theorem estimateKeptBusy : ∃ u, (pressed.gov.tokensUsed .p1Normal 1000).tierUsage .p1Normal = some u ∧ ∀ rssMb',
    ((∃ why, (pressed.gov.tokensUsed .p1Normal 1000).checkRuntime .p1Normal u.tokensUsedThisHour rssMb' = .exceeded why) ↔
      (pressed.gov.tokensUsed .p1Normal 1000).pressureLevel = .critical ∧ Priority.p1Normal ≠ .p0Critical) :=
  @estimateKept daemonConfig busy (reachableEnd (by decide +kernel)) .p1Normal 500 1000 (by decide +kernel)
    [.updatePressure .critical, .tokensUsed .p1Normal 1000] ⟨pressed.gov.tokensUsed .p1Normal 1000, pressed.running⟩ rfl
    (by decide)

end ArosKernel.Governor
