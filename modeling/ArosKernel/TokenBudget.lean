import ArosKernel.GovernorRuns

/-! The hourly token budget of a tier. A grant is a started task with what it was
admitted for and what it has reported; it may report until its last report, before
or after its end. Ends are the releases of any tier and size. Between the check of a
submission and its start anything may happen but another submission. -/
namespace ArosKernel.Governor
open Transition Ledger

namespace ResourceGovernor

def tokensRecorded (gov : ResourceGovernor) (p : Priority) : Nat :=
  ((gov.tierUsage p).map (fun u => u.tokensUsedThisHour.toNat)).getD 0

def tokenCap (gov : ResourceGovernor) (p : Priority) : Nat :=
  ((gov.tierBudgets p).map (fun b => b.maxTokensPerHour.toNat)).getD 0

end ResourceGovernor

structure Grant where
  priority : Priority
  tokensEstimate : UInt64
  reported : Nat
  settled : Bool
  deriving DecidableEq, Repr

def Grant.unreported (t : Grant) : Nat := if t.settled then 0 else t.tokensEstimate.toNat - t.reported

abbrev unreportedOf (p : Priority) (grants : List Grant) : Nat := owed Grant.priority Grant.unreported p grants

structure Entering where
  priority : Priority
  rssMb : UInt32
  tokensEstimate : UInt64
  deriving DecidableEq, Repr

def Entering.grant (e : Entering) : Grant := ⟨e.priority, e.tokensEstimate, 0, false⟩

inductive HourEvent where
  | check (submission : Entering)
  | start
  | report (grant : Nat) (count : UInt64)
  | lastReport (grant : Nat)
  | taskEnded (priority : Priority) (rssMb : UInt32)
  | updatePressure (level : MemoryPressureLevel)
  deriving DecidableEq, Repr

def HourEvent.goesOn : HourEvent → Bool
  | .start | .report .. => true
  | _ => false

structure Hour where
  gov : ResourceGovernor
  grants : List Grant
  entering : Option Entering

namespace Hour

def new (config : GovernorConfig) : Hour := ⟨.new config, [], none⟩

def admits (s : Hour) (e : Entering) : Prop := s.gov.checkAdmission e.priority e.rssMb e.tokensEstimate = .admitted

instance (s : Hour) (e : Entering) : Decidable (s.admits e) := inferInstanceAs (Decidable (_ = _))

-- A report past the estimate is no step: no task of the run makes one.
def step (s : Hour) : HourEvent → Option Hour
  | .check e =>
    if s.entering = none then some (if s.admits e then { s with entering := some e } else s)
    else none
  | .start => do
    let e ← s.entering
    some ⟨s.gov.taskStarted e.priority e.rssMb, s.grants ++ [e.grant], none⟩
  | .report i count => do
    let t ← s.grants[i]?
    if t.settled = false ∧ t.reported + count.toNat ≤ t.tokensEstimate.toNat then
      some ⟨s.gov.tokensUsed t.priority count, s.grants.set i { t with reported := t.reported + count.toNat }, s.entering⟩
    else none
  | .lastReport i => do
    let t ← s.grants[i]?
    some { s with grants := s.grants.set i { t with settled := true } }
  | .taskEnded p rssMb => some { s with gov := s.gov.taskEnded p rssMb }
  | .updatePressure level => some { s with gov := s.gov.updatePressure level }

def Within (s : Hour) : Prop := ∀ p, s.gov.tokensRecorded p ≤ s.gov.tokenCap p

instance (s : Hour) : Decidable s.Within := inferInstanceAs (Decidable (∀ p, s.gov.tokensRecorded p ≤ s.gov.tokenCap p))

-- A submission that is admitted leaves the cap room for all estimates.
def Roomy (s : Hour) : HourEvent → Prop
  | .check e => s.entering = none → s.admits e →
      s.gov.tokensRecorded e.priority + unreportedOf e.priority s.grants + e.tokensEstimate.toNat ≤ s.gov.tokenCap e.priority
  | _ => True

def admitted (s : Hour) : List Grant := s.grants ++ (s.entering.map Entering.grant).toList

def Committed (s : Hour) : Prop := ∀ p, s.gov.tokensRecorded p + unreportedOf p s.admitted ≤ s.gov.tokenCap p

end Hour

namespace ResourceGovernor

theorem recordedUntouched (gov : ResourceGovernor) (p q : Priority) {f : TierUsage → TierUsage}
    (same : ∀ u, (f u).tokensUsedThisHour = u.tokensUsedThisHour) :
    (gov.record p f).tokensRecorded q = gov.tokensRecorded q := by
  unfold tokensRecorded
  by_cases mine : q = p
  · subst q
    rw [recordSelf, Option.map_map]
    exact congrArg (fun g => ((gov.tierUsage p).map g).getD 0) (funext (fun u => congrArg UInt64.toNat (same u)))
  · rw [recordOther gov mine]

theorem recordedStarted (gov : ResourceGovernor) (p : Priority) (rssMb : UInt32) (q : Priority) :
    (gov.taskStarted p rssMb).tokensRecorded q = gov.tokensRecorded q := gov.recordedUntouched p q (fun _ => rfl)

theorem recordedEnded (gov : ResourceGovernor) (p : Priority) (rssMb : UInt32) (q : Priority) :
    (gov.taskEnded p rssMb).tokensRecorded q = gov.tokensRecorded q := gov.recordedUntouched p q (fun _ => rfl)

theorem recordedOther (gov : ResourceGovernor) {p q : Priority} (other : q ≠ p) (count : UInt64) :
    (gov.tokensUsed p count).tokensRecorded q = gov.tokensRecorded q := by
  rw [tokensRecorded, tokensUsed, recordOther gov other]
  rfl

theorem recordedWraps {gov : ResourceGovernor} {p : Priority} (present : (gov.tierUsage p).isSome) (count : UInt64) :
    (gov.tokensUsed p count).tokensRecorded p = (gov.tokensRecorded p + count.toNat) % 2 ^ 64 := by
  obtain ⟨u, found⟩ := Option.isSome_iff_exists.mp present
  have before : gov.tokensRecorded p = u.tokensUsedThisHour.toNat := by rw [tokensRecorded, found]; rfl
  rw [before, tokensRecorded, tokensUsed, recordSelf, found]
  exact UInt64.toNat_add ..

theorem recordedSelf {gov : ResourceGovernor} {p : Priority} (present : (gov.tierUsage p).isSome) {count : UInt64}
    (small : gov.tokensRecorded p + count.toNat < 2 ^ 64) :
    (gov.tokensUsed p count).tokensRecorded p = gov.tokensRecorded p + count.toNat := by
  rw [recordedWraps present, Nat.mod_eq_of_lt small]

theorem recordSome {gov : ResourceGovernor} {q : Priority} (present : (gov.tierUsage q).isSome) (p : Priority)
    (f : TierUsage → TierUsage) : ((gov.record p f).tierUsage q).isSome := by
  by_cases mine : q = p
  · subst q
    rw [recordSelf, Option.isSome_map]
    exact present
  · rw [recordOther gov mine]
    exact present

end ResourceGovernor

namespace Hour

structure Tiers (s : Hour) : Prop where
  usage : ∀ p, (s.gov.tierUsage p).isSome
  budgets : ∀ p, s.gov.tierBudgets p = some p.budget

theorem newTiers (config : GovernorConfig) : (new config).Tiers := ⟨fun _ => rfl, fun _ => rfl⟩

theorem Tiers.cap {s : Hour} (tiers : s.Tiers) (p : Priority) : s.gov.tokenCap p = p.budget.maxTokensPerHour.toNat := by
  rw [ResourceGovernor.tokenCap, tiers.budgets]
  rfl

theorem Tiers.capSmall {s : Hour} (tiers : s.Tiers) (p : Priority) : s.gov.tokenCap p + 1 < 2 ^ 64 := by
  rw [tiers.cap]
  cases p <;> decide

theorem checkStep {s t : Hour} {e : Entering} (next : step s (.check e) = some t) :
    s.entering = none ∧ ((s.admits e ∧ t = { s with entering := some e }) ∨ (¬ s.admits e ∧ t = s)) := by
  simp only [step, Option.ite_none_right_eq_some, Option.some.injEq] at next
  obtain ⟨free, same⟩ := next
  by_cases passes : s.admits e
  · rw [if_pos passes] at same
    exact ⟨free, .inl ⟨passes, same.symm⟩⟩
  · rw [if_neg passes] at same
    exact ⟨free, .inr ⟨passes, same.symm⟩⟩

theorem startStep {s t : Hour} (next : step s .start = some t) : ∃ e, s.entering = some e ∧
    t = ⟨s.gov.taskStarted e.priority e.rssMb, s.grants ++ [e.grant], none⟩ := by
  simp only [step, Option.bind_eq_bind, Option.bind_eq_some_iff, Option.some.injEq] at next
  obtain ⟨e, entering, same⟩ := next
  exact ⟨e, entering, same.symm⟩

theorem reportStep {s t : Hour} {i : Nat} {count : UInt64} (next : step s (.report i count) = some t) :
    ∃ g, s.grants[i]? = some g ∧ g.settled = false ∧ g.reported + count.toNat ≤ g.tokensEstimate.toNat ∧
      t = ⟨s.gov.tokensUsed g.priority count, s.grants.set i { g with reported := g.reported + count.toNat }, s.entering⟩ := by
  simp only [step, Option.bind_eq_bind, Option.bind_eq_some_iff, Option.ite_none_right_eq_some, Option.some.injEq] at next
  obtain ⟨g, at_, ⟨open_, room⟩, same⟩ := next
  exact ⟨g, at_, open_, room, same.symm⟩

theorem lastReportStep {s t : Hour} {i : Nat} (next : step s (.lastReport i) = some t) :
    ∃ g, s.grants[i]? = some g ∧ t = { s with grants := s.grants.set i { g with settled := true } } := by
  simp only [step, Option.bind_eq_bind, Option.bind_eq_some_iff, Option.some.injEq] at next
  obtain ⟨g, at_, same⟩ := next
  exact ⟨g, at_, same.symm⟩

theorem Tiers.step {s t : Hour} (tiers : s.Tiers) {event : HourEvent} (next : s.step event = some t) : t.Tiers := by
  cases event with
  | check e =>
    obtain ⟨_, ⟨_, same⟩ | ⟨_, same⟩⟩ := checkStep next
    · subst same
      exact ⟨tiers.usage, tiers.budgets⟩
    · exact same ▸ tiers
  | start =>
    obtain ⟨e, _, same⟩ := startStep next
    subst same
    exact ⟨fun q => ResourceGovernor.recordSome (tiers.usage q) e.priority _, tiers.budgets⟩
  | report i count =>
    obtain ⟨g, _, _, _, same⟩ := reportStep next
    subst same
    exact ⟨fun q => ResourceGovernor.recordSome (tiers.usage q) g.priority _, tiers.budgets⟩
  | lastReport i =>
    obtain ⟨g, _, same⟩ := lastReportStep next
    subst same
    exact ⟨tiers.usage, tiers.budgets⟩
  | taskEnded p rssMb =>
    cases next
    exact ⟨fun q => ResourceGovernor.recordSome (tiers.usage q) p _, tiers.budgets⟩
  | updatePressure level =>
    cases next
    exact ⟨tiers.usage, tiers.budgets⟩

theorem Grant.unreportedOpen {g : Grant} (open_ : g.settled = false) :
    g.unreported = g.tokensEstimate.toNat - g.reported := by
  rw [Grant.unreported, if_neg (by simp [open_])]

theorem unreportedSet {grants : List Grant} {i : Nat} {g : Grant} (at_ : grants[i]? = some g) (g' : Grant) (q : Priority) :
    unreportedOf q (grants.set i g') + (if g.priority = q then g.unreported else 0) =
      unreportedOf q grants + if g'.priority = q then g'.unreported else 0 := owedSet at_ g' q

theorem unreportedShare {grants : List Grant} {i : Nat} {g : Grant} (at_ : grants[i]? = some g) :
    g.unreported ≤ unreportedOf g.priority grants := by
  rw [unreportedOf, owedClose at_, if_pos rfl]
  exact Nat.le_add_left ..

theorem reportMoves {s t : Hour} (tiers : s.Tiers) {i : Nat} {count : UInt64} (next : step s (.report i count) = some t)
    (q : Priority) (small : s.gov.tokensRecorded q + min count.toNat (unreportedOf q s.grants) < 2 ^ 64) :
    t.gov.tokensRecorded q + unreportedOf q t.grants = s.gov.tokensRecorded q + unreportedOf q s.grants := by
  obtain ⟨g, at_, open_, room, same⟩ := reportStep next
  subst same
  have moved := unreportedSet at_ { g with reported := g.reported + count.toNat } q
  have now : Grant.unreported { g with reported := g.reported + count.toNat } =
      g.tokensEstimate.toNat - (g.reported + count.toNat) := Grant.unreportedOpen open_
  rw [now, Grant.unreportedOpen open_] at moved
  by_cases mine : q = g.priority
  · subst q
    have share := unreportedShare at_
    rw [Grant.unreportedOpen open_] at share
    rw [if_pos rfl, if_pos rfl] at moved
    rw [ResourceGovernor.recordedSelf (tiers.usage g.priority) (by omega)]
    dsimp only
    omega
  · have others : g.priority ≠ q := fun same => mine same.symm
    rw [if_neg others, if_neg others] at moved
    rw [ResourceGovernor.recordedOther s.gov mine]
    exact congrArg (s.gov.tokensRecorded q + ·) moved

theorem admittedOpen (s : Hour) (p : Priority) : unreportedOf p s.admitted =
    unreportedOf p s.grants + unreportedOf p (s.entering.map Entering.grant).toList := owedAppend ..

theorem Committed.check {s t : Hour} {e : Entering} (committed : s.Committed) (roomy : s.Roomy (.check e))
    (next : s.step (.check e) = some t) : t.Committed := by
  intro q
  have room := committed q
  obtain ⟨free, ⟨passes, same⟩ | ⟨_, same⟩⟩ := checkStep next
  · subst same
    have fits := roomy free passes
    have before : s.admitted = s.grants := by rw [admitted, free, Option.map_none, Option.toList_none, List.append_nil]
    have after : admitted { s with entering := some e } = s.grants ++ [e.grant] := rfl
    rw [before] at room
    rw [after, unreportedOf, owedOpen]
    split
    · rename_i mine
      cases mine
      rw [Nat.add_assoc] at fits
      exact fits
    · exact room
  · exact same ▸ room

theorem Committed.start {s t : Hour} (committed : s.Committed) (next : s.step .start = some t) : t.Committed := by
  intro q
  obtain ⟨e, entering, same⟩ := startStep next
  have kept : t.admitted = s.admitted := by
    rw [admitted, admitted, entering, same]
    exact List.append_nil _
  rw [kept, same, ResourceGovernor.recordedStarted]
  exact committed q

theorem Committed.report {s t : Hour} {i : Nat} {count : UInt64} (tiers : s.Tiers) (committed : s.Committed)
    (next : s.step (.report i count) = some t) : t.Committed := by
  intro q
  have room := committed q
  have small := tiers.capSmall q
  have open_ := s.admittedOpen q
  have moved := reportMoves tiers next q (by omega)
  have still : t.entering = s.entering := by
    obtain ⟨_, _, _, _, same⟩ := reportStep next
    rw [same]
  rw [t.admittedOpen, still, (tiers.step next).cap, ← tiers.cap]
  omega

theorem Committed.lastReport {s t : Hour} {i : Nat} (committed : s.Committed)
    (next : s.step (.lastReport i) = some t) : t.Committed := by
  intro q
  have room := committed q
  obtain ⟨g, at_, same⟩ := lastReportStep next
  subst same
  have closed := unreportedSet at_ { g with settled := true } q
  have nothing : Grant.unreported { g with settled := true } = 0 := rfl
  rw [nothing, ite_self] at closed
  rw [admittedOpen] at room ⊢
  dsimp only
  omega

theorem committedStep (s : Hour) (event : HourEvent) (t : Hour) (sound : s.Tiers ∧ s.Committed) (roomy : s.Roomy event)
    (next : s.step event = some t) : t.Tiers ∧ t.Committed := by
  obtain ⟨tiers, committed⟩ := sound
  refine ⟨tiers.step next, ?_⟩
  cases event with
  | check e => exact committed.check roomy next
  | start => exact committed.start next
  | report i count => exact committed.report tiers next
  | lastReport i => exact committed.lastReport next
  | taskEnded p rssMb =>
    cases next
    intro q
    rw [ResourceGovernor.recordedEnded]
    exact committed q
  | updatePressure level =>
    cases next
    exact committed

theorem overreport {s : Hour} (tiers : s.Tiers) {p : Priority} {n : Nat} (left : unreportedOf p s.grants = n)
    (beyond : s.gov.tokenCap p < s.gov.tokensRecorded p + n) :
    ∃ reports t, (∀ event ∈ reports, HourEvent.goesOn event = true) ∧ run step s reports = some t ∧ ¬ t.Within := by
  induction n generalizing s with
  | zero => exact ⟨[], s, by simp, rfl, fun within => absurd (within p) (by omega)⟩
  | succ n ih =>
    by_cases already : s.gov.tokenCap p < s.gov.tokensRecorded p
    · exact ⟨[], s, by simp, rfl, fun within => absurd (within p) (by omega)⟩
    · obtain ⟨i, g, at_, mine, open_⟩ := owedPositive (show 0 < unreportedOf p s.grants by omega)
      have unsettled : g.settled = false := by
        unfold Grant.unreported at open_
        split at open_
        · exact absurd open_ (Nat.lt_irrefl 0)
        · rename_i still
          exact Bool.eq_false_iff.mpr still
      rw [Grant.unreportedOpen unsettled] at open_
      have next : step s (.report i 1) =
          some ⟨s.gov.tokensUsed g.priority 1, s.grants.set i { g with reported := g.reported + 1 }, s.entering⟩ := by
        have room : g.settled = false ∧ g.reported + (1 : UInt64).toNat ≤ g.tokensEstimate.toNat :=
          ⟨unsettled, by rw [UInt64.toNat_one]; omega⟩
        rw [step, at_]
        exact if_pos room
      have moved := reportMoves tiers next p (by have := tiers.capSmall p; rw [UInt64.toNat_one]; omega)
      have grown : (s.gov.tokensUsed p 1).tokensRecorded p = s.gov.tokensRecorded p + (1 : UInt64).toNat :=
        ResourceGovernor.recordedSelf (tiers.usage p) (by have := tiers.capSmall p; rw [UInt64.toNat_one]; omega)
      subst mine
      dsimp only at moved
      rw [grown, UInt64.toNat_one] at moved
      obtain ⟨reports, t, only, ran, broken⟩ := ih (tiers.step next) (by dsimp only; omega)
        (by rw [(tiers.step next).cap, ← tiers.cap, grown, UInt64.toNat_one]; omega)
      exact ⟨.report i 1 :: reports, t, List.forall_mem_cons.mpr ⟨rfl, only⟩, runCons.mpr ⟨_, next, ran⟩, broken⟩

theorem capKeptIffRoomy (config : GovernorConfig) (events : List HourEvent) :
    (∀ taken later, taken <+: events → (∀ event ∈ later, HourEvent.goesOn event = true) →
      Always step Within (new config) (taken ++ later)) ↔ Meets step Roomy (new config) events := by
  constructor
  · intro capped
    refine meetsIff.mpr (fun taken event inside s ran => ?_)
    have tiers : s.Tiers := reachableInvariant (fun _ _ _ kept next => kept.step next) (newTiers config) ⟨taken, ran⟩
    cases event with
    | check e =>
      intro free passes
      refine Decidable.byContradiction (fun crowded => ?_)
      have checked : s.step (.check e) = some { s with entering := some e } :=
        (if_pos free).trans (congrArg some (if_pos passes))
      have started : step { s with entering := some e } .start =
          some ⟨s.gov.taskStarted e.priority e.rssMb, s.grants ++ [e.grant], none⟩ := rfl
      have after := (tiers.step checked).step started
      have beyond : s.gov.tokenCap e.priority < (s.gov.taskStarted e.priority e.rssMb).tokensRecorded e.priority +
          unreportedOf e.priority (s.grants ++ [e.grant]) := by
        rw [unreportedOf, owedOpen, ResourceGovernor.recordedStarted, if_pos (show e.grant.priority = e.priority from rfl),
          ← Nat.add_assoc]
        exact Nat.lt_of_not_le crowded
      obtain ⟨reports, t, only, later, broken⟩ := overreport after rfl (by rw [after.cap, ← tiers.cap]; exact beyond)
      have whole : run step (new config) (taken ++ [.check e] ++ .start :: reports) = some t := by
        rw [runConcat, runConcat, ran]
        exact (congrArg (fun u => Option.bind u _) (congrArg (fun u => Option.bind u _) checked)).trans later
      exact broken (alwaysIff.mp (capped _ _ inside (List.forall_mem_cons.mpr ⟨rfl, only⟩)) _ (List.prefix_refl _) t whole)
    | _ => trivial
  · intro roomy taken later inside only
    have before : Meets step Roomy (new config) taken :=
      meetsIff.mpr (fun earlier event part => meetsIff.mp roomy earlier event (part.trans inside))
    have after : ∀ s, Meets step Roomy s later := fun s => meetsIff.mpr (fun earlier event part t _ => by
      have own := only event (part.subset (List.mem_append_right _ (List.mem_singleton_self event)))
      cases event with
      | check e => contradiction
      | _ => trivial)
    have initial : (new config).Tiers ∧ (new config).Committed := ⟨newTiers config, fun p => Nat.zero_le _⟩
    exact alwaysOfMeets committedStep (fun s sound p => (Nat.le_add_right ..).trans (sound.2 p)) initial
      (meetsConcat before (fun s _ => after s))

def crowded : List HourEvent :=
  [.check ⟨.p1Normal, 100, 300000⟩, .start, .check ⟨.p1Normal, 100, 300000⟩, .start, .report 0 300000, .report 1 300000]

theorem capExceeded : ¬ Always step Within (new daemonConfig) crowded := by decide +kernel

end Hour
end ArosKernel.Governor
