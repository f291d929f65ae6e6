import ArosKernel.CircuitBreaker
import ArosKernel.Pressure
import ArosKernel.RuntimeCheck

/-! The daemon of `main.rs` with its governor and the probe that all callers share: the
health loop probes, detects the pressure and publishes it, while tasks come and go. -/
namespace ArosKernel.HealthLoop
open Transition Hardware
open Governor (GovernorConfig ResourceGovernor Furnished Running rssOf rssTotal MemoryPressureLevel Priority)
open Supervisor (Instant)
open Adapter (elapsed)

-- One call of `probe_system`: the clock read on entry, what the system would answer then, and
-- the clock read for the cache.
structure Probe where
  now : Instant
  os : SystemReading
  storedAt : Instant

abbrev ProbeCache := Option (Instant × SystemResources)

def cacheDuration : Duration := .ofSecs 2

def cached (cache : ProbeCache) (now : Instant) : Option SystemResources :=
  match cache with
  | some (ts, res) => if elapsed ts now < cacheDuration.nanos then some res else none
  | none => none

def probeSystem (cache : ProbeCache) (probe : Probe) : SystemResources × ProbeCache :=
  match cached cache probe.now with
  | some res => (res, cache)
  | none => (probe.os.resources, some (probe.storedAt, probe.os.resources))

def saturatingSub32 (a b : UInt32) : UInt32 := if b ≤ a then a - b else 0
def larger (a b : UInt32) : UInt32 := if a ≤ b then b else a

def configFor (hw : SystemResources) : GovernorConfig :=
  { systemRssCeilingMb := larger (saturatingSub32 hw.ramTotalMb.toUInt32 2048) 4096, headroomMb := 2048 }

structure Daemon where
  clock : Instant
  cache : ProbeCache
  gov : ResourceGovernor
  -- Submissions between their check and their start.
  entering : List Running
  -- The health loop stands between `detect_pressure` and `update_pressure`.
  detected : Option MemoryPressureLevel
  -- The answers the cache has held, the call the loop made last, and the call whose level it published.
  samples : List Probe
  asked : Probe
  published : Probe

inductive TaskEvent where
  | check (priority : Priority) (rssMb : UInt32) (tokensEstimate : UInt64)
  | taskStarted (submission : Nat)
  | taskEnded (priority : Priority) (rssMb : UInt32)
  | tokensUsed (priority : Priority) (count : UInt64)

inductive DaemonEvent where
  | probe (probe : Probe)
  | tick (probe : Probe)
  | publish
  | task (event : TaskEvent)

namespace Daemon

def boot (first : Probe) : Daemon :=
  let (hw, cache) := probeSystem none first
  { clock := first.storedAt, cache, entering := [], detected := none, samples := [first], asked := first, published := first,
    gov := (ResourceGovernor.new (configFor hw)).updatePressure (detectPressure hw).level }

/- Any caller's probe. `Instant` never goes back. -/
def probed (s : Daemon) (probe : Probe) : Option (SystemResources × Daemon) :=
  if s.clock ≤ probe.now ∧ probe.now ≤ probe.storedAt then
    let (res, cache) := probeSystem s.cache probe
    match cached s.cache probe.now with
    | some _ => some (res, { s with clock := probe.now, cache })
    | none => some (res, { s with clock := probe.storedAt, cache, samples := probe :: s.samples })
  else none

def taskStep (s : Daemon) : TaskEvent → Option Daemon
  | .check p rssMb tokensEstimate =>
    if s.gov.checkAdmission p rssMb tokensEstimate = .admitted then some { s with entering := s.entering ++ [⟨p, rssMb⟩] }
    else some s
  | .taskStarted i => do
    let t ← s.entering[i]?
    some { s with gov := s.gov.taskStarted t.priority t.rssMb, entering := s.entering.eraseIdx i }
  | .taskEnded p rssMb => some { s with gov := s.gov.taskEnded p rssMb }
  | .tokensUsed p count => some { s with gov := s.gov.tokensUsed p count }

def step (s : Daemon) : DaemonEvent → Option Daemon
  | .probe probe => (s.probed probe).map Prod.snd
  | .tick probe =>
    if s.detected = none then
      (s.probed probe).map (fun (hw, s) => { s with detected := some (detectPressure hw).level, asked := probe })
    else none
  | .publish =>
    s.detected.map (fun level => { s with
      detected := none, published := s.asked, gov := s.gov.updatePressure level })
  | .task event => s.taskStep event

structure Backs (samples : List Probe) (asked : Probe) (sample : Probe) (level : MemoryPressureLevel) : Prop where
  member : sample ∈ samples
  before : sample.now ≤ asked.now
  fresh : asked.now < sample.storedAt + 2000000000
  exact_ : level = ratioLevel sample.os.totalMb sample.os.availableMb

theorem Backs.more {samples : List Probe} {asked sample : Probe} {level : MemoryPressureLevel}
    (backs : Backs samples asked sample level) (new : Probe) : Backs (new :: samples) asked sample level :=
  ⟨List.mem_cons_of_mem _ backs.member, backs.before, backs.fresh, backs.exact_⟩

structure Sound (s : Daemon) : Prop where
  cache : ∀ ts res, s.cache = some (ts, res) →
    ∃ sample ∈ s.samples, sample.storedAt = ts ∧ sample.os.resources = res ∧ sample.now ≤ s.clock ∧ ts ≤ s.clock
  detected : ∀ level, s.detected = some level → ∃ sample, Backs s.samples s.asked sample level
  published : ∃ sample, Backs s.samples s.published sample s.gov.pressureLevel
  furnished : Furnished s.gov

theorem cachedSome {cache : ProbeCache} {now : Instant} {res : SystemResources} (hit : cached cache now = some res) :
    ∃ ts, cache = some (ts, res) ∧ elapsed ts now < 2000000000 := by
  unfold cached at hit
  split at hit
  · split at hit
    · cases hit
      exact ⟨_, rfl, by assumption⟩
    · cases hit
  · cases hit

theorem probedSpec {s t : Daemon} {probe : Probe} {res : SystemResources} (sound : Sound s)
    (next : s.probed probe = some (res, t)) :
    (∃ sample, Backs t.samples probe sample (detectPressure res).level) ∧ Sound t ∧ t.gov = s.gov ∧ t.entering = s.entering ∧
      t.detected = s.detected ∧ t.asked = s.asked ∧ t.published = s.published ∧ (∀ sample ∈ s.samples, sample ∈ t.samples) := by
  unfold probed at next
  split at next
  · rename_i timely
    obtain ⟨later, stored⟩ := timely
    cases hit : cached s.cache probe.now with
    | some found =>
      simp only [probeSystem, hit, Option.some.injEq, Prod.mk.injEq] at next
      obtain ⟨same, last⟩ := next
      subst same last
      obtain ⟨ts, held, young⟩ := cachedSome hit
      obtain ⟨sample, member, when_, what, begun, ended⟩ := sound.cache ts found held
      refine ⟨⟨sample, member, ?_, ?_, ?_⟩, ⟨?_, sound.detected, sound.published, sound.furnished⟩, rfl, rfl, rfl, rfl, rfl,
        fun _ old => old⟩
      · exact Int.le_trans begun later
      · rw [when_]
        simp only [elapsed] at young
        dsimp only [Instant] at *
        omega
      · rw [← what, levelOfReading]
      · intro ts' res' held'
        obtain ⟨sample', member', when_', what', begun', ended'⟩ := sound.cache ts' res' held'
        exact ⟨sample', member', when_', what', Int.le_trans begun' later, Int.le_trans ended' later⟩
    | none =>
      simp only [probeSystem, hit, Option.some.injEq, Prod.mk.injEq] at next
      obtain ⟨same, last⟩ := next
      subst same last
      refine ⟨⟨probe, List.mem_cons_self, Int.le_refl _, ?_, levelOfReading _⟩, ⟨?_, ?_, ?_, sound.furnished⟩, rfl, rfl, rfl, rfl,
        rfl, fun _ old => List.mem_cons_of_mem _ old⟩
      · dsimp only [Instant] at *
        omega
      · intro ts res held
        cases held
        exact ⟨probe, List.mem_cons_self, rfl, rfl, stored, Int.le_refl _⟩
      · intro level waiting
        obtain ⟨sample, backs⟩ := sound.detected level waiting
        exact ⟨sample, backs.more probe⟩
      · obtain ⟨sample, backs⟩ := sound.published
        exact ⟨sample, backs.more probe⟩
  · cases next

theorem bootSound {first : Probe} (timely : first.now ≤ first.storedAt) : Sound (boot first) := by
  refine ⟨fun ts res held => ?_, fun level waiting => ?_, ⟨first, List.mem_cons_self, Int.le_refl _, ?_, levelOfReading _⟩,
    ⟨fun _ => rfl, fun _ => ⟨_, rfl⟩⟩⟩
  · cases held
    exact ⟨first, List.mem_cons_self, rfl, rfl, timely, Int.le_refl _⟩
  · cases waiting
  · show first.now < first.storedAt + 2000000000
    dsimp only [Instant] at *
    omega

theorem taskStepGov {s t : Daemon} {event : TaskEvent} (next : s.taskStep event = some t) :
    (t.gov = s.gov ∨ ∃ p f, t.gov = s.gov.record p f) ∧ t.cache = s.cache ∧ t.clock = s.clock ∧ t.samples = s.samples ∧
      t.detected = s.detected ∧ t.asked = s.asked ∧ t.published = s.published := by
  cases event with
  | check p rssMb tokens =>
    simp only [taskStep] at next
    split at next <;> cases next <;> exact ⟨.inl rfl, rfl, rfl, rfl, rfl, rfl, rfl⟩
  | taskStarted i =>
    simp only [taskStep, Option.bind_eq_bind, Option.bind_eq_some_iff] at next
    obtain ⟨task, _, last⟩ := next
    cases last
    exact ⟨.inr ⟨_, _, rfl⟩, rfl, rfl, rfl, rfl, rfl, rfl⟩
  | taskEnded p rssMb =>
    cases next
    exact ⟨.inr ⟨_, _, rfl⟩, rfl, rfl, rfl, rfl, rfl, rfl⟩
  | tokensUsed p count =>
    cases next
    exact ⟨.inr ⟨_, _, rfl⟩, rfl, rfl, rfl, rfl, rfl, rfl⟩

theorem taskStepSound {s t : Daemon} {event : TaskEvent} (sound : Sound s) (next : s.taskStep event = some t) : Sound t := by
  obtain ⟨moved, cache, clock, samples, detected, asked, published⟩ := taskStepGov next
  refine ⟨?_, ?_, ?_, ?_⟩
  · rw [cache, samples, clock]
    exact sound.cache
  · rw [detected, samples, asked]
    exact sound.detected
  · have level : t.gov.pressureLevel = s.gov.pressureLevel := by
      rcases moved with same | ⟨p, f, same⟩
      · rw [same]
      · rw [same]
        rfl
    rw [samples, published, level]
    exact sound.published
  · rcases moved with same | ⟨p, f, same⟩
    · exact same ▸ sound.furnished
    · exact same ▸ sound.furnished.record p f

theorem stepSound (s : Daemon) (event : DaemonEvent) (t : Daemon) (sound : Sound s) (next : s.step event = some t) :
    Sound t := by
  cases event with
  | probe probe =>
    obtain ⟨⟨res, u⟩, asked, last⟩ := Option.map_eq_some_iff.mp next
    subst last
    exact (probedSpec sound asked).2.1
  | tick probe =>
    simp only [step] at next
    split at next
    · obtain ⟨⟨res, u⟩, asked, last⟩ := Option.map_eq_some_iff.mp next
      subst last
      obtain ⟨backs, sound', _⟩ := probedSpec sound asked
      refine ⟨sound'.cache, fun level waiting => ?_, sound'.published, sound'.furnished⟩
      cases waiting
      exact backs
    · cases next
  | publish =>
    obtain ⟨level, waiting, last⟩ := Option.map_eq_some_iff.mp next
    subst last
    refine ⟨sound.cache, fun level again => ?_, sound.detected level waiting, ⟨sound.furnished.budgets, sound.furnished.usage⟩⟩
    cases again
  | task event => exact taskStepSound sound next

theorem reachableSound {first : Probe} (timely : first.now ≤ first.storedAt) {s : Daemon}
    (reached : Reachable step (boot first) s) : Sound s := reachableInvariant stepSound (bootSound timely) reached

theorem shedForPressure {gov : ResourceGovernor} (furnished : Furnished gov) (rssMb : UInt32) (tokensEstimate : UInt64) :
    gov.checkAdmission .p2Background rssMb tokensEstimate =
      .shed "system under critical pressure; sheddable tier" ↔ gov.pressureLevel = .critical := by
  obtain ⟨u, found⟩ := furnished.usage .p2Background
  unfold ResourceGovernor.checkAdmission
  rw [furnished.budgets, found]
  show gov.checkTier _ u rssMb tokensEstimate = _ ↔ _
  unfold ResourceGovernor.checkTier
  by_cases critical : gov.pressureLevel = .critical
  · exact iff_of_true (if_pos (by simp [critical, Priority.budget, Governor.TierBudget.p2Background])) critical
  · refine iff_of_false (fun shed => ?_) critical
    rw [if_neg (by simp [critical])] at shed
    split at shed
    · cases shed
    split at shed
    · split at shed
      · have texts := congrArg String.toList (Governor.AdmissionDecision.shed.inj shed)
        simp only [String.toList_append, List.append_assoc] at texts
        cases (List.cons.inj texts).1
      · cases shed
    split at shed
    · cases shed
    split at shed <;> cases shed

/- In every state the daemon reaches, the level its admissions see is the exact level of an
answer that was at most two seconds old for the loop, and background work is turned away
for pressure in just the critical case of that answer. -/
theorem pressureFollows {first : Probe} (timely : first.now ≤ first.storedAt) {s : Daemon}
    (reached : Reachable step (boot first) s) :
    ∃ sample ∈ s.samples, sample.now ≤ s.published.now ∧ s.published.now < sample.storedAt + 2000000000 ∧
      s.gov.pressureLevel = ratioLevel sample.os.totalMb sample.os.availableMb ∧
      ∀ rssMb tokensEstimate,
        (s.gov.checkAdmission .p2Background rssMb tokensEstimate =
          .shed "system under critical pressure; sheddable tier" ↔
        sample.os.totalMb = 0 ∨ 17 * sample.os.totalMb ≤ 20 * usedMb sample.os.totalMb sample.os.availableMb) := by
  have sound := reachableSound timely reached
  obtain ⟨sample, backs⟩ := sound.published
  refine ⟨sample, backs.member, backs.before, backs.fresh, backs.exact_, fun rssMb tokensEstimate => ?_⟩
  rw [shedForPressure sound.furnished, backs.exact_, ratioLevel]
  split
  · rename_i met
    exact iff_of_true rfl met
  · rename_i missed
    refine iff_of_false (fun critical => ?_) missed
    split at critical <;> cases critical

def sixteen : SystemReading :=
  { cpus := 8, totalMemory := 17179869184, availableMemory := 2147483648, loadOne := 1.5, loadFive := 1.0, loadFifteen := 0.5 }

def booted : Probe := ⟨1000, sixteen, 2000⟩

def ticked : List DaemonEvent :=
  [.task (.check .p1Normal 512 1000), .tick ⟨1500002000, sixteen, 1500003000⟩, .task (.taskStarted 0), .publish,
    .task (.taskEnded .p1Normal 0), .task (.tokensUsed .p1Normal 1000)]

def watching : Daemon := (run step (boot booted) ticked).getD (boot booted)

theorem pressureFollowsTick :
    ∃ sample ∈ watching.samples, sample.now ≤ watching.published.now ∧
      watching.published.now < sample.storedAt + 2000000000 ∧
      watching.gov.pressureLevel = ratioLevel sample.os.totalMb sample.os.availableMb ∧
      ∀ rssMb tokensEstimate,
        (watching.gov.checkAdmission .p2Background rssMb tokensEstimate =
          .shed "system under critical pressure; sheddable tier" ↔
        sample.os.totalMb = 0 ∨ 17 * sample.os.totalMb ≤ 20 * usedMb sample.os.totalMb sample.os.availableMb) :=
  @pressureFollows booted (by decide) watching (reachableEnd rfl)

theorem ceilingFor (hw : SystemResources) : (configFor hw).systemRssCeilingMb.toNat =
    max (hw.ramTotalMb.toNat % 2 ^ 32 - 2048) 4096 := by
  have cut : hw.ramTotalMb.toUInt32.toNat = hw.ramTotalMb.toNat % 2 ^ 32 := UInt64.toNat_toUInt32 _
  have base : (2048 : UInt32).toNat = 2048 := rfl
  have floor : (4096 : UInt32).toNat = 4096 := rfl
  simp only [configFor, larger, saturatingSub32]
  split
  · rename_i enough
    have le := UInt32.le_iff_toNat_le.mp enough
    have left := UInt32.toNat_sub_of_le _ _ enough
    rw [base] at le left
    split
    · rename_i small
      have below := UInt32.le_iff_toNat_le.mp small
      omega
    · rename_i large
      have above := UInt32.lt_iff_toNat_lt.mp (UInt32.not_le.mp large)
      omega
  · rename_i short
    have less := UInt32.lt_iff_toNat_lt.mp (UInt32.not_le.mp short)
    rw [base] at less
    rw [if_pos (by decide)]
    omega

theorem bootRoom (first : Probe) : (configFor first.os.resources).systemRssCeilingMb.toNat + 2048 =
    max (first.os.totalMb % 2 ^ 32) 6144 := by
  have ceiling := ceilingFor first.os.resources
  have total : first.os.resources.ramTotalMb.toNat = first.os.totalMb := megabytes _
  rw [total] at ceiling
  omega

/-! A check finds the counters without the submissions that have not started, and is at
most so much in the wrong. -/

def Uncrowded (peak : Nat) (s : Daemon) : DaemonEvent → Prop
  | .task (.check p rssMb tokensEstimate) =>
    s.gov.checkAdmission p rssMb tokensEstimate = .admitted → rssTotal s.entering ≤ peak
  | _ => True

instance (peak : Nat) (s : Daemon) (event : DaemonEvent) : Decidable (Uncrowded peak s event) := by
  unfold Uncrowded
  split <;> infer_instance

structure Committed (config : GovernorConfig) (peak : Nat) (s : Daemon) : Prop where
  furnished : Furnished s.gov
  fixed : s.gov.config = config
  system : (∑ p, s.gov.allocated p) + rssTotal s.entering + config.headroomMb.toNat ≤ config.systemRssCeilingMb.toNat + peak
  tiers : ∀ p, s.gov.allocated p + rssOf p s.entering ≤ p.budget.maxRssMb.toNat + peak

namespace Committed
variable {config : GovernorConfig} {peak : Nat} {s : Daemon}

theorem recorded (committed : Committed config peak s) (p : Priority) (f : Governor.TierUsage → Governor.TierUsage)
    (less : ∀ u, (f u).rssAllocatedMb ≤ u.rssAllocatedMb) : Committed config peak { s with gov := s.gov.record p f } := by
  have each (q : Priority) : (s.gov.record p f).allocated q ≤ s.gov.allocated q := by
    have still : ∀ u, (f u).rssAllocatedMb.toNat ≤ u.rssAllocatedMb.toNat + 0 := fun u => UInt64.le_iff_toNat_le.mp (less u)
    have grown := s.gov.recordGrows p q (fun u => u.rssAllocatedMb.toNat) still
    rwa [ite_self] at grown
  have all : (∑ q, (s.gov.record p f).allocated q) ≤ ∑ q, s.gov.allocated q := Finset.sum_le_sum (fun q _ => each q)
  have system := committed.system
  refine ⟨committed.furnished.record p f, committed.fixed, ?_, fun q => ?_⟩
  · dsimp only
    omega
  · have tier := committed.tiers q
    have less := each q
    dsimp only
    omega

theorem check (committed : Committed config peak s) (modest : peak < 2 ^ 63)
    (room : config.headroomMb.toNat ≤ config.systemRssCeilingMb.toNat) {p : Priority} {rssMb : UInt32}
    {tokensEstimate : UInt64} (admitted : s.gov.checkAdmission p rssMb tokensEstimate = .admitted)
    (uncrowded : rssTotal s.entering ≤ peak) :
    Committed config peak { s with entering := s.entering ++ [⟨p, rssMb⟩] } := by
  obtain ⟨furnished, fixed, system, tiers⟩ := committed
  obtain ⟨b, u, budget, usage, _, _, _, tier, total⟩ := ResourceGovernor.admittedIff.mp admitted
  rw [furnished.budgets] at budget
  cases Option.some.inj budget
  have asked := rssMb.toNat_lt
  have size : (⟨p, rssMb⟩ : Running).mb = rssMb.toNat := rfl
  dsimp only [rssTotal, rssOf] at system uncrowded tiers ⊢
  refine ⟨furnished, fixed, ?_, fun q => ?_⟩
  · have ceiling := config.systemRssCeilingMb.toNat_lt
    rw [UInt64.le_iff_toNat_le, UInt64.toNat_add, UInt32.toNat_toUInt64, ResourceGovernor.totalRssNat, fixed,
      Governor.ceilingNat room] at total
    dsimp only [rssTotal]
    rw [Ledger.totalOpen, size]
    omega
  · dsimp only [rssOf]
    rw [Ledger.owedOpen, size]
    by_cases mine : p = q
    · subst mine
      have held := Governor.allocatedSome usage
      have limit := tiers p
      have budget := p.budget.maxRssMb.toNat_lt
      have share : rssOf p s.entering ≤ rssTotal s.entering := by
        rw [← Governor.sumRss]
        exact Finset.single_le_sum (fun q _ => Nat.zero_le (rssOf q s.entering)) (Finset.mem_univ p)
      dsimp only [rssTotal, rssOf] at share
      rw [UInt64.le_iff_toNat_le, UInt64.toNat_add, UInt32.toNat_toUInt64, UInt32.toNat_toUInt64, ← held] at tier
      rw [if_pos rfl]
      omega
    · rw [if_neg mine]
      exact tiers q

theorem start (committed : Committed config peak s) {i : Nat} {t : Running} (at_ : s.entering[i]? = some t) :
    Committed config peak
      { s with gov := s.gov.taskStarted t.priority t.rssMb, entering := s.entering.eraseIdx i } := by
  obtain ⟨furnished, fixed, system, tiers⟩ := committed
  have each (q : Priority) : (s.gov.taskStarted t.priority t.rssMb).allocated q ≤
      s.gov.allocated q + if t.priority = q then t.mb else 0 := by
    refine s.gov.recordGrows t.priority q (fun u => u.rssAllocatedMb.toNat) (fun u => ?_)
    rw [Governor.TierUsage.recordTaskStart, UInt64.toNat_add, UInt32.toNat_toUInt64]
    exact Nat.mod_le _ _
  have closed (q : Priority) := @Ledger.owedClose _ _ _ Running.priority Running.mb _ _ _ at_ q
  refine ⟨furnished.record _ _, fixed, ?_, fun q => ?_⟩
  · have all : (∑ q, (s.gov.taskStarted t.priority t.rssMb).allocated q) + rssTotal (s.entering.eraseIdx i) ≤
        (∑ q, s.gov.allocated q) + rssTotal s.entering := by
      rw [← Governor.sumRss, ← Governor.sumRss, ← Finset.sum_add_distrib, ← Finset.sum_add_distrib]
      refine Finset.sum_le_sum (fun q _ => ?_)
      have grown := each q
      have left := closed q
      dsimp only [rssOf]
      omega
    dsimp only
    omega
  · have grown := each q
    have left := closed q
    have tier := tiers q
    dsimp only [rssOf] at tier ⊢
    omega

end Committed

theorem probedBooks {s t : Daemon} {probe : Probe} {res : SystemResources} (next : s.probed probe = some (res, t)) :
    t.gov = s.gov ∧ t.entering = s.entering := by
  unfold probed at next
  split at next
  · dsimp only at next
    split at next <;> (cases next; exact ⟨rfl, rfl⟩)
  · cases next

theorem taskCommitted {config : GovernorConfig} {peak : Nat} (modest : peak < 2 ^ 63)
    (room : config.headroomMb.toNat ≤ config.systemRssCeilingMb.toNat) {s t : Daemon} {event : TaskEvent}
    (committed : Committed config peak s) (uncrowded : Uncrowded peak s (.task event)) (next : s.taskStep event = some t) :
    Committed config peak t := by
  cases event with
  | check p rssMb tokensEstimate =>
    simp only [taskStep] at next
    split at next
    · rename_i admitted
      cases next
      exact committed.check modest room admitted (uncrowded admitted)
    · cases next
      exact committed
  | taskStarted i =>
    simp only [taskStep, Option.bind_eq_bind, Option.bind_eq_some_iff] at next
    obtain ⟨task, at_, last⟩ := next
    cases last
    exact committed.start at_
  | taskEnded p rssMb =>
    cases next
    refine committed.recorded p _ (fun u => ?_)
    rw [UInt64.le_iff_toNat_le, Governor.TierUsage.recordTaskEnd, Scheduler.saturatingSubNat]
    exact Nat.sub_le _ _
  | tokensUsed p count =>
    cases next
    exact committed.recorded p _ (fun u => UInt64.le_refl _)

theorem stepCommitted {config : GovernorConfig} {peak : Nat} (modest : peak < 2 ^ 63)
    (room : config.headroomMb.toNat ≤ config.systemRssCeilingMb.toNat) (s : Daemon) (event : DaemonEvent) (t : Daemon)
    (committed : Committed config peak s) (uncrowded : Uncrowded peak s event) (next : s.step event = some t) :
    Committed config peak t := by
  have moved {u : Daemon} (gov : u.gov = s.gov) (entering : u.entering = s.entering) : Committed config peak u := by
    obtain ⟨furnished, fixed, system, tiers⟩ := committed
    exact ⟨gov ▸ furnished, gov ▸ fixed, gov ▸ entering ▸ system, gov ▸ entering ▸ tiers⟩
  cases event with
  | probe probe =>
    obtain ⟨⟨res, u⟩, asked, last⟩ := Option.map_eq_some_iff.mp next
    subst last
    exact moved (probedBooks asked).1 (probedBooks asked).2
  | tick probe =>
    simp only [step] at next
    split at next
    · obtain ⟨⟨res, u⟩, asked, last⟩ := Option.map_eq_some_iff.mp next
      subst last
      exact moved (probedBooks asked).1 (probedBooks asked).2
    · cases next
  | publish =>
    obtain ⟨level, _, last⟩ := Option.map_eq_some_iff.mp next
    subst last
    exact ⟨⟨committed.furnished.budgets, committed.furnished.usage⟩, committed.fixed, committed.system, committed.tiers⟩
  | task event => exact taskCommitted modest room committed uncrowded next

theorem bootCommitted (first : Probe) (peak : Nat) : Committed (configFor first.os.resources) peak (boot first) := by
  have headroom : (configFor first.os.resources).headroomMb.toNat = 2048 := rfl
  have room := bootRoom first
  refine ⟨⟨fun _ => rfl, fun _ => ⟨_, rfl⟩⟩, rfl, ?_, fun p => ?_⟩
  · have nothing : (∑ p, (boot first).gov.allocated p) = 0 := Finset.sum_eq_zero (fun p _ => rfl)
    have nobody : rssTotal (boot first).entering = 0 := rfl
    omega
  · exact Nat.zero_le _

theorem committedBounded (first : Probe) {peak : Nat} (modest : peak < 2 ^ 63) {events : List DaemonEvent}
    (uncrowded : Meets step (Uncrowded peak) (boot first) events) :
    Always step (fun s =>
      (∑ p, s.gov.allocated p) + rssTotal s.entering + 4096 ≤ max (first.os.totalMb % 2 ^ 32) 6144 + peak ∧
        ∀ p, s.gov.allocated p + rssOf p s.entering ≤ p.budget.maxRssMb.toNat + peak) (boot first) events := by
  have headroom : (configFor first.os.resources).headroomMb.toNat = 2048 := rfl
  have room := bootRoom first
  refine alwaysOfMeets (stepCommitted modest (by omega)) (fun s committed => ⟨?_, committed.tiers⟩)
    (bootCommitted first peak) uncrowded
  have system := committed.system
  omega

def rushed : List DaemonEvent :=
  [.task (.check .p1Normal 3000 1000), .task (.check .p1Normal 3000 1000), .task (.taskStarted 0), .task (.taskStarted 0),
    .task (.taskEnded .p1Normal 0), .task (.tokensUsed .p1Normal 1000), .tick ⟨1500002000, sixteen, 1500003000⟩, .publish]

theorem committedBoundedRushed :
    Always step (fun s => (∑ p, s.gov.allocated p) + rssTotal s.entering + 4096 ≤ max (booted.os.totalMb % 2 ^ 32) 6144 + 3000 ∧
      ∀ p, s.gov.allocated p + rssOf p s.entering ≤ p.budget.maxRssMb.toNat + 3000) (boot booted) rushed :=
  committedBounded booted (by decide) (by decide +kernel)

end Daemon
end ArosKernel.HealthLoop
