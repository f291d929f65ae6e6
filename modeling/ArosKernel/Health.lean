import ArosKernel.CircuitBreaker
import ArosKernel.KernelSupervisor
import ArosKernel.Refresh
import ArosKernel.Transition

/-! The health of `supervisor/health.rs` as the supervisor reports it: `refresh_health` copies
the children under one lock and stores the status under another, and `health` reads the
stored status under a third, with other calls in between. -/
namespace ArosKernel.Supervisor
open Transition Refresh KernelSupervisor
open Adapter (elapsed)

inductive HealthLevel where
  | healthy
  | degraded
  | recovering
  deriving DecidableEq, Repr

structure ProcessHealth where
  id : ProcessId
  state : ProcessState
  uptimeSecs : UInt64
  restartCount : UInt32
  deriving DecidableEq, Repr

structure HealthStatus where
  status : HealthLevel
  kernelUptimeSecs : UInt64
  activeProcesses : List ProcessHealth
  lastCheckpoint : Option String
  deriving DecidableEq, Repr

-- `elapsed().as_secs()`.
def elapsedSecs (since now : Instant) : UInt64 := UInt64.ofNat (elapsed since now / 1000000000)

def HealthStatus.initial : HealthStatus :=
  { status := .healthy, kernelUptimeSecs := 0, activeProcesses := [], lastCheckpoint := none }

def levelOf (processes : List ProcessHealth) : HealthLevel :=
  if processes.isEmpty then .healthy
  else
    let allRunning := processes.all (fun p => p.state = .running)
    let anyFailed := processes.any (fun p => p.state = .failed)
    let anyRestarting := processes.any (fun p => p.state = .restarting || p.state = .starting)
    if allRunning then .healthy
    else if anyFailed then .degraded
    else if anyRestarting then .recovering
    else .degraded

def HealthStatus.compute (processes : List ProcessHealth) (kernelStart now : Instant) : HealthStatus :=
  { status := levelOf processes, kernelUptimeSecs := elapsedSecs kernelStart now, activeProcesses := processes,
    lastCheckpoint := none }

namespace KernelSupervisor

abbrev ChildOrder := HashMap.Order ProcessId ChildHandle

def processHealths (k : KernelSupervisor) (order : ChildOrder) (clock : ProcessId → Instant) : List ProcessHealth :=
  (order.values k.children).map (fun h =>
    { id := h.id, state := h.state, uptimeSecs := elapsedSecs h.startedAt (clock h.id),
      restartCount := h.restartTracker.restartCount })

def allHealthy (k : KernelSupervisor) (order : ChildOrder) : Bool :=
  !(order.values k.children).isEmpty && (order.values k.children).all (fun h => h.state = .running)

end KernelSupervisor

structure Board where
  world : World KernelSupervisor (List ProcessHealth) HealthStatus
  failing : List ProcessId

inductive BoardEvent where
  | register (id : ProcessId) (policy : RestartPolicy) (now : Instant)
  | report (id : ProcessId) (state : ProcessState)
  | finish (call : Nat) (readings : Readings)
  | health
  | copy (call : Nat) (order : ChildOrder) (clock : ProcessId → Instant)
  | store (call : Nat) (now : Instant)
  | read (call : Nat)

namespace Board

def start : Board := ⟨.start .new .initial, []⟩

def kernel (s : Board) : KernelSupervisor := s.world.source

/- A call that goes through refreshes the health next; one that fails returns at once. -/
def step (kernelStart : Instant) (s : Board) : BoardEvent → Option Board
  | .register id policy now => some { s with world := (s.world.change (s.kernel.register id policy now)).enter false }
  | .report id state =>
    match s.kernel.setState id state with
    | (.error _, _) => some s
    | (.ok (), kernel) =>
      if state = .failed then some ⟨s.world.change kernel, s.failing ++ [id]⟩
      else some { s with world := (s.world.change kernel).enter false }
  | .finish i readings => do
    let id ← s.failing[i]?
    match s.kernel.handleFailure id readings with
    | (.error _, kernel) => some ⟨s.world.change kernel, s.failing.eraseIdx i⟩
    | (.ok (), kernel) => some ⟨(s.world.change kernel).enter false, s.failing.eraseIdx i⟩
  | .health => some { s with world := s.world.enter true }
  | .copy i order clock => (s.world.copy i (fun k => k.processHealths order clock)).map (fun world => { s with world })
  | .store i now => (s.world.store i (fun c => .compute c kernelStart now)).map (fun world => { s with world })
  | .read i => (s.world.read i).map (fun world => { s with world })

end Board

structure Lists (k : KernelSupervisor) (processes : List ProcessHealth) : Prop where
  listed : ∀ id state, (∃ p ∈ processes, p.id = id ∧ p.state = state) ↔ (k.child id).map ChildHandle.state = some state
  once : (processes.map ProcessHealth.id).Nodup
  budget : ∀ p ∈ processes, ∃ h, k.child p.id = some h ∧ p.restartCount ≤ h.restartTracker.policy.maxRestarts

structure Tells (k : KernelSupervisor) (health : HealthStatus) : Prop extends Lists k health.activeProcesses where
  healthy : health.status = .healthy ↔ ∀ id h, k.child id = some h → h.state = .running
  recovering : health.status = .recovering ↔ (∀ id h, k.child id = some h → h.state ≠ .failed) ∧
    ∃ id h, k.child id = some h ∧ (h.state = .restarting ∨ h.state = .starting)
  agrees : ∀ order, k.allHealthy order = true ↔ health.status = .healthy ∧ health.activeProcesses ≠ []

structure Proper (k : KernelSupervisor) : Prop where
  child : ∀ id h, k.child id = some h → h.id = id ∧ h.restartTracker.Bounded

theorem Proper.new : Proper .new := ⟨fun _ _ found => (nomatch found)⟩

theorem Proper.put {k k' : KernelSupervisor} (proper : Proper k) {id : ProcessId} {h : ChildHandle} (own : h.id = id)
    (bounded : h.restartTracker.Bounded) (child : ∀ j, k'.child j = if j = id then some h else k.child j) : Proper k' := by
  refine ⟨fun j g found => ?_⟩
  rw [child] at found
  split at found
  · rename_i same
    cases found
    exact ⟨own.trans same.symm, bounded⟩
  · exact proper.child j g found

theorem boundedReset (t : RestartTracker) : t.reset.Bounded := Nat.zero_le _

theorem Proper.register {k : KernelSupervisor} (proper : Proper k) (id : ProcessId) (policy : RestartPolicy) (now : Instant) :
    Proper (k.register id policy now) :=
  @Proper.put k _ proper id { id, state := .starting, restartTracker := .new policy, startedAt := now, pid := none } rfl
    (Nat.zero_le _) (fun j => k.childRegister id j policy now)

theorem Proper.setState {k k' : KernelSupervisor} (proper : Proper k) {id : ProcessId} {state : ProcessState}
    (set : k.setState id state = (.ok (), k')) : Proper k' := by
  rcases k.setStateCases id state with ⟨_, same⟩ | ⟨_, _, _, _, same⟩ | ⟨h, k'', found, _, same, child⟩
  · rw [same] at set
    cases set
  · rw [same] at set
    cases set
  · rw [same] at set
    cases set
    obtain ⟨own, bounded⟩ := proper.child id h found
    refine proper.put ?_ ?_ child
    · unfold ChildHandle.enter
      split <;> exact own
    · unfold ChildHandle.enter
      split
      · exact boundedReset h.restartTracker
      · exact bounded

theorem Proper.handleFailure {k : KernelSupervisor} (proper : Proper k) (id : ProcessId) (at_ : Readings) :
    Proper (k.handleFailure id at_).2 := by
  rcases k.handleFailureCases id at_ with ⟨_, same⟩ | ⟨h, k', found, _, same, child⟩ | ⟨h, k', found, _, same, child⟩
  · rw [same]
    exact proper
  · rw [same]
    obtain ⟨own, bounded⟩ := proper.child id h found
    refine proper.put ?_ ?_ child
    · exact own
    · exact bounded.recordRestart at_.now
  · rw [same]
    obtain ⟨own, bounded⟩ := proper.child id h found
    refine proper.put ?_ ?_ child
    · exact own
    · exact bounded.recordRestart at_.now

section Listing
variable {k : KernelSupervisor} (proper : Proper k) (order : ChildOrder) (clock : ProcessId → Instant)
include proper

theorem listedHealth {p : ProcessHealth} (member : p ∈ k.processHealths order clock) :
    ∃ h, k.child p.id = some h ∧ p.state = h.state ∧ p.restartCount = h.restartTracker.restartCount := by
  obtain ⟨h, value, same⟩ := List.mem_map.mp member
  subst same
  obtain ⟨id, found⟩ := (order.memValues k.children h).mp value
  have own := (proper.child id h found).1
  subst own
  exact ⟨h, found, rfl, rfl⟩

theorem healthListed {id : ProcessId} {h : ChildHandle} (found : k.child id = some h) :
    ∃ p ∈ k.processHealths order clock, p.id = id ∧ p.state = h.state :=
  ⟨_, List.mem_map_of_mem ((order.memValues k.children h).mpr ⟨id, found⟩), (proper.child id h found).1, rfl⟩

theorem healthsOnce : ((k.processHealths order clock).map ProcessHealth.id).Nodup := by
  have keys : (order.values k.children).map ChildHandle.id = order.keys k.children := by
    have each : ∀ keys : List ProcessId, (∀ j ∈ keys, j ∈ k.children) →
        (keys.filterMap k.children.lookup).map ChildHandle.id = keys := by
      intro keys inside
      induction keys with
      | nil => rfl
      | cons j rest ih =>
        obtain ⟨h, found⟩ := Finmap.mem_iff.mp (inside j List.mem_cons_self)
        simp only [List.filterMap_cons, found, List.map_cons, (proper.child j h found).1]
        rw [ih (fun i member => inside i (List.mem_cons_of_mem _ member))]
    exact each _ (fun j member => (order.complete k.children j).mp member)
  show ((List.map _ (order.values k.children)).map ProcessHealth.id).Nodup
  rw [List.map_map]
  show ((order.values k.children).map ChildHandle.id).Nodup
  rw [keys]
  exact order.nodup k.children

theorem healthsList : Lists k (k.processHealths order clock) := by
  refine ⟨fun id state => ⟨?_, fun found => ?_⟩, healthsOnce proper order clock, fun p member => ?_⟩
  · rintro ⟨p, member, same, which⟩
    obtain ⟨h, found, state_, _⟩ := listedHealth proper order clock member
    rw [← same, found, Option.map_some, ← state_, which]
  · obtain ⟨h, child, state_⟩ := Option.map_eq_some_iff.mp found
    obtain ⟨p, member, same, which⟩ := healthListed proper order clock child
    exact ⟨p, member, same, which.trans state_⟩
  · obtain ⟨h, found, _, count⟩ := listedHealth proper order clock member
    exact ⟨h, found, count ▸ (proper.child p.id h found).2.restartCount⟩

end Listing

theorem Lists.every {k : KernelSupervisor} {processes : List ProcessHealth} (lists : Lists k processes) (P : ProcessState → Prop) :
    (∀ p ∈ processes, P p.state) ↔ ∀ id h, k.child id = some h → P h.state := by
  constructor
  · intro all id h found
    obtain ⟨p, member, _, same⟩ := (lists.listed id h.state).mpr (by rw [found]; rfl)
    exact same ▸ all p member
  · intro all p member
    obtain ⟨h, found, same⟩ := Option.map_eq_some_iff.mp ((lists.listed p.id p.state).mp ⟨p, member, rfl, rfl⟩)
    exact same ▸ all p.id h found

theorem Lists.some_ {k : KernelSupervisor} {processes : List ProcessHealth} (lists : Lists k processes) (P : ProcessState → Prop) :
    (∃ p ∈ processes, P p.state) ↔ ∃ id h, k.child id = some h ∧ P h.state := by
  have none := lists.every (fun state => ¬ P state)
  constructor
  · rintro ⟨p, member, holds⟩
    by_contra missing
    push Not at missing
    exact none.mpr missing p member holds
  · rintro ⟨id, h, found, holds⟩
    by_contra missing
    push Not at missing
    exact none.mp missing id h found holds

theorem levelCases (processes : List ProcessHealth) :
    (levelOf processes = .healthy ↔ ∀ p ∈ processes, p.state = .running) ∧
    (levelOf processes = .recovering ↔ (∀ p ∈ processes, p.state ≠ .failed) ∧
      ∃ p ∈ processes, p.state = .restarting ∨ p.state = .starting) := by
  unfold levelOf
  cases processes with
  | nil => simp
  | cons first rest =>
    simp only [List.isEmpty_cons, Bool.false_eq_true, if_false, List.all_eq_true, List.any_eq_true, Bool.or_eq_true,
      decide_eq_true_eq]
    generalize first :: rest = processes
    by_cases running : ∀ p ∈ processes, p.state = .running
    · rw [if_pos running]
      refine ⟨iff_of_true rfl running, iff_of_false (fun same => (nomatch same)) (fun ⟨_, p, member, moving⟩ => ?_)⟩
      rw [running p member] at moving
      rcases moving with same | same <;> cases same
    · rw [if_neg running]
      by_cases failed : ∃ p ∈ processes, p.state = .failed
      · rw [if_pos failed]
        obtain ⟨p, member, broken⟩ := failed
        exact ⟨iff_of_false (fun same => (nomatch same)) running,
          iff_of_false (fun same => (nomatch same)) (fun calm => calm.1 p member broken)⟩
      · rw [if_neg failed]
        push Not at failed
        by_cases moving : ∃ p ∈ processes, p.state = .restarting ∨ p.state = .starting
        · rw [if_pos moving]
          exact ⟨iff_of_false (fun same => (nomatch same)) running, iff_of_true rfl ⟨failed, moving⟩⟩
        · rw [if_neg moving]
          exact ⟨iff_of_false (fun same => (nomatch same)) running,
            iff_of_false (fun same => (nomatch same)) (fun calm => moving calm.2)⟩

theorem allHealthyIff (k : KernelSupervisor) (order : ChildOrder) : k.allHealthy order = true ↔
    (∃ id h, k.child id = some h) ∧ ∀ id h, k.child id = some h → h.state = .running := by
  have values : ∀ h, h ∈ order.values k.children ↔ ∃ id, k.child id = some h := order.memValues k.children
  simp only [KernelSupervisor.allHealthy, Bool.and_eq_true, Bool.not_eq_true', List.isEmpty_eq_false_iff_exists_mem,
    List.all_eq_true, decide_eq_true_eq, values]
  rw [exists_comm]
  refine and_congr_right (fun _ => ⟨fun all id h child => all h ⟨id, child⟩, fun all h listed => ?_⟩)
  obtain ⟨id, child⟩ := listed
  exact all id h child

theorem computeTells {k : KernelSupervisor} {processes : List ProcessHealth} (lists : Lists k processes)
    (kernelStart now : Instant) : Tells k (.compute processes kernelStart now) := by
  obtain ⟨healthy, recovering⟩ := levelCases processes
  have running := healthy.trans (lists.every (· = .running))
  refine ⟨lists, running, ?_, fun order => ?_⟩
  · exact recovering.trans (and_congr (lists.every (· ≠ .failed)) (lists.some_ (fun state => state = .restarting ∨ state = .starting)))
  · rw [allHealthyIff]
    have some_ : (∃ id h, k.child id = some h) ↔ processes ≠ [] := by
      have exists_ := lists.some_ (fun _ => True)
      rw [Ne, List.eq_nil_iff_forall_not_mem]
      push Not
      simpa using exists_.symm
    rw [some_, and_comm]
    exact and_congr running.symm Iff.rfl

namespace Board

structure Sound (s : Board) : Prop where
  world : s.world.Sound Lists Tells
  proper : ∀ k ∈ s.world.versions, Proper k

theorem Sound.kernel {s : Board} (sound : Sound s) : Proper s.kernel :=
  sound.proper _ (List.mem_of_getElem? sound.world.present)

theorem startSound : Sound start :=
  ⟨World.startSound _ _, fun _ member => List.mem_singleton.mp member ▸ Proper.new⟩

theorem Sound.changed {s : Board} (sound : Sound s) {kernel : KernelSupervisor} (proper : Proper kernel) (failing : List ProcessId) :
    Sound ⟨s.world.change kernel, failing⟩ :=
  ⟨sound.world.change kernel, fun k member => (List.mem_append.mp member).elim (sound.proper k)
    (fun new => List.mem_singleton.mp new ▸ proper)⟩

theorem Sound.refreshes {s : Board} (sound : Sound s) (asks : Bool) : Sound { s with world := s.world.enter asks } :=
  ⟨sound.world.enter asks, sound.proper⟩

theorem stepSound (kernelStart : Instant) (s : Board) (event : BoardEvent) (t : Board) (sound : Sound s)
    (next : step kernelStart s event = some t) : Sound t := by
  cases event with
  | register id policy now =>
    cases next
    exact (sound.changed (sound.kernel.register id policy now) s.failing).refreshes false
  | report id state =>
    simp only [step] at next
    split at next
    · cases next
      exact sound
    · rename_i kernel set
      have proper := sound.kernel.setState set
      split at next
      · cases next
        exact sound.changed proper _
      · cases next
        exact (sound.changed proper s.failing).refreshes false
  | finish i readings =>
    simp only [step, Option.bind_eq_bind, Option.bind_eq_some_iff] at next
    obtain ⟨id, _, next⟩ := next
    have proper := sound.kernel.handleFailure id readings
    split at next
    · rename_i handled
      rw [handled] at proper
      cases next
      exact sound.changed proper _
    · rename_i handled
      rw [handled] at proper
      cases next
      exact (sound.changed proper (s.failing.eraseIdx i)).refreshes false
  | health =>
    cases next
    exact sound.refreshes true
  | copy i order clock =>
    obtain ⟨world, moved, last⟩ := Option.map_eq_some_iff.mp next
    subst last
    have same : world.versions = s.world.versions := by
      obtain ⟨party, _, moved⟩ := Option.bind_eq_some_iff.mp moved
      split at moved <;> cases moved
      rfl
    have copied : Lists s.world.source ((fun k => KernelSupervisor.processHealths k order clock) s.world.source) :=
      healthsList sound.kernel order clock
    exact ⟨sound.world.copy copied moved, fun k member => sound.proper k (same ▸ member)⟩
  | store i now =>
    obtain ⟨world, moved, last⟩ := Option.map_eq_some_iff.mp next
    subst last
    have same : world.versions = s.world.versions := by
      obtain ⟨party, _, moved⟩ := Option.bind_eq_some_iff.mp moved
      split at moved <;> cases moved
      rfl
    exact ⟨sound.world.store (fun _ _ lists => computeTells lists kernelStart now) moved,
      fun k member => sound.proper k (same ▸ member)⟩
  | read i =>
    obtain ⟨world, moved, last⟩ := Option.map_eq_some_iff.mp next
    subst last
    have same : world.versions = s.world.versions := by
      obtain ⟨party, _, moved⟩ := Option.bind_eq_some_iff.mp moved
      split at moved <;> cases moved
      rfl
    exact ⟨sound.world.read moved, fun k member => sound.proper k (same ▸ member)⟩

end Board

/- Every answer of `health` tells all children as they stood at one moment: after the call
began, or else when a refresh copied them that had not stored its copy by then. -/
theorem healthTellsMoment {kernelStart : Instant} {s : Board} (reached : Reachable (Board.step kernelStart) Board.start s)
    {a : Reply HealthStatus} (answered : a ∈ s.world.answers) :
    ∃ v k, s.world.versions[v]? = some k ∧ Tells k a.value ∧ (a.since ≤ v ∨ v ∈ a.older) := by
  have sound := reachableInvariant (Board.stepSound kernelStart) Board.startSound reached
  obtain ⟨v, k, _, found, tells, allowed⟩ := (sound.world.answers a answered).shown
  exact ⟨v, k, found, tells, allowed⟩

def adaptersFirst : ChildOrder where
  keys m := [.embeddingAdapter, .modelAdapter, .loop2Harness, .loop1Agentic, .loop0Meta, .kernel, .init].filter (· ∈ m)
  nodup m := List.Nodup.filter _ (by decide)
  complete m id := by cases id <;> simp

def overtaken : List BoardEvent :=
  [.register .kernel .default 0, .copy 0 adaptersFirst (fun _ => 5), .report .kernel .running, .copy 1 adaptersFirst (fun _ => 6),
    .store 1 7, .health, .copy 2 adaptersFirst (fun _ => 8), .store 2 9, .store 0 10, .read 2]

def misled : Board := (run (Board.step 0) Board.start overtaken).getD Board.start

def misreport : Reply HealthStatus := ⟨2, [1], some 1, .compute [⟨.kernel, .starting, 0, 0⟩] 0 10⟩

theorem healthTellsMomentMisled : ∃ v k, misled.world.versions[v]? = some k ∧ Tells k misreport.value ∧
    (misreport.since ≤ v ∨ v ∈ misreport.older) :=
  @healthTellsMoment 0 misled (reachableEnd (by decide +kernel)) misreport (by
    have only : misled.world.answers = [misreport] := by decide +kernel
    rw [only]
    exact List.mem_singleton_self _)

end ArosKernel.Supervisor
