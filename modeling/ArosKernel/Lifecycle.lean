import ArosKernel.Health
import Mathlib.Data.Fintype.Defs

/-! The daemon of `main.rs` from its first registration to the end of its shutdown. The
main task awaits each call before the next; other tasks ask for the health from the start
of the RPC server and the health loop on. -/
namespace ArosKernel.Lifecycle
open Transition Refresh Supervisor

-- What `run_daemon` does with the supervisor; `serve` spawns the other tasks.
inductive Step where
  | register (id : ProcessId) (policy : RestartPolicy)
  | update (id : ProcessId) (state : ProcessState)
  | health
  | serve
  deriving DecidableEq, Repr

def criticalPolicy : RestartPolicy := { RestartPolicy.default with maxRestarts := 3 }
def loopPolicy : RestartPolicy := .default
def adapterPolicy : RestartPolicy := { RestartPolicy.default with maxRestarts := 10, backoffMax := .ofSecs 30 }

def registrations : List Step :=
  [.register .init criticalPolicy, .register .kernel criticalPolicy, .register .loop0Meta loopPolicy,
    .register .loop1Agentic loopPolicy, .register .loop2Harness loopPolicy, .register .modelAdapter adapterPolicy,
    .register .embeddingAdapter adapterPolicy]

def bootSequence : List Step :=
  [.update .init .running, .update .kernel .running] ++
    [ProcessId.loop0Meta, .loop1Agentic, .loop2Harness].map (fun pid => .update pid .running) ++
    [ProcessId.modelAdapter, .embeddingAdapter].map (fun pid => .update pid .running) ++ [.health]

def shutdownOrder : List ProcessId :=
  [.embeddingAdapter, .modelAdapter, .loop2Harness, .loop1Agentic, .loop0Meta, .kernel, .init]

def gracefulShutdown : List Step := shutdownOrder.flatMap (fun pid => [.update pid .stopping, .update pid .stopped])

def runDaemon : List Step := registrations ++ bootSequence ++ [.serve] ++ gracefulShutdown

/- `mine` is the call the main task awaits last, `failed` is set when it returned an error. -/
structure Daemon where
  board : Board
  script : List Step
  mine : Option Nat
  serving : Bool
  failed : Bool

inductive Event where
  | main (now : Instant)
  | health
  | copy (call : Nat) (order : KernelSupervisor.ChildOrder) (clock : ProcessId → Instant)
  | store (call : Nat) (now : Instant)
  | read (call : Nat)

def finished : Stage (List ProcessHealth) → Bool
  | .left => true
  | _ => false

namespace Daemon

def launched : Daemon := ⟨.start, runDaemon, none, false, false⟩

def idle (s : Daemon) : Bool :=
  match s.mine.bind (fun i => s.board.world.parties[i]?) with
  | none => true
  | some party => finished party.stage

def await (s : Daemon) (rest : List Step) (board : Board) : Daemon :=
  { s with board, script := rest, mine := some s.board.world.parties.length }

def main (kernelStart now : Instant) (s : Daemon) : Option Daemon :=
  match s.script with
  | [] => none
  | .register id policy :: rest => (s.board.step kernelStart (.register id policy now)).map (s.await rest)
  | .update id state :: rest =>
    match s.board.kernel.setState id state with
    | (.error _, _) => some { s with script := [], failed := true }
    | (.ok (), _) => (s.board.step kernelStart (.report id state)).map (s.await rest)
  | .health :: rest => (s.board.step kernelStart .health).map (s.await rest)
  | .serve :: rest => some { s with script := rest, serving := true }

def other (kernelStart : Instant) (s : Daemon) (event : BoardEvent) : Option Daemon :=
  (s.board.step kernelStart event).map (fun board => { s with board })

def step (kernelStart : Instant) (s : Daemon) : Event → Option Daemon
  | .main now => if s.idle then s.main kernelStart now else none
  | .health => if s.serving then s.other kernelStart .health else none
  | .copy i order clock => s.other kernelStart (.copy i order clock)
  | .store i now => s.other kernelStart (.store i now)
  | .read i => s.other kernelStart (.read i)

end Daemon

abbrev States := ProcessId → Option ProcessState

def statesOf (k : KernelSupervisor) : States := fun id => (k.child id).map ChildHandle.state

namespace Step

def writes : Step → Bool
  | .register _ _ | .update _ _ => true
  | .health | .serve => false

def change (states : States) : Step → States
  | .register id _ => Function.update states id (some .starting)
  | .update id state => Function.update states id (some state)
  | .health | .serve => states

def Legal (states : States) : Step → Prop
  | .update id state => states id ≠ none ∧ ¬ (states id = some .stopped ∧ state = .running) ∧ state ≠ .failed
  | _ => True

instance (states : States) : (step : Step) → Decidable (step.Legal states)
  | .update _ _ => inferInstanceAs (Decidable (_ ∧ _))
  | .register _ _ | .health | .serve => isTrue trivial

end Step

def Legal : States → List Step → Prop
  | _, [] => True
  | states, step :: rest => step.Legal states ∧ Legal (step.change states) rest

instance decidableLegal : (states : States) → (script : List Step) → Decidable (Legal states script)
  | _, [] => isTrue trivial
  | states, step :: rest =>
    have := decidableLegal (step.change states) rest
    inferInstanceAs (Decidable (_ ∧ _))

theorem runDaemonLegal : Legal (fun _ => none) runDaemon := by decide +kernel

def written (n : Nat) : Nat := ((runDaemon.take n).filter Step.writes).length

def planned (v : Nat) : States := ((runDaemon.filter Step.writes).take v).foldl Step.change (fun _ => none)

def booted : Nat := 14

theorem writtenNext {n : Nat} {step : Step} {rest : List Step} (at_ : runDaemon.drop n = step :: rest) :
    runDaemon.drop (n + 1) = rest ∧ runDaemon.take (n + 1) = runDaemon.take n ++ [step] := by
  have here : runDaemon[n]? = some step := by rw [← List.head?_drop, at_]; rfl
  refine ⟨?_, ?_⟩
  · rw [← List.tail_drop, at_, List.tail_cons]
  · rw [List.take_add_one, here, Option.toList_some]

theorem writtenQuiet {n : Nat} {step : Step} {rest : List Step} (at_ : runDaemon.drop n = step :: rest)
    (quiet : step.writes = false) : written (n + 1) = written n := by
  rw [written, (writtenNext at_).2, List.filter_append, List.filter_cons_of_neg (by simp [quiet]), List.filter_nil,
    List.append_nil, written]

theorem writtenWrites {n : Nat} {step : Step} {rest : List Step} (at_ : runDaemon.drop n = step :: rest)
    (writes : step.writes = true) : written (n + 1) = written n + 1 ∧ planned (written n + 1) = step.change (planned (written n)) := by
  have split : runDaemon.filter Step.writes =
      (runDaemon.take n).filter Step.writes ++ step :: rest.filter Step.writes := by
    rw [← List.filter_cons_of_pos writes, ← at_, ← List.filter_append, List.take_append_drop]
  refine ⟨?_, ?_⟩
  · rw [written, (writtenNext at_).2, List.filter_append, List.filter_cons_of_pos writes, List.filter_nil, List.length_append,
      List.length_singleton, written]
  · have before : (runDaemon.filter Step.writes).take (written n) = (runDaemon.take n).filter Step.writes := by
      rw [split, written, List.take_left]
    have after : (runDaemon.filter Step.writes).take (written n + 1) = (runDaemon.take n).filter Step.writes ++ [step] := by
      rw [split, written, List.take_length_add_append]
      rfl
    rw [planned, after, List.foldl_append, planned, before]
    rfl

theorem statesRegister (k : KernelSupervisor) (id : ProcessId) (policy : RestartPolicy) (now : Instant) :
    statesOf (k.register id policy now) = (Step.register id policy).change (statesOf k) := by
  funext j
  rw [statesOf, KernelSupervisor.childRegister, Step.change, Function.update_apply]
  split
  · rfl
  · rfl

theorem statesUpdate {k : KernelSupervisor} {id : ProcessId} {state : ProcessState} (legal : (Step.update id state).Legal (statesOf k)) :
    ∃ k', k.setState id state = (.ok (), k') ∧ statesOf k' = (Step.update id state).change (statesOf k) := by
  obtain ⟨known, allowed, _⟩ := legal
  obtain ⟨old, there⟩ := Option.ne_none_iff_exists'.mp known
  obtain ⟨handle, found, same⟩ := Option.map_eq_some_iff.mp there
  obtain ⟨k', set, child⟩ := KernelSupervisor.setAccepted found (fun both => allowed ⟨by
    rw [there, ← same, both.1], both.2⟩)
  refine ⟨k', set, ?_⟩
  funext j
  rw [statesOf, child, Step.change, Function.update_apply]
  split
  · rw [Option.map_some, ChildHandle.enterState]
  · rfl

theorem healthPlace {n : Nat} {rest : List Step} (at_ : runDaemon.drop n = .health :: rest) : n = 14 := by
  have here : runDaemon[n]? = some .health := by rw [← List.head?_drop, at_]; rfl
  have places : ∀ m < runDaemon.length, runDaemon[m]? = some .health → m = 14 := by decide +kernel
  exact places n (List.getElem?_eq_some_iff.mp here).1 here

theorem servePlace {n : Nat} {rest : List Step} (at_ : runDaemon.drop n = .serve :: rest) : n = 15 := by
  have here : runDaemon[n]? = some .serve := by rw [← List.head?_drop, at_]; rfl
  have places : ∀ m < runDaemon.length, runDaemon[m]? = some .serve → m = 15 := by decide +kernel
  exact places n (List.getElem?_eq_some_iff.mp here).1 here

theorem writtenLate {n : Nat} (late : 14 ≤ n) : booted ≤ written n := by
  obtain ⟨more, same⟩ := Nat.exists_eq_add_of_le late
  have first : written 14 = booted := by decide +kernel
  rw [same, written, List.take_add, List.filter_append, List.length_append, ← first, written]
  exact Nat.le_add_right _ _

structure At (n : Nat) (s : Daemon) : Prop where
  board : s.board.Sound
  fine : s.failed = false
  script : s.script = runDaemon.drop n
  count : s.board.world.versions.length = written n + 1
  versions : ∀ v k, s.board.world.versions[v]? = some k → statesOf k = planned v
  legal : Legal (statesOf s.board.kernel) s.script
  early : n ≤ 14 → s.board.world.Alone s.mine ∧ s.serving = false
  late : 15 ≤ n → s.board.world.Late booted

theorem launchedAt : At 0 Daemon.launched where
  board := Board.startSound
  fine := rfl
  script := rfl
  count := by decide +kernel
  versions v k found := by
    cases v with
    | zero =>
      cases found
      rfl
    | succ v => cases found
  legal := runDaemonLegal
  early _ := ⟨⟨fun i p found => (by cases found), rfl⟩, rfl⟩
  late impossible := absurd impossible (by decide)

theorem At.now {n : Nat} {s : Daemon} (here : At n s) : s.board.world.now = written n := by
  rw [World.now, here.count, Nat.add_sub_cancel]

theorem At.current {n : Nat} {s : Daemon} (here : At n s) : statesOf s.board.kernel = planned (written n) :=
  here.versions _ _ (here.now ▸ here.board.world.present)

theorem idleDone {s : Daemon} (idle : s.idle = true) (i : Nat) (p : Party (List ProcessHealth)) (mine : s.mine = some i)
    (at_ : s.board.world.parties[i]? = some p) : p.stage = .left := by
  rw [Daemon.idle, mine, Option.bind_some, at_] at idle
  revert idle
  show finished p.stage = true → p.stage = .left
  cases p.stage with
  | left => exact fun _ => rfl
  | entered => exact fun idle => by cases idle
  | copied v c => exact fun idle => by cases idle
  | stored => exact fun idle => by cases idle

theorem listedOld {versions : List KernelSupervisor} {k k' : KernelSupervisor} {v : Nat}
    (found : (versions ++ [k'])[v]? = some k) : versions[v]? = some k ∨ (v = versions.length ∧ k = k') := by
  by_cases old : v < versions.length
  · rw [List.getElem?_append_left old] at found
    exact .inl found
  · rw [List.getElem?_append_right (Nat.not_lt.mp old), List.getElem?_singleton] at found
    split at found
    · rename_i last
      cases found
      exact .inr ⟨by omega, rfl⟩
    · cases found

theorem At.write {n : Nat} {s : Daemon} (here : At n s) (idle : s.idle = true) {step : Step} {rest : List Step}
    (script : s.script = step :: rest) (writes : step.writes = true) {k : KernelSupervisor}
    (states : statesOf k = step.change (statesOf s.board.kernel))
    (sound : Board.Sound ⟨(s.board.world.change k).enter false, s.board.failing⟩) :
    At (n + 1) (s.await rest ⟨(s.board.world.change k).enter false, s.board.failing⟩) := by
  have at_ : runDaemon.drop n = step :: rest := here.script ▸ script
  obtain ⟨count, next⟩ := writtenWrites at_ writes
  have now_ : statesOf k = planned (written (n + 1)) := by rw [states, here.current, count, next]
  have fresh : (s.board.world.change k).now = written n + 1 := by
    rw [World.now, World.change, List.length_append, List.length_singleton, here.count, Nat.add_sub_cancel]
  refine ⟨sound, here.fine, (writtenNext at_).1.symm, ?_, fun v j found => ?_, ?_, fun few => ?_, fun many => ?_⟩
  · show (s.board.world.versions ++ [k]).length = _
    rw [List.length_append, here.count, count, List.length_singleton]
  · rcases listedOld found with old | ⟨last, same⟩
    · exact here.versions v j old
    · rw [same, now_, last, here.count, count]
  · have legal := here.legal
    rw [script] at legal
    show Legal (statesOf k) rest
    rw [states]
    exact legal.2
  · obtain ⟨alone, quiet⟩ := here.early (by omega)
    exact ⟨(alone.change k).enter (idleDone idle), quiet⟩
  · have passed : 15 ≤ n := by
      by_contra soon
      have same : n = 14 := by omega
      subst same
      have head : step = .health := (List.cons.inj (at_.symm.trans (show runDaemon.drop 14 = .health :: _ from rfl))).1
      rw [head] at writes
      cases writes
    have there : booted ≤ (s.board.world.change k).now := by
      rw [fresh]
      exact Nat.le_succ_of_le (writtenLate (by omega))
    have changed : World.Sound Lists Tells (s.board.world.change k) := here.board.world.change k
    exact ((here.late passed).change k).enter changed there false

theorem mainKept {kernelStart now : Instant} {n : Nat} {s t : Daemon} (here : At n s) (idle : s.idle = true)
    (next : s.main kernelStart now = some t) : At (n + 1) t := by
  unfold Daemon.main at next
  split at next
  · cases next
  · rename_i id policy rest script
    cases next
    have sound := Board.stepSound kernelStart s.board (.register id policy now) _ here.board rfl
    exact here.write idle script rfl (statesRegister s.board.kernel id policy now) sound
  · rename_i id state rest script
    have legal := here.legal
    rw [script] at legal
    obtain ⟨k, set, states⟩ := statesUpdate legal.1
    have reported : s.board.step kernelStart (.report id state) =
        some ⟨(s.board.world.change k).enter false, s.board.failing⟩ := by
      simp only [Board.step, set]
      exact if_neg legal.1.2.2
    rw [set, reported] at next
    cases next
    exact here.write idle script rfl states (Board.stepSound kernelStart s.board _ _ here.board reported)
  · rename_i rest script
    cases next
    have at_ : runDaemon.drop n = .health :: rest := here.script ▸ script
    have place := healthPlace at_
    subst place
    have there : booted ≤ s.board.world.now := here.now ▸ writtenLate (Nat.le_refl _)
    have legal := here.legal
    rw [script] at legal
    obtain ⟨alone, _⟩ := here.early (Nat.le_refl _)
    refine ⟨Board.stepSound kernelStart s.board .health _ here.board rfl, here.fine, (writtenNext at_).1.symm, here.count.trans ?_,
      here.versions, legal.2, fun few => absurd few (by decide), fun _ => ?_⟩
    · rw [writtenQuiet at_ rfl]
    · exact (alone.late (idleDone idle) booted).enter here.board.world there true
  · rename_i rest script
    cases next
    have at_ : runDaemon.drop n = .serve :: rest := here.script ▸ script
    have place := servePlace at_
    subst place
    have legal := here.legal
    rw [script] at legal
    refine ⟨here.board, here.fine, (writtenNext at_).1.symm, here.count.trans ?_, here.versions, legal.2,
      fun few => absurd few (by decide), fun _ => here.late (Nat.le_refl _)⟩
    rw [writtenQuiet at_ rfl]

theorem At.world {n : Nat} {s : Daemon} (here : At n s) {world : World KernelSupervisor (List ProcessHealth) HealthStatus}
    (sound : Board.Sound { s.board with world }) (versions : world.versions = s.board.world.versions)
    (source : world.source = s.board.world.source) (early : n ≤ 14 → world.Alone s.mine) (late : 15 ≤ n → world.Late booted) :
    At n { s with board := { s.board with world } } where
  board := sound
  fine := here.fine
  script := here.script
  count := by rw [versions, here.count]
  versions := by rw [versions]; exact here.versions
  legal := by
    show Legal (statesOf world.source) s.script
    rw [source]
    exact here.legal
  early few := ⟨early few, (here.early few).2⟩
  late := late

theorem stepKept {kernelStart : Instant} {n : Nat} {s : Daemon} {event : Event} {t : Daemon} (here : At n s)
    (next : s.step kernelStart event = some t) : ∃ m, At m t := by
  cases event with
  | main now =>
    simp only [Daemon.step, Option.ite_none_right_eq_some] at next
    exact ⟨n + 1, mainKept here next.1 next.2⟩
  | health =>
    simp only [Daemon.step, Option.ite_none_right_eq_some] at next
    obtain ⟨serving, next⟩ := next
    cases next
    have passed : 15 ≤ n := by
      by_contra soon
      have quiet := (here.early (by omega)).2
      rw [quiet] at serving
      cases serving
    have there : booted ≤ s.board.world.now := here.now ▸ writtenLate (by omega)
    exact ⟨n, here.world (Board.stepSound kernelStart s.board .health _ here.board rfl) rfl rfl (fun few => by omega)
      (fun _ => (here.late passed).enter here.board.world there true)⟩
  | copy i order clock =>
    obtain ⟨board, moved, last⟩ := Option.map_eq_some_iff.mp next
    have sound := Board.stepSound kernelStart s.board _ _ here.board moved
    obtain ⟨world, copied, same⟩ := Option.map_eq_some_iff.mp moved
    subst same last
    have kept : world.versions = s.board.world.versions ∧ world.source = s.board.world.source := by
      obtain ⟨party, _, changed⟩ := Option.bind_eq_some_iff.mp copied
      split at changed <;> cases changed
      exact ⟨rfl, rfl⟩
    exact ⟨n, here.world sound kept.1 kept.2 (fun few => (here.early few).1.copy copied) (fun many => (here.late many).copy copied)⟩
  | store i now =>
    obtain ⟨board, moved, last⟩ := Option.map_eq_some_iff.mp next
    have sound := Board.stepSound kernelStart s.board _ _ here.board moved
    obtain ⟨world, stored, same⟩ := Option.map_eq_some_iff.mp moved
    subst same last
    have kept : world.versions = s.board.world.versions ∧ world.source = s.board.world.source := by
      obtain ⟨party, _, changed⟩ := Option.bind_eq_some_iff.mp stored
      split at changed <;> cases changed
      exact ⟨rfl, rfl⟩
    exact ⟨n, here.world sound kept.1 kept.2 (fun few => (here.early few).1.store stored) (fun many => (here.late many).store stored)⟩
  | read i =>
    obtain ⟨board, moved, last⟩ := Option.map_eq_some_iff.mp next
    have sound := Board.stepSound kernelStart s.board _ _ here.board moved
    obtain ⟨world, read, same⟩ := Option.map_eq_some_iff.mp moved
    subst same last
    have kept : world.versions = s.board.world.versions ∧ world.source = s.board.world.source := by
      obtain ⟨party, _, changed⟩ := Option.bind_eq_some_iff.mp read
      split at changed <;> cases changed
      exact ⟨rfl, rfl⟩
    refine ⟨n, here.world sound kept.1 kept.2 (fun few => ?_) (fun many => (here.late many).read read)⟩
    rw [(here.early few).1.read i] at read
    cases read

instance : Fintype ProcessId := ⟨shutdownOrder.toFinset, fun id => by cases id <;> decide⟩

def bootOrder : List ProcessId := shutdownOrder.reverse

-- A process lives only while all before it run, and stops only when all after it have stopped.
def Stacked (states : States) : Prop :=
  ∀ p q, bootOrder.idxOf p < bootOrder.idxOf q →
    (states q = some .running ∨ states q = some .stopping → states p = some .running) ∧
    (states p = some .stopping ∨ states p = some .stopped → states q = some .stopped)

instance (states : States) : Decidable (Stacked states) := inferInstanceAs (Decidable (∀ _, _))

def writes : Nat := 28

theorem plannedStacked : ∀ v ≤ writes, Stacked (planned v) := by decide +kernel

theorem plannedRunning : ∀ v ≤ writes, (∀ id, planned v id = some .running) ↔ v = booted := by decide +kernel

theorem plannedServed : ∀ v ≤ writes, booted ≤ v → ∀ id, planned v id = some .running ∨ planned v id = some .stopping ∨
    planned v id = some .stopped := by decide +kernel

theorem plannedLast : ∀ id, planned writes id = some .stopped := by decide +kernel

theorem writtenAll : (runDaemon.filter Step.writes).length = writes := by decide +kernel

theorem writtenBound (n : Nat) : written n ≤ writes := by
  rw [written, ← writtenAll]
  exact ((List.take_sublist n runDaemon).filter _).length_le

theorem At.bound {n : Nat} {s : Daemon} (here : At n s) {v : Nat} {k : KernelSupervisor}
    (found : s.board.world.versions[v]? = some k) : v ≤ writes := by
  have inside := (List.getElem?_eq_some_iff.mp found).1
  have most := writtenBound n
  rw [here.count] at inside
  omega

theorem runAt {kernelStart : Instant} {n : Nat} {s t : Daemon} (here : At n s)
    (reached : Reachable (Daemon.step kernelStart) s t) : ∃ m, At m t := by
  have kept : ∀ s event t, (∃ n, At n s) → s.step kernelStart event = some t → ∃ m, At m t :=
    fun _ _ _ known next => known.elim (fun _ here => stepKept here next)
  exact reachableInvariant kept ⟨n, here⟩ reached

theorem reachableAt {kernelStart : Instant} {s : Daemon} (reached : Reachable (Daemon.step kernelStart) Daemon.launched s) :
    ∃ n, At n s := runAt launchedAt reached

structure Reports (v : Nat) (health : HealthStatus) : Prop where
  served : booted ≤ v
  states : ∀ id state, (∃ p ∈ health.activeProcesses, p.id = id ∧ p.state = state) ↔ planned v id = some state
  once : (health.activeProcesses.map ProcessHealth.id).Nodup
  healthy : health.status = .healthy ↔ v = booted
  settled : health.status ≠ .recovering

theorem tellsReports {k : KernelSupervisor} {health : HealthStatus} (tells : Tells k health) {v : Nat}
    (states : statesOf k = planned v) (few : v ≤ writes) (served : booted ≤ v) : Reports v health := by
  have state_ (id : ProcessId) : (k.child id).map ChildHandle.state = planned v id := congrFun states id
  refine ⟨served, fun id state => by rw [tells.listed, state_], tells.once, ?_, fun recovering => ?_⟩
  · rw [tells.healthy, ← plannedRunning v few]
    constructor
    · intro all id
      rcases plannedServed v few served id with running | other
      · exact running
      · obtain ⟨state, there⟩ : ∃ state, planned v id = some state := other.elim (fun same => ⟨_, same⟩) (fun same => ⟨_, same⟩)
        obtain ⟨h, found, _⟩ := Option.map_eq_some_iff.mp ((state_ id).trans there)
        rw [← state_, found, Option.map_some, all id h found]
    · intro all id h found
      have running := (state_ id).trans (all id)
      rw [found] at running
      exact Option.some.inj running
  · obtain ⟨_, id, h, found, moving⟩ := tells.recovering.mp recovering
    have there := state_ id
    rw [found, Option.map_some] at there
    have known := plannedServed v few served id
    rw [← there] at known
    rcases moving with same | same <;> rw [same] at known <;> rcases known with other | other | other <;> cases other

structure Awaits (s : Daemon) (i : Nat) (party : Party (List ProcessHealth)) : Prop where
  mine : s.mine = some i
  at_ : s.board.world.parties[i]? = some party

def Settles (kernelStart : Instant) (s : Daemon) : Prop :=
  ∃ inputs t, run (Daemon.step kernelStart) s inputs = some t ∧ t.idle = true ∧ t.script = s.script

variable {kernelStart : Instant}

theorem Settles.before {s t : Daemon} {event : Event} (next : s.step kernelStart event = some t) (same : t.script = s.script)
    (settles : Settles kernelStart t) : Settles kernelStart s := by
  obtain ⟨inputs, u, ran, idle, script⟩ := settles
  exact ⟨event :: inputs, u, runCons.mpr ⟨t, next, ran⟩, idle, script.trans same⟩

theorem settlesLeft {s : Daemon} {i : Nat} {party : Party (List ProcessHealth)} (awaits : Awaits s i party)
    (stage : party.stage = .left) : Settles kernelStart s := by
  refine ⟨[], s, rfl, ?_, rfl⟩
  rw [Daemon.idle, awaits.mine, Option.bind_some, awaits.at_]
  show finished party.stage = true
  rw [stage]
  rfl

theorem settlesStored {s : Daemon} {i : Nat} {party : Party (List ProcessHealth)} (awaits : Awaits s i party)
    (stage : party.stage = .stored) : Settles kernelStart s := by
  obtain ⟨world, read, there⟩ := World.readPossible awaits.at_ stage
  have next : s.step kernelStart (.read i) = some { s with board := { s.board with world } } := by
    simp only [Daemon.step, Daemon.other, Board.step, read, Option.map_some]
  exact .before next rfl (settlesLeft ⟨awaits.mine, there⟩ rfl)

theorem settlesCopied {s : Daemon} {i : Nat} {party : Party (List ProcessHealth)} (awaits : Awaits s i party) {v : Nat}
    {copy : List ProcessHealth} (stage : party.stage = .copied v copy) : Settles kernelStart s := by
  obtain ⟨world, stored, there⟩ := World.storePossible awaits.at_ stage (fun c => HealthStatus.compute c kernelStart 0)
  have next : s.step kernelStart (.store i 0) = some { s with board := { s.board with world } } := by
    simp only [Daemon.step, Daemon.other, Board.step, stored, Option.map_some]
  refine .before next rfl ?_
  cases asks : party.asks with
  | true =>
    rw [asks, if_pos rfl] at there
    exact settlesStored ⟨awaits.mine, there⟩ rfl
  | false =>
    rw [asks, if_neg Bool.false_ne_true] at there
    exact settlesLeft ⟨awaits.mine, there⟩ rfl

theorem settlesEntered {s : Daemon} {i : Nat} {party : Party (List ProcessHealth)} (awaits : Awaits s i party)
    (stage : party.stage = .entered) : Settles kernelStart s := by
  obtain ⟨world, copied, there⟩ := World.copyPossible awaits.at_ stage
    (fun k => KernelSupervisor.processHealths k adaptersFirst (fun _ => 0))
  have next : s.step kernelStart (.copy i adaptersFirst (fun _ => 0)) = some { s with board := { s.board with world } } := by
    simp only [Daemon.step, Daemon.other, Board.step, copied, Option.map_some]
  exact .before next rfl (settlesCopied ⟨awaits.mine, there⟩ rfl)

theorem settles (s : Daemon) : Settles kernelStart s := by
  cases mine : s.mine with
  | none =>
    refine ⟨[], s, rfl, ?_, rfl⟩
    rw [Daemon.idle, mine]
    rfl
  | some i =>
    cases at_ : s.board.world.parties[i]? with
    | none =>
      refine ⟨[], s, rfl, ?_, rfl⟩
      rw [Daemon.idle, mine, Option.bind_some, at_]
    | some party =>
      cases stage : party.stage with
      | entered => exact settlesEntered ⟨mine, at_⟩ stage
      | copied v copy => exact settlesCopied ⟨mine, at_⟩ stage
      | stored => exact settlesStored ⟨mine, at_⟩ stage
      | left => exact settlesLeft ⟨mine, at_⟩ stage

theorem mainPossible {n : Nat} {s : Daemon} (here : At n s) {step : Step} {rest : List Step} (script : s.script = step :: rest) :
    ∃ t, s.main kernelStart 0 = some t ∧ t.script = rest := by
  have legal := here.legal
  rw [script] at legal
  rw [Daemon.main, script]
  cases step with
  | register id policy => exact ⟨_, rfl, rfl⟩
  | update id state =>
    obtain ⟨k, set, _⟩ := statesUpdate legal.1
    have reported : s.board.step kernelStart (.report id state) =
        some ⟨(s.board.world.change k).enter false, s.board.failing⟩ := by
      simp only [Board.step, set]
      exact if_neg legal.1.2.2
    exact ⟨_, by simp only [set, reported, Option.map_some]; rfl, rfl⟩
  | health => exact ⟨_, rfl, rfl⟩
  | serve => exact ⟨_, rfl, rfl⟩

theorem completes {n : Nat} {s : Daemon} (here : At n s) :
    ∃ inputs t, run (Daemon.step kernelStart) s inputs = some t ∧ t.script = [] := by
  generalize left : s.script = script
  induction script generalizing s n with
  | nil => exact ⟨[], s, rfl, left⟩
  | cons step rest ih =>
    obtain ⟨inputs, t, ran, idle, same⟩ := @settles kernelStart s
    obtain ⟨m, here'⟩ := runAt here ⟨inputs, ran⟩
    obtain ⟨u, called, script⟩ := @mainPossible kernelStart m t here' step rest (same.trans left)
    have next : t.step kernelStart (.main 0) = some u := by rw [Daemon.step, if_pos idle, called]
    obtain ⟨more, last, ran', over_⟩ := ih (mainKept here' idle called) script
    refine ⟨inputs ++ .main 0 :: more, last, ?_, over_⟩
    rw [runConcat, ran]
    exact runCons.mpr ⟨u, next, ran'⟩

def copied (call : Nat) : Event := .copy call adaptersFirst (fun _ => 0)

def overlapping : List Event :=
  (List.range 14).flatMap (fun call => [.main 0, copied call, .store call 0]) ++
    [.main 0, copied 14, .store 14 0, .read 14, .main 0, .health, .main 0, copied 15, .store 15 0, .read 15]

def closing : Daemon := (run (Daemon.step 0) Daemon.launched overlapping).getD Daemon.launched

end ArosKernel.Lifecycle
