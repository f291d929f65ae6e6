import ArosKernel.DagOutcome
import ArosKernel.Layers

/-! How many ticks the executor takes: whether the loop of `run` ends at all, from any
graph, and which nodes each tick dispatches when nothing holds them back. -/
namespace ArosKernel.Dag
open Layers

/-! A tick takes pending nodes away and never makes one. It asks for a ready node by the
id the node carries, and a node may stand under another key. -/

namespace DagGraph

theorem writeBackPending {results : List ExecutionResult} {g : DagGraph} {j : String} {n : Node}
    (found : (g.writeBack results).getNode j = some n) (pending : n.status = .pending) : g.getNode j = some n := by
  induction results generalizing g with
  | nil => exact found
  | cons er rest ih =>
    have before := ih found
    rw [getNodeModify] at before
    split at before
    · obtain ⟨m, _, same⟩ := Option.map_eq_some_iff.mp before
      rcases Node.settledEnds er.result m with ended | ended <;> simp [← same, ended] at pending
    · exact before

theorem writeBackDone {results : List ExecutionResult} (succeeded : ∀ er ∈ results, er.result.success = true)
    {g : DagGraph} {j : String} {n : Node} (found : g.getNode j = some n)
    (written : j ∈ results.map ExecutionResult.nodeId ∨ n.status = .done) : (g.writeBack results).depDone j = true := by
  induction results generalizing g n with
  | nil => exact depDoneIff.mpr ⟨n, found, written.resolve_left List.not_mem_nil⟩
  | cons er rest ih =>
    have later := fun other member => succeeded other (List.mem_cons_of_mem _ member)
    by_cases here : j = er.nodeId
    · have settled : (g.modify er.nodeId (Node.settled er.result)).getNode j = some (n.settled er.result) := by
        rw [getNodeModify, if_pos here, found]
        rfl
      exact ih later settled (.inr (if_pos (succeeded er List.mem_cons_self)))
    · have kept : (g.modify er.nodeId (Node.settled er.result)).getNode j = some n := by
        rw [getNodeModify, if_neg here, found]
      refine ih later kept (written.imp_left (fun listed => ?_))
      rw [List.map_cons, List.mem_cons] at listed
      exact listed.resolve_left here

structure Ready (g : DagGraph) (key : String) (n : Node) : Prop where
  found : g.getNode key = some n
  pending : n.status = .pending
  met : ∀ d ∈ n.dependsOn, g.depDone d = true

-- The id of a ready node finds a node that carries another id still.
def Tangled (g : DagGraph) : Prop := ∃ key n m, g.Ready key n ∧ g.getNode n.id = some m ∧ m.id ≠ n.id

/- What can be done in the end, as long as each node that runs stands under its own id. -/
inductive Finishable (g : DagGraph) : String → Prop where
  | done {id : String} (done : g.depDone id = true) : Finishable g id
  | runs {id : String} {n : Node} (found : g.getNode id = some n) (pending : n.status = .pending) (own : n.id = id)
      (needs : ∀ d ∈ n.dependsOn, Finishable g d) : Finishable g id

structure MayStart (g : DagGraph) (key : String) (n : Node) : Prop where
  found : g.getNode key = some n
  pending : n.status = .pending
  needs : ∀ d ∈ n.dependsOn, g.Finishable d

def OwnIds (g : DagGraph) : Prop := ∀ key n, g.MayStart key n → n.id = key

theorem Ready.mayStart {g : DagGraph} {key : String} {n : Node} (ready : g.Ready key n) : g.MayStart key n :=
  ⟨ready.found, ready.pending, fun d lists => .done (ready.met d lists)⟩

theorem OwnIds.apart {g : DagGraph} (own : g.OwnIds) : ¬ g.Tangled := by
  intro ⟨key, n, m, ready, found, other⟩
  have here := own key n ready.mayStart
  rw [here, ready.found] at found
  exact other (congrArg Node.id (Option.some.inj found).symm)

theorem Keyed.ownIds {g : DagGraph} (keyed : g.Keyed) : g.OwnIds := fun key n start => keyed key n start.found

theorem finishableIdle {g : DagGraph} (idle : g.Idle) {id : String} (finishable : g.Finishable id) :
    g.depDone id = true := by
  induction finishable with
  | done done => exact done
  | runs found pending own needs ih =>
    obtain ⟨d, lists, undone⟩ := idle _ _ found pending
    exact absurd (ih d lists) undone

theorem MayStart.busy {g : DagGraph} {key : String} {n : Node} (start : g.MayStart key n) : ¬ g.Idle := by
  intro idle
  obtain ⟨d, lists, undone⟩ := idle key n start.found start.pending
  exact undone (finishableIdle idle (start.needs d lists))

end DagGraph

namespace DagExecutor
open DagGraph

variable {e : DagExecutor} {order : NodeOrder} {task : TaskExecutor} {g : DagGraph}

theorem tickPending {j : String} {n : Node} (found : (e.executeTick order task g).1.getNode j = some n)
    (pending : n.status = .pending) : g.getNode j = some n ∧ j ∉ e.readyIds order g := by
  rw [executeTickEq] at found
  have claimed := writeBackPending found pending
  rw [claimGet] at claimed
  split at claimed
  · obtain ⟨m, _, same⟩ := Option.map_eq_some_iff.mp claimed
    rw [← same] at pending
    contradiction
  · rename_i idle
    exact ⟨claimed, idle⟩

theorem tickPendingIds (e : DagExecutor) (order : NodeOrder) (task : TaskExecutor) (g : DagGraph) :
    (e.executeTick order task g).1.pendingIds ⊆ g.pendingIds := by
  intro id member
  obtain ⟨n, found, pending⟩ := memPendingIds.mp member
  exact memPendingIds.mpr ⟨n, (tickPending found pending).1, pending⟩

theorem readyIdsFrom {id : String} (member : id ∈ e.readyIds order g) : ∃ key n, g.Ready key n ∧ n.id = id := by
  obtain ⟨n, taken, same⟩ := List.mem_map.mp member
  obtain ⟨⟨key, found⟩, pending, met⟩ := memReadyNodes.mp (List.mem_of_mem_take taken)
  exact ⟨key, n, ⟨found, pending, met⟩, same⟩

theorem readyIdsFound (apart : ¬ g.Tangled) {id : String} {m : Node} (member : id ∈ e.readyIds order g)
    (found : g.getNode id = some m) : m.id = id := by
  obtain ⟨key, n, ready, same⟩ := readyIdsFrom member
  by_contra other
  exact apart ⟨key, n, m, ready, same ▸ found, same ▸ other⟩

theorem claimedIds (apart : ¬ g.Tangled) {n : Node} (member : n ∈ (e.claim order g).2) : n.id ∈ e.readyIds order g := by
  rw [claim, claimNodesRun, List.mem_filterMap] at member
  obtain ⟨id, listed, found⟩ := member
  obtain ⟨m, here, same⟩ := Option.map_eq_some_iff.mp found
  have key : n.id = id := same ▸ show m.id = id from readyIdsFound apart listed here
  exact key ▸ listed

theorem tickUntouched (apart : ¬ g.Tangled) {j : String} (absent : j ∉ e.readyIds order g) (task : TaskExecutor) :
    (e.executeTick order task g).1.getNode j = g.getNode j := by
  rw [executeTickEq, writeBackElsewhere, claimGet, if_neg absent]
  intro listed
  obtain ⟨n, member, key⟩ := List.mem_map.mp listed
  exact absent (key ▸ claimedIds apart member)

theorem tickRuns (apart : ¬ g.Tangled) (succeeds : ∀ n, (task n).nodeResult.success = true) {j : String} {m : Node}
    (member : j ∈ e.readyIds order g) (found : g.getNode j = some m) :
    (e.executeTick order task g).1.depDone j = true := by
  have claimed : (e.claim order g).1.getNode j = some m.claimed := by
    rw [claimGet, if_pos member, found]
    rfl
  have ran : m.claimed ∈ (e.claim order g).2 := by
    rw [claim, claimNodesRun, List.mem_filterMap]
    exact ⟨j, member, by rw [found]; rfl⟩
  rw [executeTickEq]
  refine writeBackDone (fun er written => ?_) claimed (.inl ?_)
  · obtain ⟨n, _, same⟩ := List.mem_map.mp written
    exact same ▸ succeeds n
  · rw [awaitAllIds]
    exact List.mem_map.mpr ⟨_, ran, show m.id = j from readyIdsFound apart member found⟩

theorem tickDoneBefore (own : g.OwnIds) {id : String} (done : (e.executeTick order task g).1.depDone id = true) :
    g.depDone id = true ∨ ∃ m, g.Ready id m ∧ m.id = id := by
  by_cases member : id ∈ e.readyIds order g
  · obtain ⟨key, n, ready, same⟩ := readyIdsFrom member
    have here : key = id := (own key n ready.mayStart).symm.trans same
    exact .inr ⟨n, here ▸ ready, same⟩
  · rw [depDone, tickUntouched own.apart member] at done
    exact .inl done

theorem finishableBefore (own : g.OwnIds) {id : String} (finishable : (e.executeTick order task g).1.Finishable id) :
    g.Finishable id := by
  induction finishable with
  | done done =>
    rcases tickDoneBefore own done with before | ⟨m, ready, same⟩
    · exact .done before
    · exact .runs ready.found ready.pending same (fun d lists => .done (ready.met d lists))
  | runs found pending same needs ih => exact .runs (tickPending found pending).1 pending same ih

theorem tickOwnIds (own : g.OwnIds) (e : DagExecutor) (order : NodeOrder) (task : TaskExecutor) :
    (e.executeTick order task g).1.OwnIds := by
  intro key n start
  have before := (tickPending start.found start.pending).1
  exact own key n ⟨before, start.pending, fun d lists => finishableBefore own (start.needs d lists)⟩

theorem tickShrinks (own : g.OwnIds) (busy : e.readyIds order g ≠ []) (task : TaskExecutor) :
    (e.executeTick order task g).1.pendingIds.card < g.pendingIds.card := by
  obtain ⟨id, member⟩ := List.exists_mem_of_ne_nil _ busy
  obtain ⟨key, n, ready, same⟩ := readyIdsFrom member
  have here : id = key := same ▸ own key n ready.mayStart
  subst here
  refine Finset.card_lt_card ⟨tickPendingIds e order task g, fun all => ?_⟩
  obtain ⟨m, still, waiting⟩ := memPendingIds.mp (all (memPendingIds.mpr ⟨n, ready.found, ready.pending⟩))
  exact (tickPending still waiting).2 member

theorem finishableAfter (apart : ¬ g.Tangled) (succeeds : ∀ n, (task n).nodeResult.success = true) {id : String}
    (finishable : g.Finishable id) : (e.executeTick order task g).1.Finishable id := by
  induction finishable with
  | @done id done =>
    obtain ⟨n, found, _⟩ := depDoneIff.mp done
    by_cases member : id ∈ e.readyIds order g
    · exact .done (tickRuns apart succeeds member found)
    · exact .done (by rw [depDone, tickUntouched apart member]; exact done)
  | @runs id n found pending own needs ih =>
    by_cases member : id ∈ e.readyIds order g
    · exact .done (tickRuns apart succeeds member found)
    · exact .runs (by rw [tickUntouched apart member, found]) pending own ih

theorem strayAfter (apart : ¬ g.Tangled) (succeeds : ∀ n, (task n).nodeResult.success = true) {key : String} {n : Node}
    (start : g.MayStart key n) (stray : n.id ≠ key) : (e.executeTick order task g).1.MayStart key n := by
  refine ⟨?_, start.pending, fun d lists => finishableAfter apart succeeds (start.needs d lists)⟩
  rw [tickUntouched apart, start.found]
  exact fun member => stray (readyIdsFound apart member start.found)

def afterTicks (e : DagExecutor) (orders : Nat → NodeOrder) (tasks : Nat → TaskExecutor) (g : DagGraph) : Nat → DagGraph
  | 0 => g
  | k + 1 => (e.executeTick (orders k) (tasks k) (e.afterTicks orders tasks g k)).1

def Returns (e : DagExecutor) (orders : Nat → NodeOrder) (tasks : Nat → TaskExecutor) (g : DagGraph) : Prop :=
  ∃ fuel r, e.run orders tasks fuel 0 g = some r

theorem runReturns (parallel : 1 ≤ e.maxParallel) (orders : Nat → NodeOrder) (tasks : Nat → TaskExecutor)
    (fuel k : Nat) (own : g.OwnIds) (enough : g.pendingIds.card < fuel) : ∃ r, e.run orders tasks fuel k g = some r := by
  induction fuel generalizing k g with
  | zero => omega
  | succ fuel ih =>
    rcases tick : e.executeTick (orders k) (tasks k) g with ⟨g', results⟩
    cases left : verdict (orders k) g' results with
    | some outcome => exact ⟨_, runStops tick left fuel⟩
    | none =>
      have busy : e.readyIds (orders k) g ≠ [] := by
        intro idle
        cases (emptyTick (claimNone idle) (tasks k)).symm.trans tick
        exact verdictNone (readyIdsNonempty parallel idle) left
      have fewer := tickShrinks own busy (tasks k)
      have next := tickOwnIds own e (orders k) (tasks k)
      rw [tick] at fewer next
      obtain ⟨r, ran⟩ := ih (k + 1) next (by omega)
      rw [runLoops tick left, ran]
      exact ⟨_, rfl⟩

theorem busySpins {orders : Nat → NodeOrder} {tasks : Nat → TaskExecutor}
    (busy : ∀ k, ¬ (e.afterTicks orders tasks g k).Idle) : ¬ e.Returns orders tasks g := by
  have never : ∀ fuel k, e.run orders tasks fuel k (e.afterTicks orders tasks g k) = none := by
    intro fuel
    induction fuel with
    | zero => exact fun _ => rfl
    | succ fuel ih =>
      intro k
      cases left : verdict (orders k) (e.afterTicks orders tasks g (k + 1))
          (e.executeTick (orders k) (tasks k) (e.afterTicks orders tasks g k)).2 with
      | some outcome => exact absurd (verdictSome left).1 (busy (k + 1))
      | none =>
        have rest := ih (k + 1)
        rw [runLoops rfl left]
        exact congrArg (Option.map _) rest
  intro ⟨fuel, r, ran⟩
  exact Option.some_ne_none r (ran.symm.trans (never fuel 0))

theorem idleReturns (idle : g.Idle) (e : DagExecutor) (orders : Nat → NodeOrder) (tasks : Nat → TaskExecutor) :
    ∃ r, e.run orders tasks 1 0 g = some r ∧ r.ticks = 1 := by
  have ready : g.readyNodes (orders 0) = [] := idleIff.mpr idle
  have none : e.readyIds (orders 0) g = [] := by simp [readyIds, ready]
  obtain ⟨outcome, left⟩ := Option.ne_none_iff_exists'.mp (verdictNone ready)
  exact ⟨_, runStops (emptyTick (claimNone none) (tasks 0)) left 0, rfl⟩

theorem zeroStays (zero : e.maxParallel = 0) (orders : Nat → NodeOrder) (tasks : Nat → TaskExecutor) (g : DagGraph)
    (k : Nat) : e.afterTicks orders tasks g k = g := by
  induction k with
  | zero => rfl
  | succ k ih =>
    have none : e.claim (orders k) g = (g, []) := claimNone (by rw [readyIds, zero]; rfl)
    rw [afterTicks, ih, emptyTick none]

theorem zeroSpins (zero : e.maxParallel = 0) (busy : ¬ g.Idle) (orders : Nat → NodeOrder)
    (tasks : Nat → TaskExecutor) : ¬ e.Returns orders tasks g :=
  busySpins (fun k => by rw [zeroStays zero]; exact busy)

theorem straySpins {orders : Nat → NodeOrder} {tasks : Nat → TaskExecutor}
    (succeed : ∀ k n, (tasks k n).nodeResult.success = true) (apart : ∀ k, ¬ (e.afterTicks orders tasks g k).Tangled)
    {key : String} {n : Node} (start : g.MayStart key n) (stray : n.id ≠ key) : ¬ e.Returns orders tasks g := by
  have waits : ∀ k, (e.afterTicks orders tasks g k).MayStart key n := by
    intro k
    induction k with
    | zero => exact start
    | succ k ih => exact strayAfter (apart k) (succeed k) ih stray
  exact busySpins (fun k => (waits k).busy)

def Settles (e : DagExecutor) (g : DagGraph) : Prop := (1 ≤ e.maxParallel ∧ g.OwnIds) ∨ g.Idle

theorem settledReturns (settles : e.Settles g) (orders : Nat → NodeOrder) (tasks : Nat → TaskExecutor) :
    e.Returns orders tasks g := by
  rcases settles with ⟨parallel, own⟩ | idle
  · exact ⟨_, runReturns parallel orders tasks _ 0 own (Nat.lt_succ_self _)⟩
  · obtain ⟨r, ran, _⟩ := idleReturns idle e orders tasks
    exact ⟨1, r, ran⟩

theorem unsettledSpins (unsettled : ¬ e.Settles g) (orders : Nat → NodeOrder) (tasks : Nat → TaskExecutor)
    (succeed : 1 ≤ e.maxParallel → ∀ k n, (tasks k n).nodeResult.success = true) :
    ¬ e.Returns orders tasks g ∨ (1 ≤ e.maxParallel ∧ ∃ k, (e.afterTicks orders tasks g k).Tangled) := by
  rw [Settles, not_or, not_and] at unsettled
  by_cases parallel : 1 ≤ e.maxParallel
  · have strays := unsettled.1 parallel
    simp only [OwnIds, not_forall] at strays
    obtain ⟨key, n, start, stray⟩ := strays
    by_cases tangled : ∃ k, (e.afterTicks orders tasks g k).Tangled
    · exact .inr ⟨parallel, tangled⟩
    · exact .inl (straySpins (succeed parallel) (not_exists.mp tangled) start stray)
  · exact .inl (zeroSpins (by omega) unsettled.2 orders tasks)

theorem keyedReturnsIff (keyed : g.Keyed) (orders : Nat → NodeOrder) (tasks : Nat → TaskExecutor) :
    e.Returns orders tasks g ↔ 1 ≤ e.maxParallel ∨ g.Idle := by
  constructor
  · intro returns
    by_contra neither
    rw [not_or] at neither
    exact zeroSpins (by omega) neither.2 orders tasks returns
  · rintro (parallel | idle)
    · exact settledReturns (.inl ⟨parallel, keyed.ownIds⟩) orders tasks
    · exact settledReturns (.inr idle) orders tasks

/- A node that can start and stands under another id is never taken off the pending ones,
so no run whose tasks succeed returns, unless results went astray: a ready node's id found a
node with another id still, and that one's result goes to a third. -/
theorem runReturnsIff (e : DagExecutor) (g : DagGraph) :
    (e.Settles g → ∀ orders tasks, e.Returns orders tasks g) ∧
    (¬ e.Settles g → ∀ orders tasks, (1 ≤ e.maxParallel → ∀ k n, (tasks k n).nodeResult.success = true) →
      ¬ e.Returns orders tasks g ∨ (1 ≤ e.maxParallel ∧ ∃ k, (e.afterTicks orders tasks g k).Tangled)) ∧
    (g.Keyed → ∀ orders tasks, (e.Returns orders tasks g ↔ 1 ≤ e.maxParallel ∨ g.Idle)) :=
  ⟨settledReturns, unsettledSpins, keyedReturnsIff⟩

theorem lonelySpins : ¬ (DagExecutor.mk 0).Returns (fun _ => .sorted) (fun _ => panicking "b")
    (build [(.sorted, makeNode "a" [])]) := by
  refine zeroSpins rfl (fun idle => ?_) _ _
  obtain ⟨d, lists, _⟩ := idle "a" (makeNode "a" []) (by decide +kernel) rfl
  exact absurd lists List.not_mem_nil

def dispatchedAt (e : DagExecutor) (orders : Nat → NodeOrder) (tasks : Nat → TaskExecutor) (g : DagGraph) (k : Nat) :
    List String :=
  (e.executeTick (orders k) (tasks k) (e.afterTicks orders tasks g k)).2.map ExecutionResult.nodeId

theorem tickDone {e : DagExecutor} {order : NodeOrder} {g : DagGraph} (keyed : g.Keyed) {task : TaskExecutor}
    (succeeds : ∀ n, (task n).nodeResult.success = true) {id : String} :
    (e.executeTick order task g).1.depDone id = true ↔ g.depDone id = true ∨ id ∈ e.readyIds order g := by
  have apart := keyed.ownIds.apart
  by_cases ready : id ∈ e.readyIds order g
  · obtain ⟨n, found, _⟩ := readyIdsReady keyed ready
    exact iff_of_true (tickRuns apart succeeds ready found) (.inr ready)
  · rw [depDone, tickUntouched apart ready, or_iff_left ready]
    rfl

theorem memReadyIds {e : DagExecutor} {order : NodeOrder} {g : DagGraph} (keyed : g.Keyed)
    (wide : g.nodeCount ≤ e.maxParallel) {id : String} :
    id ∈ e.readyIds order g ↔
      ∃ n, g.getNode id = some n ∧ n.status = .pending ∧ ∀ d ∈ n.dependsOn, g.depDone d = true := by
  constructor
  · exact readyIdsReady keyed
  · intro ⟨n, found, ready⟩
    have few : (g.readyNodes order).length ≤ e.maxParallel := by
      refine (List.length_filter_le ..).trans (le_trans (le_of_eq ?_) wide)
      rw [← List.length_map Node.id, valuesIds keyed]
      exact order.keysLength g.nodes
    rw [readyIds, List.take_of_length_le few]
    exact List.mem_map.mpr ⟨n, memReadyNodes.mpr ⟨⟨id, found⟩, ready⟩, keyed id n found⟩

end DagExecutor

namespace DagGraph
open DagExecutor

def DepsPresent (g : DagGraph) : Prop := ∀ id n, g.getNode id = some n → ∀ d ∈ n.dependsOn, d ∈ g.nodes

instance (g : DagGraph) : Decidable g.DepsPresent :=
  decidable_of_iff (∀ n ∈ (.sorted : NodeOrder).values g.nodes, ∀ d ∈ n.dependsOn, d ∈ g.nodes) (by
    simp only [HashMap.Order.memValues]
    exact ⟨fun each id n found => each n ⟨id, found⟩, fun each n ⟨id, found⟩ => each id n found⟩)

structure Layered (start : DagGraph) (k : Nat) (g : DagGraph) : Prop where
  progress : Progress start (fun _ => true) g
  quiet : g.Quiet
  done : ∀ id, g.depDone id = true ↔ id ∈ start.nodes ∧ Within start.DependsOn k id

namespace Layered
variable {start g : DagGraph} {k : Nat}

theorem initial (pending : start.AllPending) : Layered start 0 start where
  progress := .start pending _
  quiet := pending.quiet
  done id := by
    refine iff_of_false (fun done => ?_) (fun inside => notWithinZero id inside.2)
    obtain ⟨n, found, status⟩ := depDoneIff.mp done
    rw [pending id n found] at status
    contradiction

theorem pendingIff (layered : Layered start k g) {id : String} {n : Node} (found : g.getNode id = some n) :
    n.status = .pending ↔ ¬ Within start.DependsOn k id := by
  have inside := layered.progress.mem.mp (memOfGetNode found)
  have done : n.status = .done ↔ Within start.DependsOn k id := by
    have said := layered.done id
    rw [depDoneIff] at said
    simpa [found, inside] using said
  rw [← done]
  cases status : n.status with
  | pending => simp
  | done => simp
  | inProgress => exact absurd status (layered.quiet id n found)
  | blocked => exact absurd status (layered.progress.unblocked id n found)
  | failed => exact absurd (layered.progress.failed id n found status) (by simp)

theorem needsDone (layered : Layered start k g) (present : start.DepsPresent) {id : String} {n : Node}
    (found : g.getNode id = some n) :
    (∀ d ∈ n.dependsOn, g.depDone d = true) ↔ Within start.DependsOn (k + 1) id := by
  obtain ⟨m, before, same⟩ := layered.progress.planOf found
  rw [withinSucc, ← Node.planDependsOn same]
  constructor
  · intro all b ⟨m', found', lists, _⟩
    rw [before] at found'
    cases Option.some.inj found'
    exact ((layered.done b).mp (all b lists)).2
  · intro each d lists
    have here := present id m before d lists
    exact (layered.done d).mpr ⟨here, each d ⟨m, before, lists, here⟩⟩

theorem nodeCount (layered : Layered start k g) : g.nodeCount = start.nodeCount := by
  have same : g.nodes.keys = start.nodes.keys := by
    ext id
    rw [Finmap.mem_keys, Finmap.mem_keys]
    exact layered.progress.mem
  rw [DagGraph.nodeCount, same]
  rfl

theorem ready (layered : Layered start k g) (keyed : start.Keyed) (present : start.DepsPresent) {e : DagExecutor}
    (wide : start.nodeCount ≤ e.maxParallel) (order : NodeOrder) {id : String} :
    id ∈ e.readyIds order g ↔ id ∈ start.nodes ∧ LongestChain start.DependsOn id (k + 1) := by
  rw [memReadyIds (layered.progress.keyed keyed) (layered.nodeCount ▸ wide), longestSucc]
  constructor
  · intro ⟨n, found, pending, met⟩
    exact ⟨layered.progress.mem.mp (memOfGetNode found), (layered.needsDone present found).mp met,
      (layered.pendingIff found).mp pending⟩
  · intro ⟨inside, next, more⟩
    obtain ⟨n, found⟩ := memIff.mp (layered.progress.mem.mpr inside)
    exact ⟨n, found, (layered.pendingIff found).mpr more, (layered.needsDone present found).mpr next⟩

theorem tick (layered : Layered start k g) (keyed : start.Keyed) (present : start.DepsPresent) {e : DagExecutor}
    (wide : start.nodeCount ≤ e.maxParallel) (order : NodeOrder) {task : TaskExecutor}
    (succeeds : ∀ n, (task n).nodeResult.success = true) : Layered start (k + 1) (e.executeTick order task g).1 where
  progress := (tickSpec layered.progress keyed layered.quiet e order succeeds).progress
  quiet := (tickSpec layered.progress keyed layered.quiet e order succeeds).quiet
  done id := by
    rw [tickDone (layered.progress.keyed keyed) succeeds, layered.ready keyed present wide, layered.done, longestSucc]
    constructor
    · rintro (⟨inside, within⟩ | ⟨inside, next, _⟩)
      · exact ⟨inside, within.mono (Nat.le_succ k)⟩
      · exact ⟨inside, next⟩
    · intro ⟨inside, next⟩
      by_cases within : Within start.DependsOn k id
      · exact .inl ⟨inside, within⟩
      · exact .inr ⟨inside, next, within⟩

theorem completeIff (layered : Layered start k g) :
    g.Complete ↔ start.nodeCount ≠ 0 ∧ ∀ id ∈ start.nodes, Within start.DependsOn k id := by
  rw [Complete, layered.nodeCount]
  refine and_congr_right (fun _ => ⟨fun all id inside => ?_, fun all id n found => ?_⟩)
  · obtain ⟨n, found⟩ := memIff.mp (layered.progress.mem.mpr inside)
    exact ((layered.done id).mp (depDoneIff.mpr ⟨n, found, all id n found⟩)).2
  · have inside := layered.progress.mem.mp (memOfGetNode found)
    obtain ⟨m, here, status⟩ := depDoneIff.mp ((layered.done id).mpr ⟨inside, all id inside⟩)
    rw [found] at here
    cases Option.some.inj here
    exact status

end Layered
end DagGraph

namespace DagExecutor
open DagGraph

theorem verdictComplete {order : NodeOrder} {g : DagGraph} (complete : g.Complete) (results : List ExecutionResult) :
    verdict order g results = some (.ok ()) := by
  rw [verdict, if_pos (isCompleteIff.mpr complete)]

theorem verdictWaits {order : NodeOrder} {g : DagGraph} (unfinished : ¬ g.Complete) {results : List ExecutionResult}
    (busy : results ≠ []) : verdict order g results = none := by
  rw [verdict, if_neg (fun complete => unfinished (isCompleteIff.mp complete)), if_neg]
  simp [busy]

theorem runDispatches {e : DagExecutor} {orders : Nat → NodeOrder} {tasks : Nat → TaskExecutor} {start : DagGraph}
    {fuel k : Nat} {r : RunReport} (ran : e.run orders tasks fuel k (e.afterTicks orders tasks start k) = some r) :
    r.dispatched = (List.range' k r.ticks).flatMap (e.dispatchedAt orders tasks start) := by
  induction fuel generalizing k r with
  | zero => contradiction
  | succ fuel ih =>
    cases left : verdict (orders k) (e.afterTicks orders tasks start (k + 1))
        (e.executeTick (orders k) (tasks k) (e.afterTicks orders tasks start k)).2 with
    | some outcome =>
      rw [runStops rfl left] at ran
      rw [← Option.some.inj ran, List.range'_one, List.flatMap_singleton]
      rfl
    | none =>
      rw [runLoops rfl left] at ran
      obtain ⟨later, went, same⟩ := Option.map_eq_some_iff.mp ran
      have rest := ih (k := k + 1) went
      subst same
      rw [List.range'_succ, List.flatMap_cons, ← rest]
      rfl

variable {e : DagExecutor} {start : DagGraph}

theorem layeredAfter (pending : start.AllPending) (keyed : start.Keyed) (present : start.DepsPresent)
    (wide : start.nodeCount ≤ e.maxParallel) (orders : Nat → NodeOrder) {tasks : Nat → TaskExecutor}
    (succeeds : ∀ k n, (tasks k n).nodeResult.success = true) (k : Nat) :
    Layered start k (e.afterTicks orders tasks start k) := by
  induction k with
  | zero => exact .initial pending
  | succ k ih => exact ih.tick keyed present wide (orders k) (succeeds k)

theorem layeredDispatch {orders : Nat → NodeOrder} {tasks : Nat → TaskExecutor} {k : Nat}
    (layered : Layered start k (e.afterTicks orders tasks start k)) (keyed : start.Keyed) (present : start.DepsPresent)
    (wide : start.nodeCount ≤ e.maxParallel) (succeeds : ∀ k n, (tasks k n).nodeResult.success = true) :
    (e.dispatchedAt orders tasks start k).Nodup ∧ ∀ id, id ∈ e.dispatchedAt orders tasks start k ↔
      id ∈ start.nodes ∧ LongestChain start.DependsOn id (k + 1) := by
  have spec := tickSpec layered.progress keyed layered.quiet e (orders k) (succeeds k)
  rw [dispatchedAt, spec.dispatched]
  exact ⟨readyIdsNodup (layered.progress.keyed keyed) e (orders k),
    fun id => layered.ready keyed present wide (orders k)⟩

theorem dependsOnInside (a b : String) (_ : a ∈ start.nodes) (edge : start.DependsOn a b) : b ∈ start.nodes := by
  obtain ⟨_, _, _, here⟩ := edge
  exact here

theorem longestOfNodes (acyclic : ¬ start.HasCycle) : ∃ longest, LongestOf start.DependsOn (· ∈ start.nodes) longest := by
  simpa only [Finmap.mem_keys] using longestExists (S := start.nodes.keys)
    (fun a b here edge => Finmap.mem_keys.mpr (dependsOnInside a b (Finmap.mem_keys.mp here) edge))
    (fun a cycle => acyclic ⟨a, cycle⟩)

theorem runLayers {orders : Nat → NodeOrder} {tasks : Nat → TaskExecutor}
    (layered : ∀ k, Layered start k (e.afterTicks orders tasks start k)) {longest : Nat}
    (most : LongestOf start.DependsOn (· ∈ start.nodes) longest)
    (busy : ∀ k, k < longest → e.dispatchedAt orders tasks start k ≠ []) (n k : Nat) (left : k + n + 1 = longest) :
    ∃ r, e.run orders tasks (n + 1) k (e.afterTicks orders tasks start k) = some r ∧ r.ticks = n + 1 := by
  induction n generalizing k with
  | zero =>
    obtain ⟨a, inside, _⟩ := most.layer dependsOnInside (show k < longest by omega)
    have nonempty : start.nodeCount ≠ 0 := (Finset.card_pos.mpr ⟨a, Finmap.mem_keys.mpr inside⟩).ne'
    have complete : (e.afterTicks orders tasks start (k + 1)).Complete :=
      (layered (k + 1)).completeIff.mpr ⟨nonempty, fun id here => left ▸ most.within id here⟩
    exact ⟨_, runStops rfl (verdictComplete complete _) 0, rfl⟩
  | succ n ih =>
    have unfinished : ¬ (e.afterTicks orders tasks start (k + 1)).Complete := by
      intro complete
      obtain ⟨a, inside, long⟩ := most.layer dependsOnInside (show k + 1 < longest by omega)
      exact (longestSucc.mp long).2 (((layered (k + 1)).completeIff.mp complete).2 a inside)
    have dispatches : (e.executeTick (orders k) (tasks k) (e.afterTicks orders tasks start k)).2 ≠ [] :=
      fun none => busy k (by omega) (congrArg (List.map ExecutionResult.nodeId) none)
    obtain ⟨r, ran, ticks⟩ := ih (k + 1) (by omega)
    rw [runLoops rfl (verdictWaits unfinished dispatches)]
    exact ⟨_, congrArg (Option.map _) ran, congrArg (· + 1) ticks⟩

theorem busyTicks {orders : Nat → NodeOrder} {tasks : Nat → TaskExecutor}
    (layered : ∀ k, Layered start k (e.afterTicks orders tasks start k)) {longest : Nat}
    (most : LongestOf start.DependsOn (· ∈ start.nodes) longest)
    (layers : ∀ k id, id ∈ e.dispatchedAt orders tasks start k ↔
      id ∈ start.nodes ∧ LongestChain start.DependsOn id (k + 1)) :
    ∃ fuel r, e.run orders tasks fuel 0 start = some r ∧
      (List.range r.ticks).countP (fun k => e.dispatchedAt orders tasks start k ≠ []) = longest := by
  have busy : ∀ k, k < longest → e.dispatchedAt orders tasks start k ≠ [] := by
    intro k below
    obtain ⟨a, inside⟩ := most.layer dependsOnInside below
    exact List.ne_nil_of_mem ((layers k a).mpr inside)
  cases longest with
  | zero =>
    -- Nothing to dispatch: the first tick is the last.
    have none : e.dispatchedAt orders tasks start 0 = [] := by
      refine List.eq_nil_iff_forall_not_mem.mpr (fun a ready => ?_)
      exact notWithinZero a (most.within a ((layers 0 a).mp ready).1)
    have idle : start.Idle := by
      intro id n found _
      exact absurd (most.within id (memOfGetNode found)) (notWithinZero id)
    obtain ⟨r, ran, once⟩ := idleReturns idle e orders tasks
    refine ⟨1, r, ran, ?_⟩
    rw [once]
    simp [none]
  | succ n =>
    obtain ⟨r, ran, ticks⟩ := runLayers layered most busy n 0 (by omega)
    refine ⟨n + 1, r, ran, ?_⟩
    rw [ticks]
    have all : ∀ k ∈ List.range (n + 1), decide (e.dispatchedAt orders tasks start k ≠ []) = true :=
      fun k inside => decide_eq_true (busy k (List.mem_range.mp inside))
    rw [List.countP_eq_length.mpr all, List.length_range]

theorem ticksAreLayers {calls : List (NodeOrder × Node)} (submits : Submits calls) (present : (build calls).DepsPresent)
    {e : DagExecutor} (wide : (build calls).nodeCount ≤ e.maxParallel) (orders : Nat → NodeOrder)
    {tasks : Nat → TaskExecutor} (succeeds : ∀ k n, (tasks k n).nodeResult.success = true) :
    (∀ k, (e.dispatchedAt orders tasks (build calls) k).Nodup ∧ ∀ id,
      id ∈ e.dispatchedAt orders tasks (build calls) k ↔
        id ∈ (build calls).nodes ∧ LongestChain (build calls).DependsOn id (k + 1)) ∧
    ∃ longest fuel r, LongestOf (build calls).DependsOn (· ∈ (build calls).nodes) longest ∧
      e.run orders tasks fuel 0 (build calls) = some r ∧
      r.dispatched = (List.range r.ticks).flatMap (e.dispatchedAt orders tasks (build calls)) ∧
      (List.range r.ticks).countP (fun k => e.dispatchedAt orders tasks (build calls) k ≠ []) = longest := by
  obtain ⟨well, pending⟩ := buildSpec calls submits
  have layered := layeredAfter pending well.keyed present wide orders succeeds
  have dispatch := fun k => layeredDispatch (layered k) well.keyed present wide succeeds
  obtain ⟨longest, most⟩ := longestOfNodes well.acyclic
  obtain ⟨fuel, r, ran, busy⟩ := busyTicks layered most (fun k => (dispatch k).2)
  refine ⟨dispatch, longest, fuel, r, most, ran, ?_, busy⟩
  rw [List.range_eq_range']
  exact runDispatches ran

def fiveNodes : List (NodeOrder × Node) :=
  [makeNode "A" [], makeNode "B" [], makeNode "C" [], makeNode "D" ["A", "B"], makeNode "E" ["C", "D"]].map
    (fun node => (.sorted, node))

def succeeding : TaskExecutor := fun node =>
  .returned { success := true, output := s!"Done: {node.id}", error := none, durationSecs := F64.zero }

theorem ticksAreLayersFiveNodes :
    (∀ k, ((DagExecutor.mk 10).dispatchedAt (fun _ => .sorted) (fun _ => succeeding) (build fiveNodes) k).Nodup ∧
      ∀ id, id ∈ (DagExecutor.mk 10).dispatchedAt (fun _ => .sorted) (fun _ => succeeding) (build fiveNodes) k ↔
        id ∈ (build fiveNodes).nodes ∧ LongestChain (build fiveNodes).DependsOn id (k + 1)) ∧
    ∃ longest fuel r, LongestOf (build fiveNodes).DependsOn (· ∈ (build fiveNodes).nodes) longest ∧
      (DagExecutor.mk 10).run (fun _ => .sorted) (fun _ => succeeding) fuel 0 (build fiveNodes) = some r ∧
      r.dispatched = (List.range r.ticks).flatMap
        ((DagExecutor.mk 10).dispatchedAt (fun _ => .sorted) (fun _ => succeeding) (build fiveNodes)) ∧
      (List.range r.ticks).countP (fun k =>
        (DagExecutor.mk 10).dispatchedAt (fun _ => .sorted) (fun _ => succeeding) (build fiveNodes) k ≠ []) = longest :=
  ticksAreLayers (by simp [Submits, fiveNodes, makeNode]) (by decide +kernel) (by decide +kernel) _ (fun _ _ => rfl)

end DagExecutor
end ArosKernel.Dag
