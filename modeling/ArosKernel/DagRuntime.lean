import ArosKernel.DagExecutor
import ArosKernel.Transition
import Mathlib.Data.String.Basic

/-! Mutation while an executor may be running, `dag/runtime.rs`. Both editors change
the graph first and roll back when the search finds a cycle. What each call can do
is said once, by its cases; every invariant is derived from these. -/
namespace ArosKernel.Dag
open Transition

namespace RuntimeDag

def addNode (order : NodeOrder) (g : DagGraph) (node : Node) : Except DagError Unit × DagGraph :=
  g.addNode order node

def removeNode (order : NodeOrder) (g : DagGraph) (id : String) : Except DagError Node × DagGraph :=
  match g.getNode id with
  | none => (.error (.nodeNotFound id), g)
  | some node =>
    if node.status == .inProgress then (.error (.nodeInProgress id), g)
    else if node.status != .pending then (.error (.nodeInProgress id), g)
    else g.removeNode order id

def updateDependencies (order : NodeOrder) (g : DagGraph) (id : String) (newDeps : List String) :
    Except DagError Unit × DagGraph :=
  match g.getNode id with
  | none => (.error (.nodeNotFound id), g)
  | some node =>
    if node.status != .pending then (.error (.nodeInProgress id), g)
    else
      let oldDeps := node.dependsOn
      let changed := g.modify id (fun n => { n with dependsOn := newDeps })
      if changed.hasCycle order then
        (.error (.cycleDetected id), changed.modify id (fun n => { n with dependsOn := oldDeps }))
      else (.ok (), changed)

end RuntimeDag

namespace DagGraph

def withNode (g : DagGraph) (node : Node) : DagGraph := ⟨g.nodes.insert node.id node⟩
def without (g : DagGraph) (id : String) : DagGraph := ⟨g.nodes.erase id⟩
def withDeps (g : DagGraph) (id : String) (deps : List String) : DagGraph :=
  g.modify id (fun n => { n with dependsOn := deps })

def Unlisted (g : DagGraph) (id : String) : Prop :=
  ∀ j m, j ≠ id → g.getNode j = some m → id ∉ m.dependsOn

theorem getNodeWithNode (g : DagGraph) (node : Node) (j : String) :
    (g.withNode node).getNode j = if j = node.id then some node else g.getNode j := getNodeInsert g node.id j node

theorem getNodeWithout (g : DagGraph) (id j : String) :
    (g.without id).getNode j = if j = id then none else g.getNode j := getNodeErase g id j

theorem getNodeWithDeps (g : DagGraph) (id : String) (deps : List String) (j : String) :
    (g.withDeps id deps).getNode j =
      if j = id then (g.getNode j).map (fun n => { n with dependsOn := deps }) else g.getNode j :=
  getNodeModify g id j _

theorem memWithout {g : DagGraph} {id j : String} : j ∈ (g.without id).nodes ↔ j ≠ id ∧ j ∈ g.nodes :=
  Finmap.mem_erase

theorem addNodeCases (order : NodeOrder) (g : DagGraph) (node : Node) :
    (node.id ∈ g.nodes ∧ g.addNode order node = (.error (.duplicateNode node.id), g)) ∨
    (node.id ∉ g.nodes ∧ (g.withNode node).HasCycle ∧
      g.addNode order node = (.error (.cycleDetected node.id), g)) ∨
    (node.id ∉ g.nodes ∧ ¬ (g.withNode node).HasCycle ∧ g.addNode order node = (.ok (), g.withNode node)) := by
  unfold addNode
  by_cases present : node.id ∈ g.nodes
  · exact .inl ⟨present, if_pos present⟩
  · have undo : DagGraph.mk ((g.withNode node).nodes.erase node.id) = g :=
      congrArg DagGraph.mk (HashMap.eraseInsert present node)
    rw [if_neg present]
    cases found : (g.withNode node).hasCycle order with
    | true =>
      refine .inr (.inl ⟨present, hasCycleIff.mp found, ?_⟩)
      simp only [withNode] at found undo
      simp [found, undo]
    | false =>
      refine .inr (.inr ⟨present, hasCycleFalse.mp found, ?_⟩)
      simp only [withNode] at found
      simp [found, withNode]

theorem removeNodeCases (order : NodeOrder) (g : DagGraph) (id : String) :
    (g.getNode id = none ∧ g.removeNode order id = (.error (.nodeNotFound id), g)) ∨
    (∃ node, g.getNode id = some node ∧ ¬ g.Unlisted id ∧ g.removeNode order id = (.error (.hasDependents id), g)) ∨
    (∃ node, g.getNode id = some node ∧ g.Unlisted id ∧ g.removeNode order id = (.ok node, g.without id)) := by
  unfold removeNode
  cases found : g.getNode id with
  | none => exact .inl ⟨rfl, rfl⟩
  | some node =>
    have listed : (order.entries g.nodes).any (fun other => other.1 != id && other.2.dependsOn.contains id) = true ↔
        ¬ g.Unlisted id := by
      simp only [List.any_eq_true, Prod.exists, HashMap.Order.memEntries, Bool.and_eq_true, bne_iff_ne,
        List.contains_iff_mem, Unlisted, getNode, not_forall, not_not]
      constructor
      · rintro ⟨j, m, hm, different, lists⟩
        exact ⟨j, m, different, hm, lists⟩
      · rintro ⟨j, m, different, hm, lists⟩
        exact ⟨j, m, hm, different, lists⟩
    by_cases alone : g.Unlisted id
    · exact .inr (.inr ⟨node, rfl, alone, if_neg (fun any => listed.mp any alone)⟩)
    · exact .inr (.inl ⟨node, rfl, alone, if_pos (listed.mpr alone)⟩)

end DagGraph

namespace RuntimeDag
open DagGraph

theorem removeNodeCases (order : NodeOrder) (g : DagGraph) (id : String) :
    (∃ e, removeNode order g id = (.error e, g) ∧
      ¬ ((∃ node, g.getNode id = some node ∧ node.status = .pending) ∧ g.Unlisted id)) ∨
    (∃ node, g.getNode id = some node ∧ node.status = .pending ∧ g.Unlisted id ∧
      removeNode order g id = (.ok node, g.without id)) := by
  unfold removeNode
  cases found : g.getNode id with
  | none => exact .inl ⟨_, rfl, by simp⟩
  | some node =>
    by_cases pending : node.status = .pending
    · simp only [pending, bne_self_eq_false, Bool.false_eq_true, if_false, beq_iff_eq, reduceCtorEq]
      rcases g.removeNodeCases order id with ⟨none, _⟩ | ⟨_, _, listed, result⟩ | ⟨n, hn, alone, result⟩
      · simp [found] at none
      · exact .inl ⟨_, result, fun both => listed both.2⟩
      · rw [found] at hn
        cases Option.some.inj hn
        exact .inr ⟨node, rfl, pending, alone, result⟩
    · refine .inl ⟨.nodeInProgress id, ?_, fun ⟨⟨n, hn, other⟩, _⟩ => ?_⟩
      · simp [pending]
      · cases Option.some.inj hn
        exact pending other

theorem updateDependenciesCases (order : NodeOrder) (g : DagGraph) (id : String) (deps : List String) :
    (∃ e, updateDependencies order g id deps = (.error e, g) ∧ e ≠ .cycleDetected id ∧
      ¬ ∃ node, g.getNode id = some node ∧ node.status = .pending) ∨
    (∃ node, g.getNode id = some node ∧ node.status = .pending ∧ (g.withDeps id deps).HasCycle ∧
      updateDependencies order g id deps = (.error (.cycleDetected id), g)) ∨
    (∃ node, g.getNode id = some node ∧ node.status = .pending ∧ ¬ (g.withDeps id deps).HasCycle ∧
      updateDependencies order g id deps = (.ok (), g.withDeps id deps)) := by
  unfold updateDependencies
  cases found : g.getNode id with
  | none => exact .inl ⟨_, rfl, by simp, by simp⟩
  | some node =>
    by_cases pending : node.status = .pending
    · simp only [pending, bne_self_eq_false, Bool.false_eq_true, if_false]
      have undo : (g.withDeps id deps).modify id (fun n => { n with dependsOn := node.dependsOn }) = g :=
        congrArg DagGraph.mk (HashMap.updateRevert found rfl)
      cases cycle : (g.withDeps id deps).hasCycle order with
      | true =>
        refine .inr (.inl ⟨node, rfl, pending, hasCycleIff.mp cycle, ?_⟩)
        simp only [withDeps] at cycle undo
        simp [cycle, undo]
      | false =>
        refine .inr (.inr ⟨node, rfl, pending, hasCycleFalse.mp cycle, ?_⟩)
        simp only [withDeps] at cycle
        simp [cycle, withDeps]
    · refine .inl ⟨.nodeInProgress id, by simp [pending], by simp, fun ⟨n, hn, other⟩ => ?_⟩
      cases Option.some.inj hn
      exact pending other

end RuntimeDag

inductive Mutation where
  | addNode (order : NodeOrder) (node : Node)
  | removeNode (order : NodeOrder) (id : String)
  | updateDependencies (order : NodeOrder) (id : String) (newDeps : List String)
  | claim (order : NodeOrder) (executor : DagExecutor)
  | writeBack (results : List ExecutionResult)

def mutate (g : DagGraph) : Mutation → Option DagGraph
  | .addNode order node => some (RuntimeDag.addNode order g node).2
  | .removeNode order id => some (RuntimeDag.removeNode order g id).2
  | .updateDependencies order id deps => some (RuntimeDag.updateDependencies order g id deps).2
  | .claim order executor => some (executor.claim order g).1
  | .writeBack results => some (g.writeBack results)

namespace DagGraph

structure WellFormed (g : DagGraph) : Prop where
  keyed : g.Keyed
  acyclic : ¬ g.HasCycle

theorem wellFormedNew : new.WellFormed where
  keyed id n found := by simp at found
  acyclic := notHasCycleNew

theorem WellFormed.ofFrame {g h : DagGraph} (well : g.WellFormed) {f : String → Node → Node}
    (frame : ∀ j, h.getNode j = (g.getNode j).map (f j)) (ids : ∀ j n, (f j n).id = n.id)
    (deps : ∀ j n, (f j n).dependsOn = n.dependsOn) : h.WellFormed where
  keyed id n found := by
    rw [frame] at found
    obtain ⟨m, hm, same⟩ := Option.map_eq_some_iff.mp found
    rw [← same, ids]
    exact well.keyed id m hm
  acyclic cycle := by
    refine well.acyclic (cycle.mono (fun a b => dependsOnCongr (fun id => ?_)))
    rw [frame, Option.map_map]
    cases g.getNode id with
    | none => rfl
    | some n => simp [deps]

theorem WellFormed.addNode {g : DagGraph} (well : g.WellFormed) (order : NodeOrder) (node : Node) :
    (g.addNode order node).2.WellFormed := by
  rcases g.addNodeCases order node with ⟨_, result⟩ | ⟨_, _, result⟩ | ⟨_, acyclic, result⟩
  · rw [result]; exact well
  · rw [result]; exact well
  · rw [result]
    refine ⟨fun id n found => ?_, acyclic⟩
    simp only [getNodeWithNode] at found
    split at found
    · rename_i same
      cases Option.some.inj found
      exact same.symm
    · exact well.keyed id n found

theorem WellFormed.without {g : DagGraph} (well : g.WellFormed) (id : String) : (g.without id).WellFormed where
  keyed j n found := by
    rw [getNodeWithout] at found
    split at found
    · contradiction
    · exact well.keyed j n found
  acyclic cycle := by
    refine well.acyclic (cycle.mono (fun a b edge => ?_))
    obtain ⟨n, found, lists, present⟩ := edge
    rw [getNodeWithout] at found
    split at found
    · contradiction
    · exact ⟨n, found, lists, (memWithout.mp present).2⟩

theorem WellFormed.updateDependencies {g : DagGraph} (well : g.WellFormed) (order : NodeOrder) (id : String)
    (deps : List String) : (RuntimeDag.updateDependencies order g id deps).2.WellFormed := by
  rcases RuntimeDag.updateDependenciesCases order g id deps with
    ⟨_, result, _⟩ | ⟨_, _, _, _, result⟩ | ⟨_, _, _, acyclic, result⟩
  · rw [result]; exact well
  · rw [result]; exact well
  · rw [result]
    refine ⟨fun j n found => ?_, acyclic⟩
    simp only [getNodeWithDeps] at found
    split at found
    · obtain ⟨m, hm, same⟩ := Option.map_eq_some_iff.mp found
      rw [← same]
      exact well.keyed j m hm
    · exact well.keyed j n found

theorem WellFormed.removeNode {g : DagGraph} (well : g.WellFormed) (order : NodeOrder) (id : String) :
    (g.removeNode order id).2.WellFormed := by
  rcases g.removeNodeCases order id with ⟨_, result⟩ | ⟨_, _, _, result⟩ | ⟨_, _, _, result⟩
  · rw [result]; exact well
  · rw [result]; exact well
  · rw [result]; exact well.without id

theorem WellFormed.runtimeRemoveNode {g : DagGraph} (well : g.WellFormed) (order : NodeOrder) (id : String) :
    (RuntimeDag.removeNode order g id).2.WellFormed := by
  rcases RuntimeDag.removeNodeCases order g id with ⟨_, result, _⟩ | ⟨_, _, _, _, result⟩
  · rw [result]; exact well
  · rw [result]; exact well.without id

theorem WellFormed.claim {g : DagGraph} (well : g.WellFormed) (e : DagExecutor) (order : NodeOrder) :
    (e.claim order g).1.WellFormed := by
  refine well.ofFrame (f := fun j n => if j ∈ e.readyIds order g then n.claimed else n) (fun j => ?_) ?_ ?_
  · rw [DagExecutor.claimGet]
    split <;> simp
  · intro j n
    split <;> rfl
  · intro j n
    split <;> rfl

theorem WellFormed.writeBack {g : DagGraph} (well : g.WellFormed) (results : List ExecutionResult) :
    (g.writeBack results).WellFormed := by
  induction results generalizing g with
  | nil => exact well
  | cons er rest ih =>
    refine ih (well.ofFrame (f := fun j n => if j = er.nodeId then n.settled er.result else n) (fun j => ?_) ?_ ?_)
    · rw [getNodeModify]
      split <;> simp
    · intro j n
      split <;> rfl
    · intro j n
      split <;> rfl

theorem mutateWellFormed (g : DagGraph) (m : Mutation) (h : DagGraph) (well : g.WellFormed)
    (next : mutate g m = some h) : h.WellFormed := by
  cases m with
  | addNode order node => cases next; exact well.addNode order node
  | removeNode order id => cases next; exact well.runtimeRemoveNode order id
  | updateDependencies order id deps => cases next; exact well.updateDependencies order id deps
  | claim order e => cases next; exact well.claim e order
  | writeBack results => cases next; exact well.writeBack results

theorem reachableWellFormed {g : DagGraph} (reached : Reachable mutate new g) : g.WellFormed :=
  reachableInvariant mutateWellFormed wellFormedNew reached

structure AddNodeExact (g : DagGraph) (order : NodeOrder) (node : Node) : Prop where
  duplicate : (RuntimeDag.addNode order g node).1 = .error (.duplicateNode node.id) ↔ node.id ∈ g.nodes
  cycle : node.id ∉ g.nodes →
    ((RuntimeDag.addNode order g node).1 = .error (.cycleDetected node.id) ↔ (g.withNode node).HasCycle)
  added : node.id ∉ g.nodes → ¬ (g.withNode node).HasCycle →
    RuntimeDag.addNode order g node = (.ok (), g.withNode node)
  rollback : ∀ e, (RuntimeDag.addNode order g node).1 = .error e → (RuntimeDag.addNode order g node).2 = g

structure UpdateDependenciesExact (g : DagGraph) (order : NodeOrder) (id : String) (deps : List String) : Prop where
  cycle : ∀ node, g.getNode id = some node → node.status = .pending →
    ((RuntimeDag.updateDependencies order g id deps).1 = .error (.cycleDetected id) ↔ (g.withDeps id deps).HasCycle)
  updated : ∀ node, g.getNode id = some node → node.status = .pending → ¬ (g.withDeps id deps).HasCycle →
    RuntimeDag.updateDependencies order g id deps = (.ok (), g.withDeps id deps)
  rollback : ∀ e, (RuntimeDag.updateDependencies order g id deps).1 = .error e →
    (RuntimeDag.updateDependencies order g id deps).2 = g

structure RemoveNodeExact (g : DagGraph) (order : NodeOrder) (id : String) : Prop where
  succeeds : (∃ node, (RuntimeDag.removeNode order g id).1 = .ok node) ↔
    (∃ node, g.getNode id = some node ∧ node.status = .pending) ∧ g.Unlisted id
  removed : ∀ node, (RuntimeDag.removeNode order g id).1 = .ok node →
    g.getNode id = some node ∧ (RuntimeDag.removeNode order g id).2 = g.without id
  noDangling : ∀ node, (RuntimeDag.removeNode order g id).1 = .ok node →
    ∀ j m, (RuntimeDag.removeNode order g id).2.getNode j = some m →
      ∀ d ∈ m.dependsOn, d ∈ g.nodes → d ∈ (RuntimeDag.removeNode order g id).2.nodes
  rollback : ∀ e, (RuntimeDag.removeNode order g id).1 = .error e → (RuntimeDag.removeNode order g id).2 = g

theorem addNodeExact (g : DagGraph) (order : NodeOrder) (node : Node) : AddNodeExact g order node := by
  rcases g.addNodeCases order node with ⟨present, result⟩ | ⟨fresh, cycle, result⟩ | ⟨fresh, acyclic, result⟩
  · refine ⟨?_, fun fresh => absurd present fresh, fun fresh => absurd present fresh, ?_⟩ <;>
      simp [RuntimeDag.addNode, result, present]
  · refine ⟨?_, ?_, fun _ acyclic => absurd cycle acyclic, ?_⟩ <;> simp [RuntimeDag.addNode, result, fresh, cycle]
  · refine ⟨?_, ?_, fun _ _ => result, ?_⟩ <;> simp [RuntimeDag.addNode, result, fresh, acyclic]

theorem updateDependenciesExact (g : DagGraph) (order : NodeOrder) (id : String) (deps : List String) :
    UpdateDependenciesExact g order id deps := by
  rcases RuntimeDag.updateDependenciesCases order g id deps with
    ⟨e, result, other, closed⟩ | ⟨n, found, pending, cycle, result⟩ | ⟨n, found, pending, acyclic, result⟩
  · refine ⟨fun node found pending => ?_, fun node found pending => ?_, ?_⟩
    · exact absurd ⟨node, found, pending⟩ closed
    · exact absurd ⟨node, found, pending⟩ closed
    · simp [result]
  · refine ⟨?_, ?_, ?_⟩ <;> simp [result, cycle]
  · refine ⟨?_, ?_, ?_⟩ <;> simp [result, acyclic]

theorem removeNodeExact (g : DagGraph) (order : NodeOrder) (id : String) : RemoveNodeExact g order id := by
  rcases RuntimeDag.removeNodeCases order g id with ⟨e, result, refused⟩ | ⟨n, found, pending, alone, result⟩
  · refine ⟨?_, ?_, ?_, ?_⟩ <;> simp only [result]
    · simpa using refused
    all_goals simp
  · refine ⟨?_, ?_, ?_, ?_⟩ <;> simp only [result]
    · simp [found, pending, alone]
    · intro node same
      cases same
      exact ⟨found, trivial⟩
    · intro node _ j m hm d lists present
      rw [getNodeWithout] at hm
      split at hm
      · contradiction
      · rename_i different
        refine memWithout.mpr ⟨fun same => alone j m different hm ?_, present⟩
        exact same ▸ lists
    · simp

theorem reachableGraphsExact {g : DagGraph} (reached : Reachable mutate new g) :
    g.Keyed ∧ ¬ g.HasCycle ∧
    (∀ order node, AddNodeExact g order node) ∧
    (∀ order id deps, UpdateDependenciesExact g order id deps) ∧
    (∀ order id, RemoveNodeExact g order id) :=
  have well := reachableWellFormed reached
  ⟨well.keyed, well.acyclic, addNodeExact g, updateDependenciesExact g, removeNodeExact g⟩

theorem reachableGraphsExactDangling :
    (new.withNode (makeNode "a" ["b"])).Keyed ∧ ¬ (new.withNode (makeNode "a" ["b"])).HasCycle ∧
    (∀ order node, AddNodeExact (new.withNode (makeNode "a" ["b"])) order node) ∧
    (∀ order id deps, UpdateDependenciesExact (new.withNode (makeNode "a" ["b"])) order id deps) ∧
    (∀ order id, RemoveNodeExact (new.withNode (makeNode "a" ["b"])) order id) :=
  reachableGraphsExact ⟨[.addNode .sorted (makeNode "a" ["b"])], by decide +kernel⟩

end DagGraph
end ArosKernel.Dag
