import ArosKernel.DagRuntime

/-! Many executors and many editors on one graph. The write lock is free while tasks
run, so any editor can act between the claim of a tick and its write-back. Only
pending nodes are ever edited or removed, and that is what keeps a claim valid. -/
namespace ArosKernel.Dag
open Transition DagGraph DagExecutor

structure Flight where
  executor : Nat
  nodes : List Node
  deriving DecidableEq

structure Shared where
  graph : DagGraph
  flights : List Flight
  dispatched : List String
  deriving DecidableEq

inductive SharedStep where
  | claim (executor : Nat) (order : NodeOrder)
  | writeBack (flight : Nat) (task : TaskExecutor)
  | addNode (order : NodeOrder) (node : Node)
  | removeNode (order : NodeOrder) (id : String)
  | updateDependencies (order : NodeOrder) (id : String) (newDeps : List String)

namespace Shared

def initial : Shared := ⟨DagGraph.new, [], []⟩

/- An empty claim ends its tick at once. The flight to write back is any of those in
the air, and the results are whatever its tasks gave. -/
def step (executors : Nat → DagExecutor) (s : Shared) : SharedStep → Option Shared
  | .claim e order =>
    let (claimed, nodesToRun) := (executors e).claim order s.graph
    if nodesToRun.isEmpty then some { s with graph := claimed }
    else some ⟨claimed, s.flights ++ [⟨e, nodesToRun⟩], s.dispatched ++ nodesToRun.map Node.id⟩
  | .writeBack i task => do
    let flight ← s.flights[i]?
    some { s with graph := s.graph.writeBack (awaitAll task flight.nodes), flights := s.flights.eraseIdx i }
  | .addNode order node =>
    if node.status = .pending then some { s with graph := (RuntimeDag.addNode order s.graph node).2 } else none
  | .removeNode order id => some { s with graph := (RuntimeDag.removeNode order s.graph id).2 }
  | .updateDependencies order id deps =>
    some { s with graph := (RuntimeDag.updateDependencies order s.graph id deps).2 }

def inFlight (s : Shared) : List Node := s.flights.flatMap Flight.nodes

structure Safe (executors : Nat → DagExecutor) (s : Shared) : Prop where
  well : s.graph.WellFormed
  met : ∀ id n, s.graph.getNode id = some n → n.status ≠ .pending → ∀ d ∈ n.dependsOn, s.graph.depDone d = true
  held : Held s.graph s.inFlight
  once : s.dispatched.Nodup
  dispatched : ∀ id ∈ s.dispatched, ∃ n, s.graph.getNode id = some n ∧ n.status ≠ .pending
  bounded : ∀ f ∈ s.flights, f.nodes.length ≤ (executors f.executor).maxParallel

end Shared

def SettledSame (g h : DagGraph) : Prop :=
  ∀ id n, n.status ≠ .pending → (h.getNode id = some n ↔ g.getNode id = some n)

theorem SettledSame.refl (g : DagGraph) : SettledSame g g := fun _ _ _ => Iff.rfl

theorem SettledSame.depDone {g h : DagGraph} (same : SettledSame g h) {d : String} (done : g.depDone d = true) :
    h.depDone d = true := by
  obtain ⟨n, found, status⟩ := depDoneIff.mp done
  exact depDoneIff.mpr ⟨n, (same d n (by simp [status])).mpr found, status⟩

theorem addNodeSettledSame (order : NodeOrder) (g : DagGraph) {node : Node} (pending : node.status = .pending) :
    SettledSame g (RuntimeDag.addNode order g node).2 := by
  unfold RuntimeDag.addNode
  rcases g.addNodeCases order node with ⟨_, result⟩ | ⟨_, _, result⟩ | ⟨fresh, _, result⟩
  · rw [result]; exact .refl g
  · rw [result]; exact .refl g
  · intro id n moved
    rw [result, getNodeWithNode]
    split
    · rename_i same
      subst id
      have absent := getNodeNone.mpr fresh
      rw [absent]
      simp only [Option.some.injEq, reduceCtorEq, iff_false]
      intro same
      exact moved (same ▸ pending)
    · exact Iff.rfl

theorem removeNodeSettledSame (order : NodeOrder) (g : DagGraph) (id : String) :
    SettledSame g (RuntimeDag.removeNode order g id).2 := by
  rcases RuntimeDag.removeNodeCases order g id with ⟨_, result, _⟩ | ⟨node, found, pending, _, result⟩
  · rw [result]; exact .refl g
  · intro j n moved
    rw [result, getNodeWithout]
    split
    · rename_i same
      subst j
      rw [found]
      simp only [reduceCtorEq, Option.some.injEq, false_iff]
      intro same
      exact moved (same ▸ pending)
    · exact Iff.rfl

theorem updateDependenciesSettledSame (order : NodeOrder) (g : DagGraph) (id : String) (deps : List String) :
    SettledSame g (RuntimeDag.updateDependencies order g id deps).2 := by
  rcases RuntimeDag.updateDependenciesCases order g id deps with
    ⟨_, result, _⟩ | ⟨_, _, _, _, result⟩ | ⟨node, found, pending, _, result⟩
  · rw [result]; exact .refl g
  · rw [result]; exact .refl g
  · intro j n moved
    rw [result, getNodeWithDeps]
    split
    · rename_i same
      subst j
      simp only [found, Option.map_some, Option.some.injEq]
      constructor
      · intro same
        exact absurd (same ▸ pending) moved
      · intro same
        exact absurd (same ▸ pending) moved
    · exact Iff.rfl

namespace Shared
variable {executors : Nat → DagExecutor}

theorem initialSafe : Safe executors initial where
  well := wellFormedNew
  met id n found := by simp [initial] at found
  held := ⟨by simp [inFlight, initial], by simp [inFlight, initial]⟩
  once := List.nodup_nil
  dispatched := by simp [initial]
  bounded := by simp [initial]

theorem Safe.edit {s : Shared} (safe : Safe executors s) {g : DagGraph} (well : g.WellFormed)
    (same : SettledSame s.graph g) : Safe executors { s with graph := g } where
  well := well
  met id n found moved d lists := same.depDone (safe.met id n ((same id n moved).mp found) moved d lists)
  held := ⟨safe.held.distinct, fun n member => by
    obtain ⟨found, status⟩ := safe.held.here n member
    exact ⟨(same n.id n (by simp [status])).mpr found, status⟩⟩
  once := safe.once
  dispatched id member := by
    obtain ⟨n, found, moved⟩ := safe.dispatched id member
    exact ⟨n, (same id n moved).mpr found, moved⟩
  bounded := safe.bounded

/- A claimed node was pending, so no flight holds it and it was never dispatched. -/
theorem Safe.claim {s : Shared} (safe : Safe executors s) (e : Nat) (order : NodeOrder) :
    Safe executors ⟨((executors e).claim order s.graph).1,
      s.flights ++ [⟨e, ((executors e).claim order s.graph).2⟩],
      s.dispatched ++ ((executors e).claim order s.graph).2.map Node.id⟩ := by
  have keyed := safe.well.keyed
  have fresh := claimHeld keyed (executors e) order
  refine ⟨safe.well.claim (executors e) order, ?_, ?_, ?_, ?_, ?_⟩
  · intro id n' found moved d lists
    refine claimDepDone keyed ?_
    rcases claimAt keyed found with ⟨_, before⟩ | ⟨_, n, _, _, met, same⟩
    · exact safe.met id n' before moved d lists
    · subst same
      exact met d lists
  · simp only [inFlight, List.flatMap_append, List.flatMap_cons, List.flatMap_nil, List.append_nil]
    exact safe.held.claim keyed (executors e) order
  · refine List.nodup_append.mpr ⟨safe.once, fresh.distinct, fun a old b new same => ?_⟩
    obtain ⟨n, found, moved⟩ := safe.dispatched a old
    exact movedNotClaimed keyed found moved (same ▸ new)
  · intro id member
    rcases List.mem_append.mp member with old | new
    · obtain ⟨n, found, moved⟩ := safe.dispatched id old
      exact ⟨n, claimKept keyed found moved, moved⟩
    · obtain ⟨n, here, key⟩ := List.mem_map.mp new
      obtain ⟨found, status⟩ := fresh.here n here
      exact ⟨n, key ▸ found, by simp [status]⟩
  · intro f member
    rcases List.mem_append.mp member with old | new
    · exact safe.bounded f old
    · simp only [List.mem_singleton] at new
      subst f
      have length := congrArg List.length (claimIds keyed (executors e) order)
      simp only [List.length_map] at length
      rw [length]
      exact readyIdsLength (executors e) order s.graph

theorem Safe.heldFlight {s : Shared} (safe : Safe executors s) {f : Flight} (member : f ∈ s.flights) :
    Held s.graph f.nodes where
  distinct := by
    have sub : f.nodes.Sublist s.inFlight := List.sublist_flatten_of_mem (List.mem_map.mpr ⟨f, member, rfl⟩)
    exact (sub.map Node.id).nodup safe.held.distinct
  here n inside := safe.held.here n (List.mem_flatMap.mpr ⟨f, member, inside⟩)

theorem inFlightSplit {s : Shared} {i : Nat} {f : Flight} (at_ : s.flights[i]? = some f) :
    (f.nodes ++ (s.flights.eraseIdx i).flatMap Flight.nodes).Perm s.inFlight := by
  obtain ⟨lt, here⟩ := List.getElem?_eq_some_iff.mp at_
  have cons := List.getElem_cons_eraseIdx_perm lt
  rw [here] at cons
  simpa [inFlight] using cons.flatMap_right Flight.nodes

theorem heldBeside {g : DagGraph} {landing rest all : List Node} (perm : (landing ++ rest).Perm all) (held : Held g all)
    (task : TaskExecutor) : Held (g.writeBack (awaitAll task landing)) rest := by
  have split := (perm.map Node.id).nodup_iff.mpr held.distinct
  rw [List.map_append] at split
  obtain ⟨_, others, apart⟩ := List.nodup_append.mp split
  refine ⟨others, fun n inside => ?_⟩
  obtain ⟨found, status⟩ := held.here n (perm.mem_iff.mp (List.mem_append_right _ inside))
  refine ⟨?_, status⟩
  rw [writeBackElsewhere, found]
  intro listed
  exact apart _ listed _ (List.mem_map.mpr ⟨n, inside, rfl⟩) rfl

theorem Safe.writeBack {s : Shared} (safe : Safe executors s) {i : Nat} {f : Flight} (at_ : s.flights[i]? = some f)
    (task : TaskExecutor) :
    Safe executors ⟨s.graph.writeBack (awaitAll task f.nodes), s.flights.eraseIdx i, s.dispatched⟩ := by
  have landing := safe.heldFlight (List.mem_of_getElem? at_)
  refine ⟨safe.well.writeBack _, ?_, heldBeside (inFlightSplit at_) safe.held task, safe.once, ?_, fun g inside => ?_⟩
  · intro id n' found moved d lists
    refine writeBackDepDone landing task ?_
    rcases writeBackCases landing found with ⟨_, before⟩ | ⟨n, inside, _, before, same⟩
    · exact safe.met id n' before moved d lists
    · have status := (landing.here n inside).2
      subst same
      exact safe.met id n before (by simp [status]) d lists
  · intro id dispatched
    obtain ⟨n, found, moved⟩ := safe.dispatched id dispatched
    by_cases listed : id ∈ f.nodes.map Node.id
    · obtain ⟨m, inside, key⟩ := List.mem_map.mp listed
      subst key
      refine ⟨_, writeBackAt landing task inside, ?_⟩
      rcases Node.settledEnds (task m).nodeResult m with ended | ended <;> simp [ended]
    · exact ⟨n, by rw [writeBackElsewhere _ listed, found], moved⟩
  · exact safe.bounded g (List.mem_of_mem_eraseIdx inside)

theorem stepSafe (s : Shared) (i : SharedStep) (t : Shared) (safe : Safe executors s)
    (next : step executors s i = some t) : Safe executors t := by
  cases i with
  | claim e order =>
    have claimed := safe.claim e order
    simp only [step] at next
    split at next
    · rename_i none
      cases next
      rw [List.isEmpty_iff] at none
      simp only [none, List.map_nil, List.append_nil] at claimed
      refine ⟨claimed.well, claimed.met, ⟨?_, ?_⟩, claimed.once, claimed.dispatched, safe.bounded⟩
      · exact safe.held.distinct
      · intro n member
        exact claimed.held.here n (by simpa [inFlight] using member)
    · cases next
      exact claimed
  | writeBack i task =>
    simp only [step, Option.bind_eq_bind, Option.bind_eq_some_iff] at next
    obtain ⟨f, at_, last⟩ := next
    cases last
    exact safe.writeBack at_ task
  | addNode order node =>
    simp only [step] at next
    split at next
    · rename_i pending
      cases next
      exact safe.edit (safe.well.addNode order node) (addNodeSettledSame order s.graph pending)
    · contradiction
  | removeNode order id =>
    cases next
    exact safe.edit (safe.well.runtimeRemoveNode order id) (removeNodeSettledSame order s.graph id)
  | updateDependencies order id deps =>
    cases next
    exact safe.edit (safe.well.updateDependencies order id deps) (updateDependenciesSettledSame order s.graph id deps)

theorem reachableSafe {s : Shared} (reached : Reachable (step executors) initial s) : Safe executors s :=
  reachableInvariant stepSafe initialSafe reached

theorem sharedGraphSafe {s : Shared} (reached : Reachable (step executors) initial s) :
    (∀ id n, s.graph.getNode id = some n → n.status = .inProgress ∨ n.status = .done ∨ n.status = .failed →
      ∀ d ∈ n.dependsOn, ∃ dep, s.graph.getNode d = some dep ∧ dep.status = .done) ∧
    s.dispatched.Nodup ∧
    (∀ f ∈ s.flights, ∀ n ∈ f.nodes, s.graph.getNode n.id = some n ∧ n.status = .inProgress) ∧
    (∀ i f task t, s.flights[i]? = some f → step executors s (.writeBack i task) = some t →
      ∀ n ∈ f.nodes, t.graph.getNode n.id = some (n.settled (task n).nodeResult)) ∧
    (∀ f ∈ s.flights, f.nodes.length ≤ (executors f.executor).maxParallel) := by
  have safe := reachableSafe reached
  refine ⟨fun id n found moved d lists => ?_, safe.once, fun f member n inside => ?_, ?_, safe.bounded⟩
  · refine depDoneIff.mp (safe.met id n found ?_ d lists)
    rcases moved with status | status | status <;> simp [status]
  · exact (safe.heldFlight member).here n inside
  · intro i f task t at_ next n inside
    simp only [step, at_, Option.bind_eq_bind, Option.bind_some, Option.some.injEq] at next
    subst next
    exact writeBackAt (safe.heldFlight (List.mem_of_getElem? at_)) task inside

def airborne : Shared :=
  ⟨(DagGraph.new.withNode (makeNode "a" []).claimed).withNode (makeNode "b" ["a"]), [⟨0, [(makeNode "a" []).claimed]⟩],
    ["a"]⟩

theorem sharedGraphSafeAirborne :
    (∀ id n, airborne.graph.getNode id = some n → n.status = .inProgress ∨ n.status = .done ∨ n.status = .failed →
      ∀ d ∈ n.dependsOn, ∃ dep, airborne.graph.getNode d = some dep ∧ dep.status = .done) ∧
    airborne.dispatched.Nodup ∧
    (∀ f ∈ airborne.flights, ∀ n ∈ f.nodes, airborne.graph.getNode n.id = some n ∧ n.status = .inProgress) ∧
    (∀ i f task t, airborne.flights[i]? = some f → step (fun _ => ⟨2⟩) airborne (.writeBack i task) = some t →
      ∀ n ∈ f.nodes, t.graph.getNode n.id = some (n.settled (task n).nodeResult)) ∧
    (∀ f ∈ airborne.flights, f.nodes.length ≤ 2) :=
  @sharedGraphSafe (fun _ => ⟨2⟩) airborne ⟨[.addNode .sorted (makeNode "a" []), .claim 0 .sorted,
    .addNode .sorted (makeNode "b" ["a"])], by decide +kernel⟩

end Shared
end ArosKernel.Dag
