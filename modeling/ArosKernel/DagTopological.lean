import ArosKernel.DagRuntime
import ArosKernel.Kahn

/-! `topological_sort` and how far it agrees with `has_cycle`. The in-degree of a node
counts the occurrences of a dependency, but popping that dependency pays for one
occurrence only, so a node that lists it twice is reported as a cycle. -/
namespace ArosKernel.Dag
open Relation DepthFirst Kahn Transition

abbrev Degrees := HashMap String Nat
abbrev DegreeOrder := HashMap.Order String Nat

namespace DagGraph

/-! The sort. `none` is a fault: an unwrap of `None`, an underflow, or no fuel. -/

def countDeps (g : DagGraph) (node : Node) : List String → Degrees → Option Degrees
  | [], inDegree => some inDegree
  | depId :: rest, inDegree =>
    if depId ∈ g.nodes then do
      let deg ← inDegree.lookup node.id
      g.countDeps node rest (inDegree.insert node.id (deg + 1))
    else g.countDeps node rest inDegree

def countNodes (g : DagGraph) : List Node → Degrees → Option Degrees
  | [], inDegree => some inDegree
  | node :: rest, inDegree => do
    let inDegree' ← g.countDeps node node.dependsOn inDegree
    g.countNodes rest inDegree'

def zeroDegrees (ids : List String) : Degrees := ids.foldl (fun m id => m.insert id 0) ∅

def inDegree (order : NodeOrder) (g : DagGraph) : Option Degrees :=
  g.countNodes (order.values g.nodes) (zeroDegrees (order.keys g.nodes))

def reduceDependents (id : String) : List Node → Degrees × List String → Option (Degrees × List String)
  | [], s => some s
  | node :: rest, (inDegree, queue) =>
    if node.dependsOn.contains id then do
      let deg ← inDegree.lookup node.id
      if deg = 0 then none
      else
        let queue' := if deg - 1 = 0 then queue ++ [node.id] else queue
        reduceDependents id rest (inDegree.insert node.id (deg - 1), queue')
    else reduceDependents id rest (inDegree, queue)

def popAll (order : NodeOrder) (g : DagGraph) : Nat → List String → Degrees → List String → Option (List String)
  | 0, _, _, _ => none
  | _ + 1, [], _, sorted => some sorted
  | fuel + 1, id :: queue, inDegree, sorted => do
    let (inDegree', queue') ← reduceDependents id (order.values g.nodes) (inDegree, queue)
    g.popAll order fuel queue' inDegree' (sorted ++ [id])

def zeroIds (degrees : DegreeOrder) (inDegree : Degrees) : List String :=
  ((degrees.entries inDegree).filter (fun (_, deg) => deg == 0)).map Prod.fst

def topologicalSort (order : NodeOrder) (degrees : DegreeOrder) (g : DagGraph) :
    Option (Except DagError (List String)) := do
  let inDegree ← g.inDegree order
  let sorted ← g.popAll order (g.nodeCount + 1) (zeroIds degrees inDegree) inDegree []
  if sorted.length != g.nodeCount then do
    let stuck ← (order.keys g.nodes).find? (fun id => !sorted.contains id)
    some (.error (.cycleDetected stuck))
  else some (.ok sorted)

def Agrees (ids : List String) (inDegree : Degrees) (degree : String → Nat) : Prop :=
  ∀ id, inDegree.lookup id = if id ∈ ids then some (degree id) else none

theorem Agrees.insert {ids : List String} {inDegree : Degrees} {degree : String → Nat}
    (agrees : Agrees ids inDegree degree) {id : String} (member : id ∈ ids) (k : Nat) :
    Agrees ids (inDegree.insert id k) (Function.update degree id k) := by
  intro j
  rw [HashMap.lookupInsert]
  by_cases same : j = id
  · subst j
    simp [member]
  · simp [same, agrees j]

theorem zeroDegreesAgree (ids : List String) : Agrees ids (zeroDegrees ids) (fun _ => 0) := by
  have each : ∀ (ids : List String) (m : Degrees) (id : String),
      Finmap.lookup id (ids.foldl (fun m id => m.insert id 0) m) = if id ∈ ids then some 0 else m.lookup id := by
    intro ids
    induction ids with
    | nil => simp
    | cons head rest ih =>
      intro m id
      rw [List.foldl_cons, ih, HashMap.lookupInsert]
      by_cases same : id = head
      · simp [same]
      · simp [same]
  intro id
  exact (each ids ∅ id).trans (by rw [Finmap.lookup_empty])

theorem countDepsAgrees {g : DagGraph} {ids : List String} {node : Node} (member : node.id ∈ ids) (deps : List String)
    {inDegree : Degrees} {degree : String → Nat} (agrees : Agrees ids inDegree degree) :
    ∃ inDegree', g.countDeps node deps inDegree = some inDegree' ∧ Agrees ids inDegree'
      (Function.update degree node.id (degree node.id + (deps.filter (fun d => d ∈ g.nodes)).length)) := by
  induction deps generalizing inDegree degree with
  | nil => exact ⟨inDegree, rfl, by simpa using agrees⟩
  | cons d rest ih =>
    by_cases present : d ∈ g.nodes
    · obtain ⟨last, ran, done⟩ := ih (agrees.insert member (degree node.id + 1))
      have here : inDegree.lookup node.id = some (degree node.id) := by rw [agrees, if_pos member]
      refine ⟨last, by simp [countDeps, present, here, ran], ?_⟩
      simpa [present, Nat.add_assoc, Nat.add_comm 1] using done
    · obtain ⟨last, ran, done⟩ := ih agrees
      exact ⟨last, by simp [countDeps, present, ran], by simpa [present] using done⟩

structure Listed (g : DagGraph) (nodes : List Node) : Prop where
  here : ∀ n ∈ nodes, g.getNode n.id = some n
  distinct : (nodes.map Node.id).Nodup

theorem Listed.tail {g : DagGraph} {n : Node} {rest : List Node} (listed : g.Listed (n :: rest)) : g.Listed rest :=
  ⟨fun m member => listed.here m (List.mem_cons_of_mem _ member), (List.nodup_cons.mp listed.distinct).2⟩

theorem valuesListed {g : DagGraph} (keyed : g.Keyed) (order : NodeOrder) : g.Listed (order.values g.nodes) where
  here n member := by
    obtain ⟨id, found⟩ := (order.memValues g.nodes n).mp member
    have found : g.getNode id = some n := found
    rwa [← keyed id n found] at found
  distinct := by rw [valuesIds keyed]; exact order.nodup g.nodes

theorem valuesInside {g : DagGraph} (keyed : g.Keyed) {order : NodeOrder} (n : Node) (member : n ∈ order.values g.nodes) :
    n.id ∈ order.keys g.nodes := by
  rw [← valuesIds keyed]
  exact List.mem_map.mpr ⟨n, member, rfl⟩

theorem successorsOf {g : DagGraph} {id : String} {n : Node} (found : g.getNode id = some n) :
    g.successors id = n.dependsOn.filter (fun d => d ∈ g.nodes) := by
  simp [successors, found]

theorem countNodesAgrees {g : DagGraph} {ids : List String} {nodes : List Node} (listed : g.Listed nodes)
    (inside : ∀ n ∈ nodes, n.id ∈ ids) {inDegree : Degrees} {degree : String → Nat} (agrees : Agrees ids inDegree degree) :
    ∃ inDegree', g.countNodes nodes inDegree = some inDegree' ∧ Agrees ids inDegree'
      (fun v => if v ∈ nodes.map Node.id then degree v + (g.successors v).length else degree v) := by
  induction nodes generalizing inDegree degree with
  | nil => exact ⟨inDegree, rfl, by simpa using agrees⟩
  | cons n rest ih =>
    obtain ⟨first, counted, middle⟩ := countDepsAgrees (g := g) (inside n List.mem_cons_self) n.dependsOn agrees
    obtain ⟨last, ran, done⟩ := ih listed.tail (fun m member => inside m (List.mem_cons_of_mem _ member)) middle
    have absent := (List.nodup_cons.mp listed.distinct).1
    refine ⟨last, by simp [countNodes, counted, ran], ?_⟩
    rw [← successorsOf (listed.here n List.mem_cons_self)] at done
    intro v
    rw [done v]
    by_cases same : v = n.id
    · subst v
      simp [absent]
    · simp [same]

theorem inDegreeAgrees {g : DagGraph} (keyed : g.Keyed) (order : NodeOrder) :
    ∃ inDegree, g.inDegree order = some inDegree ∧
      Agrees (order.keys g.nodes) inDegree (fun v => (g.successors v).length) := by
  obtain ⟨inDegree, counted, agrees⟩ :=
    countNodesAgrees (valuesListed keyed order) (valuesInside keyed) (zeroDegreesAgree (order.keys g.nodes))
  refine ⟨inDegree, counted, fun v => ?_⟩
  rw [agrees v, valuesIds keyed]
  by_cases member : v ∈ order.keys g.nodes
  · simp [member]
  · simp [member]

theorem reduceAgrees {g : DagGraph} {ids : List String} {nodes : List Node} (listed : g.Listed nodes)
    (inside : ∀ n ∈ nodes, n.id ∈ ids) {id : String} (present : id ∈ g.nodes) {inDegree : Degrees}
    {degree degree' : String → Nat} {queue queue' : List String} (agrees : Agrees ids inDegree degree)
    (released : release g.successors id (nodes.map Node.id) (degree, queue) = some (degree', queue')) :
    ∃ inDegree', reduceDependents id nodes (inDegree, queue) = some (inDegree', queue') ∧
      Agrees ids inDegree' degree' := by
  induction nodes generalizing inDegree degree queue with
  | nil =>
    cases released
    exact ⟨inDegree, rfl, agrees⟩
  | cons n rest ih =>
    have others : ∀ m ∈ rest, m.id ∈ ids := fun m member => inside m (List.mem_cons_of_mem _ member)
    have needed : id ∈ g.successors n.id ↔ n.dependsOn.contains id = true := by
      simp [successorsOf (listed.here n List.mem_cons_self), present]
    have here : inDegree.lookup n.id = some (degree n.id) := by rw [agrees, if_pos (inside n List.mem_cons_self)]
    simp only [List.map_cons, release] at released
    by_cases lists : n.dependsOn.contains id = true
    · rw [if_pos (needed.mpr lists)] at released
      by_cases zero : degree n.id = 0
      · simp [zero] at released
      · rw [if_neg zero, Function.update_self] at released
        obtain ⟨last, ran, done⟩ := ih listed.tail others
          (agrees.insert (inside n List.mem_cons_self) (degree n.id - 1)) released
        exact ⟨last, by simp only [reduceDependents, lists, if_true, here, zero, if_false, Option.bind_eq_bind,
          Option.bind_some, ran], done⟩
    · rw [if_neg (fun member => lists (needed.mp member))] at released
      obtain ⟨last, ran, done⟩ := ih listed.tail others agrees released
      exact ⟨last, by simp only [reduceDependents, lists, if_false, ran, Bool.false_eq_true], done⟩

theorem popAllDrain {g : DagGraph} (keyed : g.Keyed) (order : NodeOrder) (fuel : Nat) {queue sorted final : List String}
    {inDegree : Degrees} {degree : String → Nat} (agrees : Agrees (order.keys g.nodes) inDegree degree)
    (inv : Inv g.successors (order.keys g.nodes) queue degree sorted)
    (drained : drain g.successors (order.keys g.nodes) fuel queue degree sorted = some final) :
    g.popAll order fuel queue inDegree sorted = some final := by
  induction fuel generalizing queue sorted inDegree degree with
  | zero => cases drained
  | succ fuel ih =>
    cases queue with
    | nil => exact drained
    | cons id queue =>
      obtain ⟨degree', queue', released, next⟩ := inv.pop (order.nodup g.nodes)
      have present : id ∈ g.nodes := (order.complete g.nodes id).mp ((inv.ready id).mp (by simp)).1
      have pass : release g.successors id ((order.values g.nodes).map Node.id) (degree, queue) =
          some (degree', queue') := by rw [valuesIds keyed, released]
      obtain ⟨last, reduced, after⟩ := reduceAgrees (valuesListed keyed order) (valuesInside keyed) present agrees pass
      simp only [drain, released, Option.bind_eq_bind, Option.bind_some] at drained
      simp only [popAll, reduced, Option.bind_eq_bind, Option.bind_some]
      exact ih after next drained

theorem successorsInside {g : DagGraph} {order : NodeOrder} (a b : String) (edge : b ∈ g.successors a) :
    a ∈ order.keys g.nodes ∧ b ∈ order.keys g.nodes := by
  obtain ⟨n, found, _, present⟩ := edgeIff.mp (show Edge g.successors a b from edge)
  exact ⟨(order.complete g.nodes a).mpr (memOfGetNode found), (order.complete g.nodes b).mpr present⟩

def ListsOnce (g : DagGraph) : Prop := ∀ id n, g.getNode id = some n → ∀ d ∈ g.nodes, n.dependsOn.count d ≤ 1

theorem listsOnceIff {g : DagGraph} {order : NodeOrder} :
    (∀ v ∈ order.keys g.nodes, (g.successors v).Nodup) ↔ g.ListsOnce := by
  constructor
  · intro unique id n found d present
    have once := unique id ((order.complete g.nodes id).mpr (memOfGetNode found))
    rw [successorsOf found, List.nodup_iff_count_le_one] at once
    have here := once d
    rwa [List.count_filter (by simpa using present)] at here
  · intro once v member
    obtain ⟨n, found⟩ := memIff.mp ((order.complete g.nodes v).mp member)
    rw [successorsOf found, List.nodup_iff_count_le_one]
    intro d
    by_cases present : d ∈ g.nodes
    · rw [List.count_filter (by simpa using present)]
      exact once v n found d present
    · rw [List.count_eq_zero_of_not_mem]
      · exact Nat.zero_le 1
      · simp [present]

theorem zeroIdsInv {g : DagGraph} {order : NodeOrder} {inDegree : Degrees}
    (agrees : Agrees (order.keys g.nodes) inDegree (fun v => (g.successors v).length)) (degrees : DegreeOrder) :
    Inv g.successors (order.keys g.nodes) (zeroIds degrees inDegree) (fun v => (g.successors v).length) [] := by
  refine Inv.start ?_ (fun v => ?_)
  · refine (List.filter_sublist.map Prod.fst).nodup ?_
    rw [HashMap.Order.entriesKeys]
    exact degrees.nodup inDegree
  · have entry : ∀ k, (v, k) ∈ degrees.entries inDegree ↔ v ∈ order.keys g.nodes ∧ (g.successors v).length = k := by
      intro k
      rw [HashMap.Order.memEntries, agrees v]
      split
      · rename_i member
        simp [member]
      · rename_i absent
        simp [absent]
    simp only [zeroIds, List.mem_map, List.mem_filter, Prod.exists, beq_iff_eq]
    constructor
    · intro ⟨id, k, ⟨member, zero⟩, same⟩
      subst same zero
      exact (entry 0).mp member
    · intro free
      exact ⟨v, 0, ⟨(entry 0).mpr free, rfl⟩, rfl⟩

structure SortSpec (g : DagGraph) (sorted : List String) (result : Except DagError (List String)) : Prop where
  nodup : sorted.Nodup
  inside : ∀ id ∈ sorted, id ∈ g.nodes
  before : ∀ earlier v later, sorted = earlier ++ v :: later → ∀ d, g.DependsOn v d → d ∈ earlier
  ok : ∀ l, result = .ok l → l = sorted ∧ ∀ id, id ∈ g.nodes → id ∈ sorted
  error : ∀ e, result = .error e → ∃ stuck, e = .cycleDetected stuck ∧ stuck ∈ g.nodes ∧ stuck ∉ sorted
  succeeds : (∃ l, result = .ok l) ↔ ¬ g.HasCycle ∧ g.ListsOnce

theorem sortSpec {g : DagGraph} (keyed : g.Keyed) (order : NodeOrder) (degrees : DegreeOrder) :
    ∃ inDegree sorted result, g.inDegree order = some inDegree ∧
      g.popAll order (g.nodeCount + 1) (zeroIds degrees inDegree) inDegree [] = some sorted ∧
      g.topologicalSort order degrees = some result ∧ SortSpec g sorted result := by
  obtain ⟨inDegree, counted, agrees⟩ := inDegreeAgrees keyed order
  have length : (order.keys g.nodes).length = g.nodeCount := order.keysLength g.nodes
  have distinct := order.nodup g.nodes
  have inv := zeroIdsInv agrees degrees
  obtain ⟨sorted, degree', drained, done⟩ := inv.drained distinct (g.nodeCount + 1) (by simp [length])
  have popped := popAllDrain keyed order (g.nodeCount + 1) agrees inv drained
  have inside : ∀ id ∈ sorted, id ∈ g.nodes := by
    intro id member
    exact (order.complete g.nodes id).mp ((done.sortedReady id).mp member).1
  have before : ∀ earlier v later, sorted = earlier ++ v :: later → ∀ d, g.DependsOn v d → d ∈ earlier :=
    fun earlier v later split d edge => done.before earlier v later split d (edgeIff.mpr edge)
  have all : sorted.length = g.nodeCount ↔ ¬ g.HasCycle ∧ g.ListsOnce := by
    rw [← length, done.sortedAll distinct successorsInside, cyclicIff, listsOnceIff]
  have part := done.sortedSubperm
  by_cases full : sorted.length = g.nodeCount
  · refine ⟨inDegree, sorted, .ok sorted, counted, popped, ?_, done.sortedNodup, inside, before, fun l same => ?_,
      by simp, by simp [all.mp full]⟩
    · simp [topologicalSort, counted, popped, full]
    · cases same
      have perm := part.perm_of_length_le (by omega)
      exact ⟨rfl, fun id present => perm.mem_iff.mpr ((order.complete g.nodes id).mpr present)⟩
  · have missing : ∃ stuck, (order.keys g.nodes).find? (fun id => !sorted.contains id) = some stuck := by
      rw [← Option.isSome_iff_exists, List.find?_isSome]
      by_contra none
      simp only [Bool.not_eq_true', List.contains_eq_mem, decide_eq_false_iff_not, not_exists, not_and, not_not] at none
      have whole := (List.subperm_of_subset distinct none).length_le
      have := part.length_le
      omega
    obtain ⟨stuck, found⟩ := missing
    have absent : stuck ∉ sorted := by simpa using List.find?_some found
    have listed := (order.complete g.nodes stuck).mp (List.mem_of_find?_eq_some found)
    refine ⟨inDegree, sorted, .error (.cycleDetected stuck), counted, popped, ?_, done.sortedNodup, inside, before,
      by simp, fun e same => ?_, ?_⟩
    · simp only [topologicalSort, counted, popped, Option.bind_eq_bind, Option.bind_some, bne_iff_ne, ne_eq, full,
        not_false_eq_true, if_true, found]
    · cases same
      exact ⟨stuck, rfl, listed, absent⟩
    · simpa using fun acyclic once => full (all.mpr ⟨acyclic, once⟩)

theorem sortSound {g : DagGraph} (keyed : g.Keyed) (order : NodeOrder) (degrees : DegreeOrder) :
    ∃ inDegree sorted result, g.inDegree order = some inDegree ∧
      g.popAll order (g.nodeCount + 1) (zeroIds degrees inDegree) inDegree [] = some sorted ∧
      g.topologicalSort order degrees = some result ∧
      (∀ l, result = .ok l → l = sorted ∧ l.Nodup ∧ (∀ id, id ∈ l ↔ id ∈ g.nodes) ∧
        ∀ earlier v later, l = earlier ++ v :: later → ∀ d, g.DependsOn v d → d ∈ earlier) ∧
      (∀ e, result = .error e → ∃ stuck, e = .cycleDetected stuck ∧ stuck ∈ g.nodes ∧ stuck ∉ sorted) := by
  obtain ⟨inDegree, sorted, result, counted, popped, ran, spec⟩ := sortSpec keyed order degrees
  refine ⟨inDegree, sorted, result, counted, popped, ran, fun l same => ?_, spec.error⟩
  obtain ⟨here, all⟩ := spec.ok l same
  subst here
  exact ⟨rfl, spec.nodup, fun id => ⟨spec.inside id, all id⟩, spec.before⟩

def tangled : DagGraph :=
  ⟨(((∅ : HashMap String Node).insert "a" (makeNode "a" ["b"])).insert "b" (makeNode "b" ["a", "a"])).insert "c"
    (makeNode "c" ["z"])⟩

theorem tangledKeyed : tangled.Keyed := by
  intro id n found
  simp only [tangled, getNode, HashMap.lookupInsert, Finmap.lookup_empty] at found
  split at found
  · rename_i same
    cases found
    exact same.symm
  · split at found
    · rename_i same
      cases found
      exact same.symm
    · split at found
      · rename_i same
        cases found
        exact same.symm
      · contradiction

theorem sortSoundTangled :
    ∃ inDegree sorted result, tangled.inDegree .sorted = some inDegree ∧
      tangled.popAll .sorted (tangled.nodeCount + 1) (zeroIds .sorted inDegree) inDegree [] = some sorted ∧
      tangled.topologicalSort .sorted .sorted = some result ∧
      (∀ l, result = .ok l → l = sorted ∧ l.Nodup ∧ (∀ id, id ∈ l ↔ id ∈ tangled.nodes) ∧
        ∀ earlier v later, l = earlier ++ v :: later → ∀ d, tangled.DependsOn v d → d ∈ earlier) ∧
      (∀ e, result = .error e → ∃ stuck, e = .cycleDetected stuck ∧ stuck ∈ tangled.nodes ∧ stuck ∉ sorted) :=
  sortSound tangledKeyed .sorted .sorted

inductive Edit where
  | addNode (order : NodeOrder) (node : Node)
  | removeNode (order : NodeOrder) (id : String)
  | updateDependencies (order : NodeOrder) (id : String) (newDeps : List String)

def edit (g : DagGraph) : Edit → Option DagGraph
  | .addNode order node => some (g.addNode order node).2
  | .removeNode order id => some (g.removeNode order id).2
  | .updateDependencies order id deps => some (RuntimeDag.updateDependencies order g id deps).2

theorem editWellFormed (g : DagGraph) (i : Edit) (h : DagGraph) (well : g.WellFormed) (next : edit g i = some h) :
    h.WellFormed := by
  cases i with
  | addNode order node => cases next; exact well.addNode order node
  | removeNode order id => cases next; exact well.removeNode order id
  | updateDependencies order id deps => cases next; exact well.updateDependencies order id deps

theorem sortAgreesIffListsOnce {g : DagGraph} (reached : Reachable edit new g) (order : NodeOrder)
    (degrees : DegreeOrder) :
    ∃ result, g.topologicalSort order degrees = some result ∧
      (((∃ id, result = .error (.cycleDetected id)) ↔ g.hasCycle order = true) ∧
        (∃ sorted, result = .ok sorted ∧ ∀ id, id ∈ sorted ↔ id ∈ g.nodes) ↔ g.ListsOnce) := by
  have well := reachableInvariant editWellFormed wellFormedNew reached
  have none : g.hasCycle order = false := hasCycleFalse.mpr well.acyclic
  obtain ⟨_, sorted, result, _, _, ran, spec⟩ := sortSpec well.keyed order degrees
  refine ⟨result, ran, ?_⟩
  constructor
  · intro ⟨_, l, same, _⟩
    exact (spec.succeeds.mp ⟨l, same⟩).2
  · intro once
    obtain ⟨l, same⟩ := spec.succeeds.mpr ⟨well.acyclic, once⟩
    obtain ⟨here, all⟩ := spec.ok l same
    subst here
    exact ⟨by simp [same, none], l, same, fun id => ⟨spec.inside id, all id⟩⟩

theorem sortAgreesIffListsOnceChain :
    ∃ result, (new.withNode (makeNode "a" ["z", "z"])).topologicalSort .sorted .sorted = some result ∧
      (((∃ id, result = .error (.cycleDetected id)) ↔
          (new.withNode (makeNode "a" ["z", "z"])).hasCycle .sorted = true) ∧
        (∃ sorted, result = .ok sorted ∧ ∀ id, id ∈ sorted ↔ id ∈ (new.withNode (makeNode "a" ["z", "z"])).nodes) ↔
        (new.withNode (makeNode "a" ["z", "z"])).ListsOnce) :=
  sortAgreesIffListsOnce ⟨[.addNode .sorted (makeNode "a" ["z", "z"])], by decide +kernel⟩ .sorted .sorted

def twice : DagGraph := (new.withNode (makeNode "a" [])).withNode (makeNode "b" ["a", "a"])

theorem sortDisagreesTwice : Reachable edit new twice ∧ twice.hasCycle .sorted = false ∧
    twice.topologicalSort .sorted .sorted = some (.error (.cycleDetected "b")) :=
  ⟨⟨[.addNode .sorted (makeNode "a" []), .addNode .sorted (makeNode "b" ["a", "a"])], by decide +kernel⟩,
    by decide +kernel, by decide +kernel⟩

end DagGraph
end ArosKernel.Dag
