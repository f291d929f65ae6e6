import ArosKernel.DagGraph

/-! Exactness of `has_cycle`. The source's search is the generic one over the
dependencies that are present, so the generic theorem decides it for every graph
and every enumeration order. -/
namespace ArosKernel.Dag
open Relation DepthFirst

namespace DagGraph

-- Depending on a node of the graph; a dangling dependency is no edge.
def DependsOn (g : DagGraph) (a b : String) : Prop :=
  ∃ node, g.getNode a = some node ∧ b ∈ node.dependsOn ∧ b ∈ g.nodes

def HasCycle (g : DagGraph) : Prop := ∃ a, TransGen g.DependsOn a a

def successors (g : DagGraph) (id : String) : List String :=
  match g.getNode id with
  | some node => node.dependsOn.filter (fun d => d ∈ g.nodes)
  | none => []

theorem edgeIff {g : DagGraph} {a b : String} : Edge g.successors a b ↔ g.DependsOn a b := by
  unfold Edge successors DependsOn
  cases g.getNode a <;> simp

theorem cyclicIff (g : DagGraph) : Cyclic g.successors ↔ g.HasCycle := by
  have same : Edge g.successors = g.DependsOn := by
    funext a b
    exact propext edgeIff
  unfold Cyclic HasCycle
  rw [same]

theorem dfsDepsScan (g : DagGraph) (visit : String → Marks String → Option (Bool × Marks String))
    (deps : List String) (m : Marks String) :
    g.dfsDeps visit deps m = scan visit (deps.filter (fun d => d ∈ g.nodes)) m := by
  induction deps generalizing m with
  | nil => rfl
  | cons d rest ih =>
    by_cases present : d ∈ g.nodes
    · simp only [dfsDeps, present, if_true, List.filter_cons, decide_true, scan, ih]
    · simp only [dfsDeps, present, if_false, List.filter_cons, decide_false, ih, Bool.false_eq_true]

theorem dfsCycleSearch (g : DagGraph) (fuel : Nat) (id : String) (m : Marks String) :
    g.dfsCycle fuel id m = search g.successors fuel id m := by
  induction fuel generalizing id m with
  | zero => rfl
  | succ fuel ih =>
    have visit : g.dfsCycle fuel = search g.successors fuel := by
      funext id m
      exact ih id m
    unfold dfsCycle search successors
    cases g.getNode id with
    | none => rfl
    | some node => simp only [dfsDepsScan, visit]; rfl

theorem cycleFromSweep (g : DagGraph) (fuel : Nat) (roots : List String) (m : Marks String) :
    g.cycleFrom fuel roots m = sweep g.successors fuel roots m := by
  induction roots generalizing m with
  | nil => rfl
  | cons root rest ih => simp only [cycleFrom, sweep, dfsCycleSearch, ih]

theorem hasCycleDecides (order : NodeOrder) (g : DagGraph) {fuel : Nat} (enough : g.nodeCount ≤ fuel) :
    ∃ found, hasCycleWithin fuel order g = some found ∧ (found = true ↔ g.HasCycle) := by
  have closed : ∀ u ∈ g.nodes.keys, ∀ w ∈ g.successors u, w ∈ g.nodes.keys := by
    intro u _ w edge
    obtain ⟨_, _, _, present⟩ := edgeIff.mp edge
    exact Finmap.mem_keys.mpr present
  have sources : ∀ u w, Edge g.successors u w → u ∈ g.nodes.keys := by
    intro u w edge
    obtain ⟨_, found, _⟩ := edgeIff.mp edge
    exact Finmap.mem_keys.mpr (memOfGetNode found)
  have roots : ∀ v, v ∈ order.keys g.nodes ↔ v ∈ g.nodes.keys :=
    fun v => (order.complete g.nodes v).trans Finmap.mem_keys.symm
  obtain ⟨found, ran, exact_⟩ := sweepDecides closed sources enough roots
  exact ⟨found, by rw [hasCycleWithin, cycleFromSweep, ran], exact_.trans g.cyclicIff⟩

theorem hasCycleTerminates (order : NodeOrder) (g : DagGraph) {fuel : Nat} (enough : g.nodeCount ≤ fuel) :
    hasCycleWithin fuel order g = some (g.hasCycle order) := by
  obtain ⟨found, ran, decides⟩ := hasCycleDecides order g enough
  obtain ⟨found', ran', decides'⟩ := hasCycleDecides order g (Nat.le_refl g.nodeCount)
  have same : found = found' := Bool.eq_iff_iff.mpr (decides.trans decides'.symm)
  simp [hasCycle, ran, ran', same]

theorem hasCycleIff {order : NodeOrder} {g : DagGraph} : g.hasCycle order = true ↔ g.HasCycle := by
  obtain ⟨found, ran, decides⟩ := hasCycleDecides order g (Nat.le_refl g.nodeCount)
  rw [hasCycle, ran]
  exact decides

theorem hasCycleFalse {order : NodeOrder} {g : DagGraph} : g.hasCycle order = false ↔ ¬ g.HasCycle := by
  rw [← Bool.not_eq_true, not_congr hasCycleIff]

theorem hasCycleExact (g : DagGraph) (order : NodeOrder) :
    (∀ fuel, g.nodeCount ≤ fuel → hasCycleWithin fuel order g = some (g.hasCycle order)) ∧
    (g.hasCycle order = true ↔ ∃ id, TransGen g.DependsOn id id) :=
  ⟨fun _ enough => hasCycleTerminates order g enough, hasCycleIff⟩

theorem HasCycle.mono {g h : DagGraph} (edges : ∀ a b, g.DependsOn a b → h.DependsOn a b)
    (cycle : g.HasCycle) : h.HasCycle := by
  obtain ⟨a, path⟩ := cycle
  exact ⟨a, TransGen.mono edges a a path⟩

theorem notHasCycleNew : ¬ new.HasCycle := by
  intro ⟨a, path⟩
  obtain ⟨b, ⟨node, found, _⟩, _⟩ := TransGen.head'_iff.mp path
  simp at found

theorem dependsOnCongr {g h : DagGraph}
    (same : ∀ id, (g.getNode id).map Node.dependsOn = (h.getNode id).map Node.dependsOn) {a b : String} :
    g.DependsOn a b → h.DependsOn a b := by
  intro ⟨node, found, lists, present⟩
  have source := same a
  have target := same b
  obtain ⟨other, hb⟩ := memIff.mp present
  simp only [found, hb, Option.map_some] at source target
  obtain ⟨n, hn, hd⟩ := Option.map_eq_some_iff.mp source.symm
  obtain ⟨t, ht, _⟩ := Option.map_eq_some_iff.mp target.symm
  exact ⟨n, hn, hd ▸ lists, memOfGetNode ht⟩

end DagGraph
end ArosKernel.Dag
