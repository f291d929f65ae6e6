import ArosKernel.DagCycle

/-! The executor of `dag/executor.rs`. A tick has two sections under the write lock:
claiming ready nodes, and writing the results back when all tasks have ended. -/
namespace ArosKernel.Dag

structure ExecutionResult where
  nodeId : String
  result : NodeResult
  deriving DecidableEq, Repr

inductive Joined where
  | returned (result : NodeResult)
  | panicked (message : String)
  deriving DecidableEq, Repr

abbrev TaskExecutor := Node → Joined

def Joined.nodeResult : Joined → NodeResult
  | .returned result => result
  | .panicked message =>
    { success := false, output := "", error := some s!"Task panicked: {message}", durationSecs := F64.zero }

structure DagExecutor where
  maxParallel : Nat
  deriving DecidableEq, Repr

def Node.claimed (n : Node) : Node := { n with status := .inProgress }

def Node.settled (r : NodeResult) (n : Node) : Node :=
  { n with status := if r.success then .done else .failed, result := some r }

namespace DagGraph

def claimNodes : List String → DagGraph → DagGraph × List Node
  | [], g => (g, [])
  | id :: rest, g =>
    match g.getNode id with
    | some node =>
      let (g', run) := claimNodes rest (g.modify id Node.claimed)
      (g', node.claimed :: run)
    | none => claimNodes rest g

def writeBack : List ExecutionResult → DagGraph → DagGraph
  | [], g => g
  | er :: rest, g => writeBack rest (g.modify er.nodeId (Node.settled er.result))

end DagGraph

namespace DagExecutor

def readyIds (e : DagExecutor) (order : NodeOrder) (g : DagGraph) : List String :=
  ((g.readyNodes order).take e.maxParallel).map Node.id

def claim (e : DagExecutor) (order : NodeOrder) (g : DagGraph) : DagGraph × List Node :=
  DagGraph.claimNodes (e.readyIds order g) g

def awaitAll (task : TaskExecutor) (nodes : List Node) : List ExecutionResult :=
  nodes.map (fun node => ⟨node.id, (task node).nodeResult⟩)

def executeTick (e : DagExecutor) (order : NodeOrder) (task : TaskExecutor) (g : DagGraph) :
    DagGraph × List ExecutionResult :=
  let (claimed, nodesToRun) := e.claim order g
  if nodesToRun.isEmpty then (claimed, [])
  else
    let results := awaitAll task nodesToRun
    (claimed.writeBack results, results)

structure RunReport where
  outcome : Except String Unit
  graph : DagGraph
  ticks : Nat
  dispatched : List String

def failedMessage : String := "DAG has failed nodes with no recovery path"
def stuckMessage : String := "DAG is stuck: no ready nodes and not complete"

-- The exit test of the loop, under the read lock; `none` sleeps and loops.
def verdict (order : NodeOrder) (g : DagGraph) (results : List ExecutionResult) : Option (Except String Unit) :=
  if g.isComplete order then some (.ok ())
  else if results.isEmpty && (g.readyNodes order).isEmpty then
    if g.hasFailed order then some (.error failedMessage) else some (.error stuckMessage)
  else none

/- The loop of `run`, one unit of fuel for each tick. Tick `k` meets the map order
`orders k` and the task behaviour `tasks k`. -/
def run (e : DagExecutor) (orders : Nat → NodeOrder) (tasks : Nat → TaskExecutor) :
    (fuel : Nat) → (k : Nat) → DagGraph → Option RunReport
  | 0, _, _ => none
  | fuel + 1, k, g =>
    let (g', results) := e.executeTick (orders k) (tasks k) g
    let dispatched := results.map ExecutionResult.nodeId
    match verdict (orders k) g' results with
    | some outcome => some ⟨outcome, g', 1, dispatched⟩
    | none => (e.run orders tasks fuel (k + 1) g').map
        (fun r => { r with ticks := r.ticks + 1, dispatched := dispatched ++ r.dispatched })

end DagExecutor

@[simp] theorem Node.claimedStatus (n : Node) : n.claimed.status = .inProgress := rfl

theorem Node.settledEnds (r : NodeResult) (n : Node) : (n.settled r).status = .done ∨ (n.settled r).status = .failed := by
  rw [Node.settled]
  cases r.success <;> simp

namespace DagGraph

def Keyed (g : DagGraph) : Prop := ∀ id n, g.getNode id = some n → n.id = id

theorem claimNodesGet (ids : List String) (g : DagGraph) (j : String) :
    (claimNodes ids g).1.getNode j = if j ∈ ids then (g.getNode j).map Node.claimed else g.getNode j := by
  induction ids generalizing g with
  | nil => simp [claimNodes]
  | cons id rest ih =>
    simp only [claimNodes, List.mem_cons]
    cases found : g.getNode id with
    | none =>
      by_cases same : j = id
      · subst j
        simp [ih, found]
      · simp [ih, same]
    | some node =>
      simp only [ih, getNodeModify]
      by_cases same : j = id
      · subst j
        simp [found, Node.claimed]
      · simp [same]

theorem claimNodesRun (ids : List String) (g : DagGraph) :
    (claimNodes ids g).2 = ids.filterMap (fun id => (g.getNode id).map Node.claimed) := by
  induction ids generalizing g with
  | nil => rfl
  | cons id rest ih =>
    cases found : g.getNode id with
    | none => simp [claimNodes, found, ih]
    | some node =>
      have again : ∀ j, ((g.modify id Node.claimed).getNode j).map Node.claimed = (g.getNode j).map Node.claimed := by
        intro j
        rw [getNodeModify]
        split
        · rw [Option.map_map]
          rfl
        · rfl
      simp [claimNodes, found, ih, again]

theorem writeBackOther {results : List ExecutionResult} {j : String}
    (absent : j ∉ results.map ExecutionResult.nodeId) (g : DagGraph) : (g.writeBack results).getNode j = g.getNode j := by
  induction results generalizing g with
  | nil => rfl
  | cons er rest ih =>
    simp only [List.map_cons, List.mem_cons, not_or] at absent
    rw [writeBack, ih absent.2, getNodeModify, if_neg absent.1]

theorem writeBackGet {results : List ExecutionResult} (distinct : (results.map ExecutionResult.nodeId).Nodup)
    {er : ExecutionResult} (member : er ∈ results) (g : DagGraph) :
    (g.writeBack results).getNode er.nodeId = (g.getNode er.nodeId).map (Node.settled er.result) := by
  induction results generalizing g with
  | nil => simp at member
  | cons head rest ih =>
    simp only [List.map_cons, List.nodup_cons] at distinct
    rcases List.mem_cons.mp member with same | later
    · subst er
      rw [writeBack, writeBackOther distinct.1, getNodeModify, if_pos rfl]
    · have different : er.nodeId ≠ head.nodeId :=
        fun same => distinct.1 (same ▸ List.mem_map.mpr ⟨er, later, rfl⟩)
      rw [writeBack, ih distinct.2 later, getNodeModify, if_neg different]

theorem filterMapIds {f : String → Option Node} (ids : List String)
    (each : ∀ id ∈ ids, ∃ n, f id = some n ∧ n.id = id) : (ids.filterMap f).map Node.id = ids := by
  induction ids with
  | nil => rfl
  | cons id rest ih =>
    obtain ⟨n, found, key⟩ := each id List.mem_cons_self
    simp only [List.filterMap_cons, found, List.map_cons, key,
      ih (fun j member => each j (List.mem_cons_of_mem _ member))]

theorem valuesIds {order : NodeOrder} {g : DagGraph} (keyed : g.Keyed) :
    (order.values g.nodes).map Node.id = order.keys g.nodes := by
  refine filterMapIds _ (fun id member => ?_)
  obtain ⟨n, found⟩ := memIff.mp ((order.complete g.nodes id).mp member)
  exact ⟨n, found, keyed id n found⟩

end DagGraph

namespace DagExecutor
open DagGraph

theorem readyIdsLength (e : DagExecutor) (order : NodeOrder) (g : DagGraph) :
    (e.readyIds order g).length ≤ e.maxParallel := by
  simp [readyIds]

theorem readyIdsNodup {g : DagGraph} (keyed : g.Keyed) (e : DagExecutor) (order : NodeOrder) :
    (e.readyIds order g).Nodup := by
  have sub : ((g.readyNodes order).take e.maxParallel).Sublist (order.values g.nodes) :=
    (List.take_sublist _ _).trans List.filter_sublist
  refine (sub.map Node.id).nodup ?_
  rw [valuesIds keyed]
  exact order.nodup g.nodes

theorem readyIdsReady {g : DagGraph} (keyed : g.Keyed) {e : DagExecutor} {order : NodeOrder} {id : String}
    (member : id ∈ e.readyIds order g) :
    ∃ n, g.getNode id = some n ∧ n.status = .pending ∧ ∀ d ∈ n.dependsOn, g.depDone d = true := by
  obtain ⟨n, taken, same⟩ := List.mem_map.mp member
  obtain ⟨⟨key, found⟩, ready⟩ := memReadyNodes.mp (List.mem_of_mem_take taken)
  have := keyed key n found
  exact ⟨n, by rw [← same, this]; exact found, ready⟩

theorem readyIdsNonempty {e : DagExecutor} (parallel : 1 ≤ e.maxParallel) {order : NodeOrder} {g : DagGraph}
    (idle : e.readyIds order g = []) : g.readyNodes order = [] := by
  simp only [readyIds, List.map_eq_nil_iff, List.take_eq_nil_iff] at idle
  rcases idle with zero | none
  · omega
  · exact none

theorem claimGet (e : DagExecutor) (order : NodeOrder) (g : DagGraph) (j : String) :
    (e.claim order g).1.getNode j =
      if j ∈ e.readyIds order g then (g.getNode j).map Node.claimed else g.getNode j :=
  claimNodesGet _ g j

theorem claimIds {g : DagGraph} (keyed : g.Keyed) (e : DagExecutor) (order : NodeOrder) :
    (e.claim order g).2.map Node.id = e.readyIds order g := by
  rw [claim, claimNodesRun]
  refine filterMapIds _ (fun id member => ?_)
  obtain ⟨n, found, _⟩ := readyIdsReady keyed member
  exact ⟨n.claimed, by rw [found]; rfl, keyed id n found⟩

theorem claimMem {g : DagGraph} (keyed : g.Keyed) {e : DagExecutor} {order : NodeOrder} {n : Node}
    (member : n ∈ (e.claim order g).2) :
    n.id ∈ e.readyIds order g ∧ n.status = .inProgress ∧ (e.claim order g).1.getNode n.id = some n := by
  have listed : n.id ∈ e.readyIds order g := by
    rw [← claimIds keyed]
    exact List.mem_map.mpr ⟨n, member, rfl⟩
  rw [claim, claimNodesRun, List.mem_filterMap] at member
  obtain ⟨id, _, found⟩ := member
  obtain ⟨m, hm, same⟩ := Option.map_eq_some_iff.mp found
  have key : n.id = id := by rw [← same]; exact keyed id m hm
  refine ⟨listed, by rw [← same]; rfl, ?_⟩
  rw [claimGet, if_pos listed, key, hm, Option.map_some, same]

theorem claimAt {g : DagGraph} (keyed : g.Keyed) {e : DagExecutor} {order : NodeOrder} {j : String} {n' : Node}
    (found : (e.claim order g).1.getNode j = some n') :
    (j ∉ e.readyIds order g ∧ g.getNode j = some n') ∨
    (j ∈ e.readyIds order g ∧ ∃ n, g.getNode j = some n ∧ n.status = .pending ∧
      (∀ d ∈ n.dependsOn, g.depDone d = true) ∧ n' = n.claimed) := by
  rw [claimGet] at found
  split at found
  · rename_i member
    obtain ⟨n, hn, pending, met⟩ := readyIdsReady keyed member
    rw [hn] at found
    exact .inr ⟨member, n, hn, pending, met, (Option.some.inj found).symm⟩
  · rename_i absent
    exact .inl ⟨absent, found⟩

theorem movedNotReady {g : DagGraph} (keyed : g.Keyed) {e : DagExecutor} {order : NodeOrder} {id : String} {n : Node}
    (found : g.getNode id = some n) (moved : n.status ≠ .pending) : id ∉ e.readyIds order g := by
  intro member
  obtain ⟨m, hm, pending, _⟩ := readyIdsReady keyed member
  rw [found] at hm
  cases Option.some.inj hm
  exact moved pending

theorem claimKept {g : DagGraph} (keyed : g.Keyed) {e : DagExecutor} {order : NodeOrder} {id : String} {n : Node}
    (found : g.getNode id = some n) (moved : n.status ≠ .pending) : (e.claim order g).1.getNode id = some n := by
  rw [claimGet, if_neg (movedNotReady keyed found moved), found]

theorem claimDepDone {g : DagGraph} (keyed : g.Keyed) {e : DagExecutor} {order : NodeOrder} {d : String}
    (done : g.depDone d = true) : (e.claim order g).1.depDone d = true := by
  obtain ⟨n, found, status⟩ := depDoneIff.mp done
  exact depDoneIff.mpr ⟨n, claimKept keyed found (by simp [status]), status⟩

structure Held (g : DagGraph) (nodes : List Node) : Prop where
  distinct : (nodes.map Node.id).Nodup
  here : ∀ n ∈ nodes, g.getNode n.id = some n ∧ n.status = .inProgress

theorem claimHeld {g : DagGraph} (keyed : g.Keyed) (e : DagExecutor) (order : NodeOrder) :
    Held (e.claim order g).1 (e.claim order g).2 where
  distinct := by rw [claimIds keyed]; exact readyIdsNodup keyed e order
  here n member := by
    obtain ⟨_, status, found⟩ := claimMem keyed member
    exact ⟨found, status⟩

theorem movedNotClaimed {g : DagGraph} (keyed : g.Keyed) {e : DagExecutor} {order : NodeOrder} {id : String} {n : Node}
    (found : g.getNode id = some n) (moved : n.status ≠ .pending) : id ∉ (e.claim order g).2.map Node.id := by
  rw [claimIds keyed]
  exact movedNotReady keyed found moved

theorem Held.claim {g : DagGraph} {nodes : List Node} (held : Held g nodes) (keyed : g.Keyed) (e : DagExecutor)
    (order : NodeOrder) : Held (e.claim order g).1 (nodes ++ (e.claim order g).2) where
  distinct := by
    rw [List.map_append]
    refine List.nodup_append.mpr ⟨held.distinct, (claimHeld keyed e order).distinct, fun a old b new same => ?_⟩
    obtain ⟨n, member, key⟩ := List.mem_map.mp old
    obtain ⟨found, status⟩ := held.here n member
    exact movedNotClaimed keyed found (by simp [status]) (key ▸ same ▸ new)
  here n member := by
    rcases List.mem_append.mp member with old | new
    · obtain ⟨found, status⟩ := held.here n old
      exact ⟨claimKept keyed found (by simp [status]), status⟩
    · exact (claimHeld keyed e order).here n new

@[simp] theorem awaitAllIds (task : TaskExecutor) (nodes : List Node) :
    (awaitAll task nodes).map ExecutionResult.nodeId = nodes.map Node.id := by
  simp [awaitAll, Function.comp_def]

theorem writeBackAt {g : DagGraph} {nodes : List Node} (held : Held g nodes) (task : TaskExecutor) {n : Node}
    (member : n ∈ nodes) :
    (g.writeBack (awaitAll task nodes)).getNode n.id = some (n.settled (task n).nodeResult) := by
  have listed : ExecutionResult.mk n.id (task n).nodeResult ∈ awaitAll task nodes :=
    List.mem_map.mpr ⟨n, member, rfl⟩
  have written := writeBackGet (by rw [awaitAllIds]; exact held.distinct) listed g
  rw [written, (held.here n member).1]
  rfl

theorem writeBackElsewhere (g : DagGraph) {nodes : List Node} {j : String} (absent : j ∉ nodes.map Node.id)
    (task : TaskExecutor) : (g.writeBack (awaitAll task nodes)).getNode j = g.getNode j :=
  writeBackOther (by rw [awaitAllIds]; exact absent) g

theorem writeBackCases {g : DagGraph} {nodes : List Node} (held : Held g nodes) {task : TaskExecutor} {j : String}
    {n' : Node} (found : (g.writeBack (awaitAll task nodes)).getNode j = some n') :
    (j ∉ nodes.map Node.id ∧ g.getNode j = some n') ∨
    (∃ n ∈ nodes, n.id = j ∧ g.getNode j = some n ∧ n' = n.settled (task n).nodeResult) := by
  by_cases listed : j ∈ nodes.map Node.id
  · obtain ⟨n, member, key⟩ := List.mem_map.mp listed
    subst key
    rw [writeBackAt held task member] at found
    exact .inr ⟨n, member, rfl, (held.here n member).1, (Option.some.inj found).symm⟩
  · rw [writeBackElsewhere g listed task] at found
    exact .inl ⟨listed, found⟩

theorem writeBackKept {g : DagGraph} {nodes : List Node} (held : Held g nodes) (task : TaskExecutor) {id : String}
    {n : Node} (found : g.getNode id = some n) (idle : n.status ≠ .inProgress) :
    (g.writeBack (awaitAll task nodes)).getNode id = some n := by
  rw [writeBackElsewhere, found]
  intro listed
  obtain ⟨m, member, key⟩ := List.mem_map.mp listed
  have running := held.here m member
  rw [key, found] at running
  cases Option.some.inj running.1
  exact idle running.2

theorem writeBackDepDone {g : DagGraph} {nodes : List Node} (held : Held g nodes) (task : TaskExecutor) {d : String}
    (done : g.depDone d = true) : (g.writeBack (awaitAll task nodes)).depDone d = true := by
  obtain ⟨n, found, status⟩ := depDoneIff.mp done
  exact depDoneIff.mpr ⟨n, writeBackKept held task found (by simp [status]), status⟩

end DagExecutor
end ArosKernel.Dag
