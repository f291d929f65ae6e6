import ArosKernel.HashMap
import ArosKernel.DepthFirst
import ArosKernel.Binary64

/-! The task graph of `dag/graph.rs`: nodes by id, with dependency lists that may
dangle or repeat. A method on `&mut self` returns its result with the new graph.
Loops over the node map take the map's enumeration order. -/
namespace ArosKernel.Dag
open DepthFirst (Marks)

inductive DagError where
  | cycleDetected (id : String)
  | nodeNotFound (id : String)
  | hasDependents (id : String)
  | duplicateNode (id : String)
  | nodeInProgress (id : String)
  deriving DecidableEq, Repr

inductive NodeStatus where
  | pending
  | inProgress
  | done
  | failed
  | blocked
  deriving DecidableEq, Repr

inductive AgentLevel where
  | session
  | agent
  | subAgent
  deriving DecidableEq, Repr

structure NodeResult where
  success : Bool
  output : String
  error : Option String
  durationSecs : F64
  deriving DecidableEq, Repr

structure Node where
  id : String
  title : String
  description : String
  dependsOn : List String
  status : NodeStatus
  agentLevel : AgentLevel
  outputFiles : List String
  retryCount : UInt32
  result : Option NodeResult
  deriving DecidableEq, Repr

-- `make_node` of the tests.
def makeNode (id : String) (deps : List String) : Node :=
  { id, title := s!"Task {id}", description := "", dependsOn := deps, status := .pending, agentLevel := .agent,
    outputFiles := [], retryCount := 0, result := none }

structure DagGraph where
  nodes : HashMap String Node
  deriving DecidableEq

abbrev NodeOrder := HashMap.Order String Node

namespace DagGraph

def new : DagGraph := ⟨∅⟩

def getNode (g : DagGraph) (id : String) : Option Node := g.nodes.lookup id

def modify (g : DagGraph) (id : String) (f : Node → Node) : DagGraph := ⟨g.nodes.update id f⟩

def nodeCount (g : DagGraph) : Nat := g.nodes.keys.card

/-! Depth-first search. The recursion of `dfs_cycle` carries fuel. -/

def dfsDeps (g : DagGraph) (visit : String → Marks String → Option (Bool × Marks String)) :
    List String → Marks String → Option (Bool × Marks String)
  | [], m => some (false, m)
  | depId :: rest, m =>
    if depId ∈ g.nodes then
      if depId ∉ m.visited then do
        let (found, m') ← visit depId m
        if found then some (true, m') else dfsDeps g visit rest m'
      else if depId ∈ m.stack then some (true, m)
      else dfsDeps g visit rest m
    else dfsDeps g visit rest m

def dfsCycle (g : DagGraph) : Nat → String → Marks String → Option (Bool × Marks String)
  | 0, _, _ => none
  | fuel + 1, id, m =>
    match g.getNode id with
    | some node => do
      let (found, m') ← g.dfsDeps (g.dfsCycle fuel) node.dependsOn (m.enter id)
      if found then some (true, m') else some (false, m'.leave id)
    | none => some (false, (m.enter id).leave id)

def cycleFrom (g : DagGraph) (fuel : Nat) : List String → Marks String → Option Bool
  | [], _ => some false
  | id :: rest, m =>
    if id ∉ m.visited then do
      let (found, m') ← g.dfsCycle fuel id m
      if found then some true else g.cycleFrom fuel rest m'
    else g.cycleFrom fuel rest m

def hasCycleWithin (fuel : Nat) (order : NodeOrder) (g : DagGraph) : Option Bool :=
  g.cycleFrom fuel (order.keys g.nodes) Marks.empty

-- The node count is enough fuel for every graph (`hasCycleTerminates`).
def hasCycle (order : NodeOrder) (g : DagGraph) : Bool :=
  (hasCycleWithin g.nodeCount order g).getD false

def addNode (order : NodeOrder) (g : DagGraph) (node : Node) : Except DagError Unit × DagGraph :=
  if node.id ∈ g.nodes then (.error (.duplicateNode node.id), g)
  else
    let inserted : DagGraph := ⟨g.nodes.insert node.id node⟩
    if inserted.hasCycle order then
      (.error (.cycleDetected node.id), ⟨inserted.nodes.erase node.id⟩)
    else (.ok (), inserted)

def removeNode (order : NodeOrder) (g : DagGraph) (id : String) : Except DagError Node × DagGraph :=
  match g.getNode id with
  | none => (.error (.nodeNotFound id), g)
  | some node =>
    if (order.entries g.nodes).any (fun (otherId, other) => otherId != id && other.dependsOn.contains id) then
      (.error (.hasDependents id), g)
    else (.ok node, ⟨g.nodes.erase id⟩)

def depDone (g : DagGraph) (depId : String) : Bool :=
  (g.getNode depId).any (fun dep => dep.status == .done)

def readyNodes (order : NodeOrder) (g : DagGraph) : List Node :=
  (order.values g.nodes).filter (fun n => n.status == .pending && n.dependsOn.all g.depDone)

def isComplete (order : NodeOrder) (g : DagGraph) : Bool :=
  g.nodeCount != 0 && (order.values g.nodes).all (fun n => n.status == .done)

def hasFailed (order : NodeOrder) (g : DagGraph) : Bool :=
  (order.values g.nodes).any (fun n => n.status == .failed)

@[simp] theorem getNodeNew (id : String) : new.getNode id = none := Finmap.lookup_empty id

theorem memOfGetNode {g : DagGraph} {id : String} {n : Node} (found : g.getNode id = some n) : id ∈ g.nodes :=
  Finmap.mem_of_lookup_eq_some found

theorem memIff {g : DagGraph} {id : String} : id ∈ g.nodes ↔ ∃ n, g.getNode id = some n := Finmap.mem_iff

theorem getNodeNone {g : DagGraph} {id : String} : g.getNode id = none ↔ id ∉ g.nodes := Finmap.lookup_eq_none

theorem getNodeModify (g : DagGraph) (id j : String) (f : Node → Node) :
    (g.modify id f).getNode j = if j = id then (g.getNode j).map f else g.getNode j :=
  HashMap.lookupUpdate g.nodes j id f

theorem getNodeInsert (g : DagGraph) (id j : String) (n : Node) :
    (DagGraph.mk (g.nodes.insert id n)).getNode j = if j = id then some n else g.getNode j :=
  HashMap.lookupInsert g.nodes j id n

theorem getNodeErase (g : DagGraph) (id j : String) :
    (DagGraph.mk (g.nodes.erase id)).getNode j = if j = id then none else g.getNode j :=
  HashMap.lookupErase g.nodes j id

theorem depDoneIff {g : DagGraph} {depId : String} :
    g.depDone depId = true ↔ ∃ dep, g.getNode depId = some dep ∧ dep.status = .done := by
  unfold depDone
  cases g.getNode depId <;> simp

theorem memReadyNodes {order : NodeOrder} {g : DagGraph} {n : Node} :
    n ∈ g.readyNodes order ↔
      (∃ id, g.getNode id = some n) ∧ n.status = .pending ∧ ∀ d ∈ n.dependsOn, g.depDone d = true := by
  simp only [readyNodes, List.mem_filter, HashMap.Order.memValues, getNode, Bool.and_eq_true, beq_iff_eq,
    List.all_eq_true]

theorem isCompleteIff {order : NodeOrder} {g : DagGraph} :
    g.isComplete order = true ↔
      g.nodeCount ≠ 0 ∧ ∀ id n, g.getNode id = some n → n.status = .done := by
  simp only [isComplete, Bool.and_eq_true, bne_iff_ne, List.all_eq_true, HashMap.Order.memValues, beq_iff_eq,
    forall_exists_index]
  exact and_congr_right (fun _ => forall_comm)

theorem hasFailedIff {order : NodeOrder} {g : DagGraph} :
    g.hasFailed order = true ↔ ∃ id n, g.getNode id = some n ∧ n.status = .failed := by
  simp only [hasFailed, List.any_eq_true, HashMap.Order.memValues, beq_iff_eq]
  constructor
  · intro ⟨n, ⟨id, found⟩, failed⟩
    exact ⟨id, n, found, failed⟩
  · intro ⟨id, n, found, failed⟩
    exact ⟨n, ⟨id, found⟩, failed⟩

end DagGraph
end ArosKernel.Dag
