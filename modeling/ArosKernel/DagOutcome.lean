import ArosKernel.DagRuntime
import ArosKernel.Dependency

/-! What a whole run of the executor computes. `Progress` ties every graph on the way
to the graph at the start; with nothing ready and nothing in flight it leaves each
node exactly one status, whatever the order and the parallelism were. -/
namespace ArosKernel.Dag
open Relation Dependency

-- The part of a node that no executor writes.
def Node.plan (n : Node) : Node := { n with status := .pending, result := none }

theorem Node.planDependsOn {n m : Node} (same : n.plan = m.plan) : n.dependsOn = m.dependsOn := by
  show n.plan.dependsOn = m.plan.dependsOn
  rw [same]

theorem Node.planId {n m : Node} (same : n.plan = m.plan) : n.id = m.id := by
  show n.plan.id = m.plan.id
  rw [same]

namespace DagGraph

def Lists (g : DagGraph) (a b : String) : Prop := ∃ n, g.getNode a = some n ∧ b ∈ n.dependsOn

def Good (g : DagGraph) (outcome : String → Bool) (id : String) : Prop := id ∈ g.nodes ∧ outcome id = true

def FinalStatus (g : DagGraph) (outcome : String → Bool) (id : String) : NodeStatus → Prop
  | .done => Succeeds g.Lists (g.Good outcome) id
  | .failed => outcome id = false ∧ NeedsMet g.Lists (g.Good outcome) id
  | .pending => ¬ Succeeds g.Lists (g.Good outcome) id ∧
      ¬ (outcome id = false ∧ NeedsMet g.Lists (g.Good outcome) id)
  | .inProgress => False
  | .blocked => False

structure Progress (start : DagGraph) (outcome : String → Bool) (g : DagGraph) : Prop where
  plan : ∀ id, (g.getNode id).map Node.plan = (start.getNode id).map Node.plan
  met : ∀ id n, g.getNode id = some n → n.status ≠ .pending → ∀ d ∈ n.dependsOn, g.depDone d = true
  done : ∀ id n, g.getNode id = some n → n.status = .done → outcome id = true
  failed : ∀ id n, g.getNode id = some n → n.status = .failed → outcome id = false
  unblocked : ∀ id n, g.getNode id = some n → n.status ≠ .blocked

def Quiet (g : DagGraph) : Prop := ∀ id n, g.getNode id = some n → n.status ≠ .inProgress

def Idle (g : DagGraph) : Prop :=
  ∀ id n, g.getNode id = some n → n.status = .pending → ∃ d ∈ n.dependsOn, g.depDone d ≠ true

def AllPending (g : DagGraph) : Prop := ∀ id n, g.getNode id = some n → n.status = .pending

theorem Progress.start {g : DagGraph} (pending : g.AllPending) (outcome : String → Bool) : Progress g outcome g where
  plan _ := rfl
  met id n found moved := absurd (pending id n found) moved
  done id n found status := by simp [pending id n found] at status
  failed id n found status := by simp [pending id n found] at status
  unblocked id n found := by simp [pending id n found]

theorem AllPending.quiet {g : DagGraph} (pending : g.AllPending) : g.Quiet := by
  intro id n found
  simp [pending id n found]

theorem listsOf {g : DagGraph} {a b : String} {n : Node} (found : g.getNode a = some n) :
    g.Lists a b ↔ b ∈ n.dependsOn := by
  simp [Lists, found]

theorem idleIff {order : NodeOrder} {g : DagGraph} : g.readyNodes order = [] ↔ g.Idle := by
  rw [List.eq_nil_iff_forall_not_mem]
  constructor
  · intro none id n found pending
    by_contra all
    simp only [not_exists, not_and, not_not] at all
    exact none n (memReadyNodes.mpr ⟨⟨id, found⟩, pending, all⟩)
  · intro idle n ready
    obtain ⟨⟨id, found⟩, pending, met⟩ := memReadyNodes.mp ready
    obtain ⟨d, lists, undone⟩ := idle id n found pending
    exact undone (met d lists)

namespace Progress
variable {start g : DagGraph} {outcome : String → Bool}

theorem planOf (progress : Progress start outcome g) {id : String} {n : Node} (found : g.getNode id = some n) :
    ∃ m, start.getNode id = some m ∧ m.plan = n.plan := by
  have same := progress.plan id
  rw [found] at same
  exact Option.map_eq_some_iff.mp same.symm

theorem nodeOf (progress : Progress start outcome g) {id : String} {m : Node} (found : start.getNode id = some m) :
    ∃ n, g.getNode id = some n ∧ n.plan = m.plan := by
  have same := progress.plan id
  rw [found] at same
  exact Option.map_eq_some_iff.mp same

theorem mem (progress : Progress start outcome g) {id : String} : id ∈ g.nodes ↔ id ∈ start.nodes := by
  constructor
  · intro present
    obtain ⟨n, found⟩ := memIff.mp present
    obtain ⟨m, hm, _⟩ := progress.planOf found
    exact memOfGetNode hm
  · intro present
    obtain ⟨m, found⟩ := memIff.mp present
    obtain ⟨n, hn, _⟩ := progress.nodeOf found
    exact memOfGetNode hn

theorem keyed (progress : Progress start outcome g) (well : start.Keyed) : g.Keyed := by
  intro id n found
  obtain ⟨m, hm, same⟩ := progress.planOf found
  rw [← Node.planId same]
  exact well id m hm

theorem listsIff (progress : Progress start outcome g) {a b : String} : g.Lists a b ↔ start.Lists a b := by
  constructor
  · intro ⟨n, found, lists⟩
    obtain ⟨m, hm, same⟩ := progress.planOf found
    exact ⟨m, hm, Node.planDependsOn same ▸ lists⟩
  · intro ⟨m, found, lists⟩
    obtain ⟨n, hn, same⟩ := progress.nodeOf found
    exact ⟨n, hn, Node.planDependsOn same ▸ lists⟩

theorem claim (progress : Progress start outcome g) (keyed : g.Keyed) (e : DagExecutor) (order : NodeOrder) :
    Progress start outcome (e.claim order g).1 where
  plan id := by
    rw [← progress.plan id, DagExecutor.claimGet]
    split
    · rw [Option.map_map]
      rfl
    · rfl
  met id n' found moved d lists := by
    refine DagExecutor.claimDepDone keyed ?_
    rcases DagExecutor.claimAt keyed found with ⟨_, before⟩ | ⟨_, n, _, _, met, same⟩
    · exact progress.met id n' before moved d lists
    · subst same
      exact met d lists
  done id n' found status := by
    rcases DagExecutor.claimAt keyed found with ⟨_, before⟩ | ⟨_, n, _, _, _, same⟩
    · exact progress.done id n' before status
    · simp [same] at status
  failed id n' found status := by
    rcases DagExecutor.claimAt keyed found with ⟨_, before⟩ | ⟨_, n, _, _, _, same⟩
    · exact progress.failed id n' before status
    · simp [same] at status
  unblocked id n' found := by
    rcases DagExecutor.claimAt keyed found with ⟨_, before⟩ | ⟨_, n, _, _, _, same⟩
    · exact progress.unblocked id n' before
    · simp [same]

end Progress

def Decides (outcome : String → Bool) (task : TaskExecutor) : Prop :=
  ∀ node, (task node).nodeResult.success = outcome node.id

theorem Progress.writeBack {start g : DagGraph} {outcome : String → Bool} (progress : Progress start outcome g)
    {nodes : List Node} (held : DagExecutor.Held g nodes) {task : TaskExecutor} (decides : Decides outcome task) :
    Progress start outcome (g.writeBack (DagExecutor.awaitAll task nodes)) where
  plan id := by
    rw [← progress.plan id]
    by_cases listed : id ∈ nodes.map Node.id
    · obtain ⟨n, member, key⟩ := List.mem_map.mp listed
      subst key
      rw [DagExecutor.writeBackAt held task member, (held.here n member).1]
      rfl
    · rw [DagExecutor.writeBackElsewhere g listed task]
  met id n' found moved d lists := by
    refine DagExecutor.writeBackDepDone held task ?_
    rcases DagExecutor.writeBackCases held found with ⟨_, before⟩ | ⟨n, member, key, before, same⟩
    · exact progress.met id n' before moved d lists
    · have running := (held.here n member).2
      exact progress.met id n before (by simp [running]) d (by rw [same] at lists; exact lists)
  done id n' found status := by
    rcases DagExecutor.writeBackCases held found with ⟨_, before⟩ | ⟨n, _, key, _, same⟩
    · exact progress.done id n' before status
    · rw [← key, ← decides n]
      cases ok : (task n).nodeResult.success with
      | true => rfl
      | false => simp [same, Node.settled, ok] at status
  failed id n' found status := by
    rcases DagExecutor.writeBackCases held found with ⟨_, before⟩ | ⟨n, _, key, _, same⟩
    · exact progress.failed id n' before status
    · rw [← key, ← decides n]
      cases ok : (task n).nodeResult.success with
      | true => simp [same, Node.settled, ok] at status
      | false => rfl
  unblocked id n' found := by
    rcases DagExecutor.writeBackCases held found with ⟨_, before⟩ | ⟨n, _, _, _, same⟩
    · exact progress.unblocked id n' before
    · rcases Node.settledEnds (task n).nodeResult n with ended | ended <;> simp [same, ended]

namespace Progress
variable {start g : DagGraph} {outcome : String → Bool}

theorem doneSound (progress : Progress start outcome g) {id : String} (done : g.depDone id = true) :
    start.Good outcome id ∧ ∀ b, start.Lists id b → g.depDone b = true := by
  obtain ⟨n, found, status⟩ := depDoneIff.mp done
  refine ⟨⟨progress.mem.mp (memOfGetNode found), progress.done id n found status⟩, fun b lists => ?_⟩
  exact progress.met id n found (by simp [status]) b ((listsOf found).mp (progress.listsIff.mpr lists))

theorem doneComplete (progress : Progress start outcome g) (quiet : g.Quiet) (idle : g.Idle) {id : String}
    (good : start.Good outcome id) (met : ∀ b, start.Lists id b → g.depDone b = true) : g.depDone id = true := by
  obtain ⟨m, hm⟩ := memIff.mp good.1
  obtain ⟨n, found, _⟩ := progress.nodeOf hm
  cases status : n.status with
  | done => exact depDoneIff.mpr ⟨n, found, status⟩
  | pending =>
    obtain ⟨d, lists, undone⟩ := idle id n found status
    exact absurd (met d (progress.listsIff.mp ⟨n, found, lists⟩)) undone
  | failed =>
    have bad := progress.failed id n found status
    simp [good.2] at bad
  | inProgress => exact absurd status (quiet id n found)
  | blocked => exact absurd status (progress.unblocked id n found)

theorem doneIff (progress : Progress start outcome g) (quiet : g.Quiet) (idle : g.Idle) (acyclic : ¬ start.HasCycle)
    {id : String} : g.depDone id = true ↔ Succeeds start.Lists (start.Good outcome) id := by
  constructor
  · have sound : ∀ a, g.depDone a = true → _ := fun a done => progress.doneSound done
    exact settledSucceeds sound
  · have inside : ∀ a b, start.DependsOn a b → a ∈ start.nodes.keys ∧ b ∈ start.nodes.keys := by
      intro a b ⟨n, found, _, present⟩
      exact ⟨Finmap.mem_keys.mpr (memOfGetNode found), Finmap.mem_keys.mpr present⟩
    have founded := wellFoundedOfAcyclic inside (fun a cycle => acyclic ⟨a, cycle⟩)
    have sub : Subrelation (fun b a => start.Lists a b ∧ start.Good outcome b) (fun b a => start.DependsOn a b) := by
      intro b a ⟨⟨n, found, lists⟩, present, _⟩
      exact ⟨n, found, lists, present⟩
    exact succeedsSettled (sub.wf founded) (fun a good met => progress.doneComplete quiet idle good met)

theorem finalStatus (progress : Progress start outcome g) (quiet : g.Quiet) (idle : g.Idle)
    (acyclic : ¬ start.HasCycle) {id : String} {n : Node} (found : g.getNode id = some n) (s : NodeStatus) :
    n.status = s ↔ start.FinalStatus outcome id s := by
  have done : n.status = .done ↔ Succeeds start.Lists (start.Good outcome) id := by
    rw [← progress.doneIff quiet idle acyclic, depDoneIff]
    simp [found]
  have met : NeedsMet start.Lists (start.Good outcome) id ↔ ∀ d ∈ n.dependsOn, g.depDone d = true := by
    rw [needsMetIff]
    constructor
    · intro all d lists
      exact (progress.doneIff quiet idle acyclic).mpr (all d (progress.listsIff.mp ((listsOf found).mpr lists)))
    · intro all d lists
      exact (progress.doneIff quiet idle acyclic).mp (all d ((listsOf found).mp (progress.listsIff.mpr lists)))
  have failed : n.status = .failed ↔ outcome id = false ∧ NeedsMet start.Lists (start.Good outcome) id := by
    rw [met]
    constructor
    · intro status
      exact ⟨progress.failed id n found status, progress.met id n found (by simp [status])⟩
    · intro ⟨bad, all⟩
      cases status : n.status with
      | failed => rfl
      | pending =>
        obtain ⟨d, lists, undone⟩ := idle id n found status
        exact absurd (all d lists) undone
      | done => simp [progress.done id n found status] at bad
      | inProgress => exact absurd status (quiet id n found)
      | blocked => exact absurd status (progress.unblocked id n found)
  cases s with
  | done => exact done
  | failed => exact failed
  | inProgress => exact iff_of_false (quiet id n found) (fun h => h)
  | blocked => exact iff_of_false (progress.unblocked id n found) (fun h => h)
  | pending =>
    show _ ↔ ¬ _ ∧ ¬ _
    rw [← done, ← failed]
    have moving := quiet id n found
    have open_ := progress.unblocked id n found
    cases status : n.status <;> simp_all

end Progress

def pendingIds (g : DagGraph) : Finset String :=
  g.nodes.keys.filter (fun id => (g.getNode id).any (fun n => n.status == .pending))

theorem memPendingIds {g : DagGraph} {id : String} :
    id ∈ g.pendingIds ↔ ∃ n, g.getNode id = some n ∧ n.status = .pending := by
  simp only [pendingIds, Finset.mem_filter, Finmap.mem_keys, Option.any_eq_true, beq_iff_eq]
  constructor
  · intro ⟨_, n, found, status⟩
    exact ⟨n, found, status⟩
  · intro ⟨n, found, status⟩
    exact ⟨memOfGetNode found, n, found, status⟩

theorem pendingCount (g : DagGraph) : g.pendingIds.card ≤ g.nodeCount := Finset.card_le_card (Finset.filter_subset _ _)

def Complete (g : DagGraph) : Prop := g.nodeCount ≠ 0 ∧ ∀ id n, g.getNode id = some n → n.status = .done

def AnyFailed (g : DagGraph) : Prop := ∃ id n, g.getNode id = some n ∧ n.status = .failed

end DagGraph

namespace DagExecutor
open DagGraph

theorem executeTickEq (e : DagExecutor) (order : NodeOrder) (task : TaskExecutor) (g : DagGraph) :
    e.executeTick order task g =
      ((e.claim order g).1.writeBack (awaitAll task (e.claim order g).2), awaitAll task (e.claim order g).2) := by
  unfold executeTick
  rcases e.claim order g with ⟨claimed, nodes⟩
  cases nodes <;> rfl

theorem emptyTick {e : DagExecutor} {order : NodeOrder} {g : DagGraph} (none : e.claim order g = (g, []))
    (task : TaskExecutor) : e.executeTick order task g = (g, []) := by
  rw [executeTickEq, none]
  rfl

theorem claimNone {e : DagExecutor} {order : NodeOrder} {g : DagGraph} (none : e.readyIds order g = []) :
    e.claim order g = (g, []) := by
  rw [claim, none]
  rfl

theorem runStops {e : DagExecutor} {orders : Nat → NodeOrder} {tasks : Nat → TaskExecutor} {k : Nat} {g g' : DagGraph}
    {results : List ExecutionResult} {outcome : Except String Unit}
    (tick : e.executeTick (orders k) (tasks k) g = (g', results)) (left : verdict (orders k) g' results = some outcome)
    (fuel : Nat) : e.run orders tasks (fuel + 1) k g = some ⟨outcome, g', 1, results.map ExecutionResult.nodeId⟩ := by
  simp only [run, tick, left]

theorem runLoops {e : DagExecutor} {orders : Nat → NodeOrder} {tasks : Nat → TaskExecutor} {k : Nat} {g g' : DagGraph}
    {results : List ExecutionResult} (tick : e.executeTick (orders k) (tasks k) g = (g', results))
    (left : verdict (orders k) g' results = none) (fuel : Nat) :
    e.run orders tasks (fuel + 1) k g = (e.run orders tasks fuel (k + 1) g').map (fun r =>
      { r with ticks := r.ticks + 1, dispatched := results.map ExecutionResult.nodeId ++ r.dispatched }) := by
  simp only [run, tick, left]

structure TickSpec (e : DagExecutor) (order : NodeOrder) (start : DagGraph) (outcome : String → Bool) (g g' : DagGraph)
    (results : List ExecutionResult) : Prop where
  progress : Progress start outcome g'
  quiet : g'.Quiet
  dispatched : results.map ExecutionResult.nodeId = e.readyIds order g
  pending : ∀ id ∈ g'.pendingIds, id ∈ g.pendingIds ∧ id ∉ e.readyIds order g
  untouched : e.readyIds order g = [] → g' = g

theorem tickSpec {start g : DagGraph} {outcome : String → Bool} (progress : Progress start outcome g)
    (keyed : start.Keyed) (quiet : g.Quiet) (e : DagExecutor) (order : NodeOrder) {task : TaskExecutor}
    (decides : Decides outcome task) :
    TickSpec e order start outcome g (e.executeTick order task g).1 (e.executeTick order task g).2 := by
  have here := progress.keyed keyed
  have held := claimHeld here e order
  have ids := claimIds here e order
  rw [executeTickEq]
  refine ⟨(progress.claim here e order).writeBack held decides, ?_, by rw [awaitAllIds, ids], ?_, ?_⟩
  · intro id n found
    rcases writeBackCases held found with ⟨absent, before⟩ | ⟨m, _, _, _, same⟩
    · rcases claimAt here before with ⟨_, before⟩ | ⟨member, _⟩
      · exact quiet id n before
      · exact absurd (ids ▸ member) absent
    · rcases Node.settledEnds (task m).nodeResult m with ended | ended <;> simp [same, ended]
  · intro id pending
    obtain ⟨n, found, status⟩ := memPendingIds.mp pending
    rcases writeBackCases held found with ⟨absent, before⟩ | ⟨m, _, _, _, same⟩
    · rw [ids] at absent
      rcases claimAt here before with ⟨_, before⟩ | ⟨member, _⟩
      · exact ⟨memPendingIds.mpr ⟨n, before, status⟩, absent⟩
      · exact absurd member absent
    · rcases Node.settledEnds (task m).nodeResult m with ended | ended <;> simp [same, ended] at status
  · intro none
    have still := emptyTick (claimNone none) task
    rw [executeTickEq] at still
    exact congrArg Prod.fst still

theorem readyIdsPending {g : DagGraph} (keyed : g.Keyed) {e : DagExecutor} {order : NodeOrder} {id : String}
    (member : id ∈ e.readyIds order g) : id ∈ g.pendingIds := by
  obtain ⟨n, found, status, _⟩ := readyIdsReady keyed member
  exact memPendingIds.mpr ⟨n, found, status⟩

theorem TickSpec.shrinks {e : DagExecutor} {order : NodeOrder} {start g g' : DagGraph} {outcome : String → Bool}
    {results : List ExecutionResult} (spec : TickSpec e order start outcome g g' results) (keyed : g.Keyed) :
    g'.pendingIds.card + results.length ≤ g.pendingIds.card := by
  have ids : results.length = (e.readyIds order g).toFinset.card := by
    rw [List.toFinset_card_of_nodup (readyIdsNodup keyed e order), ← spec.dispatched, List.length_map]
  have apart : Disjoint g'.pendingIds (e.readyIds order g).toFinset := by
    rw [Finset.disjoint_left]
    intro id pending member
    exact (spec.pending id pending).2 (List.mem_toFinset.mp member)
  rw [ids, ← Finset.card_union_of_disjoint apart]
  refine Finset.card_le_card (fun id member => ?_)
  rcases Finset.mem_union.mp member with pending | ready
  · exact (spec.pending id pending).1
  · exact readyIdsPending keyed (List.mem_toFinset.mp ready)

structure VerdictSpec (g : DagGraph) (outcome : Except String Unit) : Prop where
  ok : outcome = .ok () ↔ g.Complete
  failed : outcome = .error failedMessage ↔ ¬ g.Complete ∧ g.AnyFailed
  stuck : outcome = .error stuckMessage ↔ ¬ g.Complete ∧ ¬ g.AnyFailed

theorem messagesDiffer : failedMessage ≠ stuckMessage := by decide

theorem verdictSome {order : NodeOrder} {g : DagGraph} {results : List ExecutionResult} {outcome : Except String Unit}
    (left : verdict order g results = some outcome) : g.Idle ∧ VerdictSpec g outcome := by
  unfold verdict at left
  split at left
  · rename_i complete
    have complete : g.Complete := isCompleteIff.mp complete
    cases left
    refine ⟨fun id n found pending => ?_, ⟨by simp [complete], by simp [complete], by simp [complete]⟩⟩
    simp [complete.2 id n found] at pending
  · rename_i complete
    have complete : ¬ g.Complete := fun h => complete (isCompleteIff.mpr h)
    split at left
    · rename_i last
      simp only [Bool.and_eq_true, List.isEmpty_iff] at last
      split at left
      · rename_i any
        have any : g.AnyFailed := hasFailedIff.mp any
        cases left
        exact ⟨idleIff.mp last.2, ⟨by simp [complete], by simp [complete, any], by simp [messagesDiffer, any]⟩⟩
      · rename_i any
        have any : ¬ g.AnyFailed := fun h => any (hasFailedIff.mpr h)
        cases left
        exact ⟨idleIff.mp last.2,
          ⟨by simp [complete], by simp [messagesDiffer.symm, any], by simp [complete, any]⟩⟩
    · contradiction

theorem verdictNone {order : NodeOrder} {g : DagGraph} (idle : g.readyNodes order = []) : verdict order g [] ≠ none := by
  unfold verdict
  split
  · simp
  · simp only [idle, List.isEmpty_nil, Bool.and_self, if_true]
    split <;> simp

structure RunSpec (start : DagGraph) (outcome : String → Bool) (g : DagGraph) (r : RunReport) : Prop where
  progress : Progress start outcome r.graph
  quiet : r.graph.Quiet
  idle : r.graph.Idle
  ticks : r.ticks ≤ g.pendingIds.card + 1
  once : r.dispatched.Nodup
  pending : ∀ id ∈ r.dispatched, id ∈ g.pendingIds
  verdict : VerdictSpec r.graph r.outcome

theorem runSpec {start : DagGraph} {outcome : String → Bool} (keyed : start.Keyed) {e : DagExecutor}
    (parallel : 1 ≤ e.maxParallel) (orders : Nat → NodeOrder) {tasks : Nat → TaskExecutor}
    (decides : ∀ k, Decides outcome (tasks k)) (fuel k : Nat) {g : DagGraph} (progress : Progress start outcome g)
    (quiet : g.Quiet) (enough : g.pendingIds.card + 1 ≤ fuel) :
    ∃ r, e.run orders tasks fuel k g = some r ∧ RunSpec start outcome g r := by
  induction fuel generalizing k g with
  | zero => omega
  | succ fuel ih =>
    have here := progress.keyed keyed
    have spec := tickSpec progress keyed quiet e (orders k) (decides k)
    have unique := readyIdsNodup here e (orders k)
    rcases tick : e.executeTick (orders k) (tasks k) g with ⟨g', results⟩
    simp only [tick] at spec
    have fewer := spec.shrinks here
    cases left : verdict (orders k) g' results with
    | some outcome' =>
      obtain ⟨idle, said⟩ := verdictSome left
      refine ⟨_, runStops tick left fuel, spec.progress, spec.quiet, idle, by simp, ?_, ?_, said⟩
      · exact spec.dispatched ▸ unique
      · exact fun id ready => readyIdsPending here (spec.dispatched ▸ ready)
    | none =>
      have moved : 0 < results.length := by
        refine List.length_pos_iff.mpr (fun none => ?_)
        subst results
        have still : e.readyIds (orders k) g = [] := spec.dispatched.symm
        rw [spec.untouched still] at left
        exact verdictNone (readyIdsNonempty parallel still) left
      obtain ⟨r, ran, later⟩ := ih (k + 1) spec.progress spec.quiet (by omega)
      rw [runLoops tick left, ran, spec.dispatched]
      refine ⟨_, rfl, later.progress, later.quiet, later.idle, ?_, ?_, ?_, later.verdict⟩
      · have := later.ticks
        show r.ticks + 1 ≤ _
        omega
      · refine List.nodup_append.mpr ⟨unique, later.once, fun a ready b again same => ?_⟩
        exact (spec.pending b (later.pending b again)).2 (same ▸ ready)
      · intro id member
        rcases List.mem_append.mp member with ready | again
        · exact readyIdsPending here ready
        · exact (spec.pending id (later.pending id again)).1

end DagExecutor

namespace DagGraph

def build (calls : List (NodeOrder × Node)) : DagGraph :=
  calls.foldl (fun g call => (g.addNode call.1 call.2).2) new

def Submits (calls : List (NodeOrder × Node)) : Prop := ∀ call ∈ calls, call.2.status = .pending

theorem addNodePending {g : DagGraph} (pending : g.AllPending) (order : NodeOrder) {node : Node}
    (status : node.status = .pending) : (g.addNode order node).2.AllPending := by
  rcases g.addNodeCases order node with ⟨_, result⟩ | ⟨_, _, result⟩ | ⟨_, _, result⟩
  · rw [result]; exact pending
  · rw [result]; exact pending
  · intro id n found
    rw [result, getNodeWithNode] at found
    split at found
    · cases Option.some.inj found
      exact status
    · exact pending id n found

theorem buildSpec (calls : List (NodeOrder × Node)) (submits : Submits calls) :
    (build calls).WellFormed ∧ (build calls).AllPending := by
  have each : ∀ g : DagGraph, g.WellFormed → g.AllPending →
      (calls.foldl (fun g call => (g.addNode call.1 call.2).2) g).WellFormed ∧
      (calls.foldl (fun g call => (g.addNode call.1 call.2).2) g).AllPending := by
    induction calls with
    | nil => exact fun g well pending => ⟨well, pending⟩
    | cons call rest ih =>
      intro g well pending
      exact ih (fun c member => submits c (List.mem_cons_of_mem _ member)) _ (well.addNode call.1 call.2)
        (addNodePending pending call.1 (submits call List.mem_cons_self))
  exact each new wellFormedNew (fun id n found => by simp at found)

end DagGraph

namespace DagExecutor
open DagGraph

theorem runComputesOutcomes {calls : List (NodeOrder × Node)} (submits : Submits calls) {e : DagExecutor}
    (parallel : 1 ≤ e.maxParallel) (orders : Nat → NodeOrder) {tasks : Nat → TaskExecutor} {outcome : String → Bool}
    (decides : ∀ k, Decides outcome (tasks k)) {fuel : Nat} (enough : (build calls).nodeCount + 1 ≤ fuel) :
    ∃ r, e.run orders tasks fuel 0 (build calls) = some r ∧
      r.ticks ≤ (build calls).nodeCount + 1 ∧ r.dispatched.Nodup ∧
      (∀ id, id ∈ r.graph.nodes ↔ id ∈ (build calls).nodes) ∧
      (∀ id n, r.graph.getNode id = some n → ∀ s, n.status = s ↔ (build calls).FinalStatus outcome id s) ∧
      VerdictSpec r.graph r.outcome := by
  obtain ⟨well, pending⟩ := buildSpec calls submits
  have bound := pendingCount (build calls)
  obtain ⟨r, ran, spec⟩ := runSpec well.keyed parallel orders decides fuel 0 (Progress.start pending outcome)
    pending.quiet (by omega)
  refine ⟨r, ran, ?_, spec.once, fun id => spec.progress.mem, fun id n found s => ?_, spec.verdict⟩
  · have := spec.ticks
    omega
  · exact spec.progress.finalStatus spec.quiet spec.idle well.acyclic found s

def diamond : List (NodeOrder × Node) :=
  [makeNode "a" [], makeNode "b" ["a"], makeNode "c" ["a", "a"], makeNode "d" ["b", "c"], makeNode "e" ["f"]].map
    (fun node => (.sorted, node))

def panicking (id : String) : TaskExecutor := fun node =>
  if node.id = id then .panicked "panic"
  else .returned { success := true, output := s!"Completed {node.id}", error := none, durationSecs := F64.zero }

theorem panickingDecides (id : String) : Decides (fun j => decide (j ≠ id)) (panicking id) := by
  intro node
  unfold panicking
  split
  · rename_i same
    simp [same, Joined.nodeResult]
  · rename_i other
    simp [other, Joined.nodeResult]

theorem runComputesOutcomesDiamond :
    ∃ r, (DagExecutor.mk 1).run (fun _ => .sorted) (fun _ => panicking "b") 9 0 (build diamond) = some r ∧
      r.ticks ≤ (build diamond).nodeCount + 1 ∧ r.dispatched.Nodup ∧
      (∀ id, id ∈ r.graph.nodes ↔ id ∈ (build diamond).nodes) ∧
      (∀ id n, r.graph.getNode id = some n → ∀ s, n.status = s ↔
        (build diamond).FinalStatus (fun j => decide (j ≠ "b")) id s) ∧
      VerdictSpec r.graph r.outcome :=
  runComputesOutcomes (by simp [Submits, diamond, makeNode]) (by decide) (fun _ => .sorted)
    (fun _ => panickingDecides "b") (by decide +kernel)

end DagExecutor
end ArosKernel.Dag
