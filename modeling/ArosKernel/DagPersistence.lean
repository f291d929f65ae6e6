import ArosKernel.DagOutcome

/-! Checkpoints of `dag/persistence.rs` and runs resumed from them. A save is the list
of its file operations; the encoding is a parameter, of which only the round trip
of the saved graphs is used. A run can be cut between any two lock sections. -/
namespace ArosKernel.Dag
open Relation Dependency DagGraph DagExecutor

abbrev Path := List String
abbrev Files := HashMap Path String

inductive FileOp where
  | createDirAll (path : Path)
  | write (path : Path) (contents : String)
  deriving DecidableEq, Repr

def FileOp.complete (files : Files) : FileOp → Files
  | .createDirAll _ => files
  | .write path contents => files.insert path contents

inductive PersistenceError where
  | io (message : String)
  | serde (message : String)
  | noCheckpoint (path : Path)
  deriving DecidableEq, Repr

-- `serde_json`: a map is written in its enumeration order.
structure Codec where
  encodeGraph : NodeOrder → DagGraph → String
  encodeNode : Node → String
  decodeGraph : String → Except String DagGraph

def Codec.Restores (codec : Codec) (order : NodeOrder) (g : DagGraph) : Prop :=
  codec.decodeGraph (codec.encodeGraph order g) = .ok g

structure DagPersistence where
  basePath : Path

def Node.reset (n : Node) : Node := { n with status := .pending }

def Node.recovered (n : Node) : Node := if n.status = .inProgress then n.reset else n

namespace DagPersistence

def dagJsonPath (p : DagPersistence) : Path := p.basePath ++ ["dag.json"]
def stateDir (p : DagPersistence) : Path := p.basePath ++ ["state"]
def nodePath (p : DagPersistence) (node : Node) : Path := p.stateDir ++ [s!"node-{node.id}.json"]

def saveNodeState (p : DagPersistence) (codec : Codec) (node : Node) : List FileOp :=
  [.createDirAll p.stateDir, .write (p.nodePath node) (codec.encodeNode node)]

def saveCheckpoint (p : DagPersistence) (codec : Codec) (order : NodeOrder) (g : DagGraph) : List FileOp :=
  [.createDirAll p.stateDir, .write p.dagJsonPath (codec.encodeGraph order g)] ++
    (order.values g.nodes).flatMap (p.saveNodeState codec)

def resetInProgress (order : NodeOrder) (g : DagGraph) : DagGraph :=
  (((order.entries g.nodes).filter (fun (_, n) => n.status == .inProgress)).map Prod.fst).foldl
    (fun g id => g.modify id Node.reset) g

def loadCheckpoint (p : DagPersistence) (codec : Codec) (order : NodeOrder) (files : Files) :
    Except PersistenceError DagGraph :=
  match files.lookup p.dagJsonPath with
  | none => .error (.noCheckpoint p.basePath)
  | some json =>
    match codec.decodeGraph json with
    | .error e => .error (.serde e)
    | .ok g => .ok (resetInProgress order g)

theorem resetAll (ids : List String) (g : DagGraph) (j : String) :
    (ids.foldl (fun g id => g.modify id Node.reset) g).getNode j =
      if j ∈ ids then (g.getNode j).map Node.reset else g.getNode j := by
  induction ids generalizing g with
  | nil => simp
  | cons id rest ih =>
    rw [List.foldl_cons, ih, getNodeModify]
    by_cases same : j = id
    · subst j
      cases g.getNode id <;> simp [Node.reset]
    · simp [same]

theorem resetGet (order : NodeOrder) (g : DagGraph) (j : String) :
    (resetInProgress order g).getNode j = (g.getNode j).map Node.recovered := by
  have listed : j ∈ ((order.entries g.nodes).filter (fun (_, n) => n.status == .inProgress)).map Prod.fst ↔
      ∃ n, g.getNode j = some n ∧ n.status = .inProgress := by
    simp only [List.mem_map, List.mem_filter, Prod.exists, HashMap.Order.memEntries, beq_iff_eq, getNode]
    constructor
    · rintro ⟨id, n, ⟨found, status⟩, same⟩
      exact ⟨n, same ▸ found, status⟩
    · rintro ⟨n, found, status⟩
      exact ⟨j, n, ⟨found, status⟩, rfl⟩
  unfold resetInProgress
  rw [resetAll]
  cases found : g.getNode j with
  | none => simp
  | some n =>
    rw [found] at listed
    by_cases running : n.status = .inProgress
    · rw [if_pos (listed.mpr ⟨n, rfl, running⟩)]
      simp [Node.recovered, running]
    · rw [if_neg]
      · simp [Node.recovered, running]
      · intro member
        obtain ⟨m, same, status⟩ := listed.mp member
        cases Option.some.inj same
        exact running status

theorem resetKept (order : NodeOrder) {g : DagGraph} {id : String} {n : Node} (found : g.getNode id = some n)
    (idle : n.status ≠ .inProgress) : (resetInProgress order g).getNode id = some n := by
  rw [resetGet, found, Option.map_some, Node.recovered, if_neg idle]

theorem resetCases {order : NodeOrder} {g : DagGraph} {id : String} {n' : Node}
    (found : (resetInProgress order g).getNode id = some n') :
    n'.status = .pending ∨ (n'.status ≠ .inProgress ∧ g.getNode id = some n') := by
  rw [resetGet] at found
  obtain ⟨n, before, same⟩ := Option.map_eq_some_iff.mp found
  subst n'
  unfold Node.recovered
  split
  · exact .inl rfl
  · rename_i still
    exact .inr ⟨still, before⟩

theorem writesElsewhere (p : DagPersistence) (codec : Codec) (nodes : List Node) (files : Files) :
    Finmap.lookup p.dagJsonPath ((nodes.flatMap (p.saveNodeState codec)).foldl FileOp.complete files) =
      Finmap.lookup p.dagJsonPath files := by
  induction nodes generalizing files with
  | nil => rfl
  | cons node rest ih =>
    have apart : p.dagJsonPath ≠ p.nodePath node := by
      simp [dagJsonPath, nodePath, stateDir]
    rw [List.flatMap_cons, List.foldl_append, ih]
    exact Finmap.lookup_insert_of_ne files apart

theorem loadSaved {codec : Codec} {order : NodeOrder} {g : DagGraph} (restores : codec.Restores order g)
    (p : DagPersistence) (order' : NodeOrder) (files : Files) :
    p.loadCheckpoint codec order' ((p.saveCheckpoint codec order g).foldl FileOp.complete files) =
      .ok (resetInProgress order' g) := by
  have written : Finmap.lookup p.dagJsonPath ((p.saveCheckpoint codec order g).foldl FileOp.complete files) =
      some (codec.encodeGraph order g) := by
    rw [saveCheckpoint, List.foldl_append, writesElsewhere]
    exact Finmap.lookup_insert files
  simp only [loadCheckpoint, written, show codec.decodeGraph (codec.encodeGraph order g) = .ok g from restores]

end DagPersistence

inductive Phase where
  | claiming
  | awaiting (nodes : List Node)
  | checking (results : List ExecutionResult)
  | returned (outcome : Except String Unit)

structure Session where
  phase : Phase
  graph : DagGraph
  dispatched : List String

def Session.begin (g : DagGraph) : Session := ⟨.claiming, g, []⟩

namespace DagExecutor

def lockSection (e : DagExecutor) (s : Session) (choice : NodeOrder × TaskExecutor) : Session :=
  match s.phase with
  | .claiming =>
    let (claimed, nodesToRun) := e.claim choice.1 s.graph
    if nodesToRun.isEmpty then { s with phase := .checking [], graph := claimed }
    else ⟨.awaiting nodesToRun, claimed, s.dispatched ++ nodesToRun.map Node.id⟩
  | .awaiting nodes =>
    let results := awaitAll choice.2 nodes
    { s with phase := .checking results, graph := s.graph.writeBack results }
  | .checking results =>
    match verdict choice.1 s.graph results with
    | some outcome => { s with phase := .returned outcome }
    | none => { s with phase := .claiming }
  | .returned _ => s

theorem runSections (e : DagExecutor) (orders : Nat → NodeOrder) (tasks : Nat → TaskExecutor) (fuel k : Nat)
    {g : DagGraph} {r : RunReport} (ran : e.run orders tasks fuel k g = some r) (earlier : List String) :
    ∃ choices : List (NodeOrder × TaskExecutor), choices.foldl e.lockSection ⟨.claiming, g, earlier⟩ =
      ⟨.returned r.outcome, r.graph, earlier ++ r.dispatched⟩ := by
  induction fuel generalizing k g r earlier with
  | zero => cases ran
  | succ fuel ih =>
    have tick : ∃ choices : List (NodeOrder × TaskExecutor), choices.foldl e.lockSection ⟨.claiming, g, earlier⟩ =
        ⟨.checking (e.executeTick (orders k) (tasks k) g).2, (e.executeTick (orders k) (tasks k) g).1,
          earlier ++ (e.executeTick (orders k) (tasks k) g).2.map ExecutionResult.nodeId⟩ := by
      cases nodes : (e.claim (orders k) g).2 with
      | nil => exact ⟨[(orders k, tasks k)], by simp [lockSection, executeTick, nodes]⟩
      | cons n rest =>
        exact ⟨[(orders k, tasks k), (orders k, tasks k)], by simp [lockSection, executeTick, nodes]⟩
    obtain ⟨choices, reached⟩ := tick
    rcases ended : e.executeTick (orders k) (tasks k) g with ⟨g', results⟩
    rw [ended] at reached
    cases left : verdict (orders k) g' results with
    | some outcome =>
      rw [runStops ended left, Option.some.injEq] at ran
      subst r
      exact ⟨choices ++ [(orders k, tasks k)], by simp [reached, lockSection, left]⟩
    | none =>
      rw [runLoops ended left, Option.map_eq_some_iff] at ran
      obtain ⟨r', ran, same⟩ := ran
      subst r
      obtain ⟨more, last⟩ := ih (k + 1) ran (earlier ++ results.map ExecutionResult.nodeId)
      refine ⟨choices ++ [(orders k, tasks k)] ++ more, ?_⟩
      simp only [List.foldl_append, reached, List.foldl_cons, List.foldl_nil, lockSection, left, last,
        List.append_assoc]

end DagExecutor

structure Leg where
  executor : DagExecutor
  schedule : List (NodeOrder × TaskExecutor)
  saveOrder : NodeOrder
  loadOrder : NodeOrder

structure Cut where
  dispatched : List String
  saved : DagGraph

def Leg.session (leg : Leg) (g : DagGraph) : Session :=
  leg.schedule.foldl leg.executor.lockSection (Session.begin g)

def crashRun (codec : Codec) (p : DagPersistence) :
    List Leg → Files → DagGraph → Except PersistenceError (List Cut × DagGraph)
  | [], _, g => .ok ([], g)
  | leg :: rest, files, g => do
    let s := leg.session g
    let files' := (p.saveCheckpoint codec leg.saveOrder s.graph).foldl FileOp.complete files
    let g' ← p.loadCheckpoint codec leg.loadOrder files'
    let (log, last) ← crashRun codec p rest files' g'
    .ok (⟨s.dispatched, s.graph⟩ :: log, last)

def saves : List Leg → DagGraph → List (NodeOrder × DagGraph)
  | [], _ => []
  | leg :: rest, g =>
    (leg.saveOrder, (leg.session g).graph) ::
      saves rest (DagPersistence.resetInProgress leg.loadOrder (leg.session g).graph)

namespace DagGraph

def Settled (g : DagGraph) (id : String) : Prop :=
  ∃ n, g.getNode id = some n ∧ (n.status = .done ∨ n.status = .failed)

theorem notSettledPending {g : DagGraph} {id : String} (pending : id ∈ g.pendingIds) : ¬ g.Settled id := by
  intro ⟨m, hm, settled⟩
  obtain ⟨n, found, status⟩ := memPendingIds.mp pending
  rw [found] at hm
  cases Option.some.inj hm
  simp [status] at settled

theorem Settled.claim {g : DagGraph} (keyed : g.Keyed) (e : DagExecutor) (order : NodeOrder) {id : String}
    (settled : g.Settled id) : (e.claim order g).1.Settled id := by
  obtain ⟨n, found, status⟩ := settled
  exact ⟨n, claimKept keyed found (by rcases status with status | status <;> simp [status]), status⟩

theorem Settled.writeBack {g : DagGraph} {nodes : List Node} (held : Held g nodes) (task : TaskExecutor) {id : String}
    (settled : g.Settled id) : (g.writeBack (awaitAll task nodes)).Settled id := by
  obtain ⟨n, found, status⟩ := settled
  exact ⟨n, writeBackKept held task found (by rcases status with status | status <;> simp [status]), status⟩

theorem Settled.reset {g : DagGraph} (order : NodeOrder) {id : String} (settled : g.Settled id) :
    (DagPersistence.resetInProgress order g).Settled id := by
  obtain ⟨n, found, status⟩ := settled
  exact ⟨n, DagPersistence.resetKept order found (by rcases status with status | status <;> simp [status]), status⟩

end DagGraph

theorem DagGraph.Progress.reset {start g : DagGraph} {outcome : String → Bool} (progress : Progress start outcome g)
    (order : NodeOrder) :
    Progress start outcome (DagPersistence.resetInProgress order g) ∧
      (DagPersistence.resetInProgress order g).Quiet := by
  refine ⟨⟨fun id => ?_, ?_, ?_, ?_, ?_⟩, ?_⟩
  · rw [DagPersistence.resetGet, ← progress.plan id, Option.map_map]
    refine congrArg (fun f => (g.getNode id).map f) (funext (fun n => ?_))
    simp only [Function.comp_apply, Node.recovered]
    split <;> rfl
  · intro id n found moved d lists
    rcases DagPersistence.resetCases found with pending | ⟨_, before⟩
    · exact absurd pending moved
    · obtain ⟨dep, here, done⟩ := depDoneIff.mp (progress.met id n before moved d lists)
      exact depDoneIff.mpr ⟨dep, DagPersistence.resetKept order here (by simp [done]), done⟩
  · intro id n found status
    rcases DagPersistence.resetCases found with pending | ⟨_, before⟩
    · simp [pending] at status
    · exact progress.done id n before status
  · intro id n found status
    rcases DagPersistence.resetCases found with pending | ⟨_, before⟩
    · simp [pending] at status
    · exact progress.failed id n before status
  · intro id n found
    rcases DagPersistence.resetCases found with pending | ⟨_, before⟩
    · simp [pending]
    · exact progress.unblocked id n before
  · intro id n found
    rcases DagPersistence.resetCases found with pending | ⟨still, _⟩
    · simp [pending]
    · exact still

structure Session.Sound (start : DagGraph) (outcome : String → Bool) (g₀ : DagGraph) (s : Session) : Prop where
  progress : Progress start outcome s.graph
  held : ∀ nodes, s.phase = .awaiting nodes → Held s.graph nodes
  settled : ∀ id, g₀.Settled id → s.graph.Settled id
  fresh : ∀ id ∈ s.dispatched, ¬ g₀.Settled id

theorem Session.Sound.begin {start g : DagGraph} {outcome : String → Bool} (progress : Progress start outcome g) :
    Session.Sound start outcome g (Session.begin g) where
  progress := progress
  held nodes phase := by cases phase
  settled _ settled := settled
  fresh id member := by cases member

theorem Session.Sound.lockSection {start g₀ : DagGraph} {outcome : String → Bool} (keyed : start.Keyed) {s : Session}
    (sound : s.Sound start outcome g₀) (e : DagExecutor) {choice : NodeOrder × TaskExecutor}
    (decides : Decides outcome choice.2) : (e.lockSection s choice).Sound start outcome g₀ := by
  obtain ⟨progress, held, settled, fresh⟩ := sound
  rcases s with ⟨phase, g, dispatched⟩
  simp only at progress held settled fresh
  have here := progress.keyed keyed
  cases phase with
  | claiming =>
    simp only [DagExecutor.lockSection]
    split
    · exact ⟨progress.claim here e choice.1, by simp,
        fun id old => (settled id old).claim here e choice.1, fresh⟩
    · refine ⟨progress.claim here e choice.1, fun nodes phase => ?_,
        fun id old => (settled id old).claim here e choice.1, fun id member => ?_⟩
      · cases phase
        exact claimHeld here e choice.1
      · rcases List.mem_append.mp member with old | new
        · exact fresh id old
        · rw [claimIds here] at new
          exact fun old => notSettledPending (readyIdsPending here new) (settled id old)
  | awaiting nodes =>
    have flying := held nodes rfl
    simp only [DagExecutor.lockSection]
    exact ⟨progress.writeBack flying decides, by simp,
      fun id old => (settled id old).writeBack flying choice.2, fresh⟩
  | checking results =>
    simp only [DagExecutor.lockSection]
    split
    · exact ⟨progress, by simp, settled, fresh⟩
    · exact ⟨progress, by simp, settled, fresh⟩
  | returned outcome =>
    simp only [DagExecutor.lockSection]
    exact ⟨progress, by simp, settled, fresh⟩

def Leg.Decides (outcome : String → Bool) (leg : Leg) : Prop := ∀ choice ∈ leg.schedule, DagGraph.Decides outcome choice.2

theorem Session.Sound.schedule {start g₀ : DagGraph} {outcome : String → Bool} (keyed : start.Keyed) (e : DagExecutor)
    (choices : List (NodeOrder × TaskExecutor)) (decides : ∀ choice ∈ choices, DagGraph.Decides outcome choice.2)
    {s : Session} (sound : s.Sound start outcome g₀) : (choices.foldl e.lockSection s).Sound start outcome g₀ := by
  induction choices generalizing s with
  | nil => exact sound
  | cons choice rest ih =>
    exact ih (fun c member => decides c (List.mem_cons_of_mem _ member))
      (sound.lockSection keyed e (decides choice List.mem_cons_self))

theorem Leg.sessionSound {start g : DagGraph} {outcome : String → Bool} (keyed : start.Keyed)
    (progress : Progress start outcome g) {leg : Leg} (decides : leg.Decides outcome) :
    (leg.session g).Sound start outcome g :=
  (Session.Sound.begin progress).schedule keyed leg.executor leg.schedule decides

def Cut.NoRepeat (earlier later : Cut) : Prop := ∀ id ∈ later.dispatched, ¬ earlier.saved.Settled id

structure CrashSpec (start : DagGraph) (outcome : String → Bool) (g : DagGraph) (log : List Cut) (last : DagGraph) :
    Prop where
  progress : Progress start outcome last
  quiet : g.Quiet → last.Quiet
  settled : ∀ id, g.Settled id → last.Settled id
  fresh : ∀ cut ∈ log, ∀ id ∈ cut.dispatched, ¬ g.Settled id
  saved : ∀ cut ∈ log, ∀ id, cut.saved.Settled id → last.Settled id
  once : log.Pairwise Cut.NoRepeat

theorem crashSpec {start : DagGraph} {outcome : String → Bool} (keyed : start.Keyed) {codec : Codec}
    (p : DagPersistence) (legs : List Leg) (decides : ∀ leg ∈ legs, leg.Decides outcome) (files : Files)
    {g : DagGraph} (progress : Progress start outcome g) (restores : ∀ save ∈ saves legs g, codec.Restores save.1 save.2) :
    ∃ log last, crashRun codec p legs files g = .ok (log, last) ∧ CrashSpec start outcome g log last := by
  induction legs generalizing files g with
  | nil =>
    exact ⟨[], g, rfl, progress, fun quiet => quiet, fun _ settled => settled, by simp, by simp, List.Pairwise.nil⟩
  | cons leg rest ih =>
    simp only [saves, List.mem_cons, forall_eq_or_imp] at restores
    have sound := leg.sessionSound keyed progress (decides leg List.mem_cons_self)
    have loaded := DagPersistence.loadSaved restores.1 p leg.loadOrder files
    obtain ⟨resumed, quiet⟩ := sound.progress.reset leg.loadOrder
    obtain ⟨log, last, ran, spec⟩ := ih (fun l member => decides l (List.mem_cons_of_mem _ member))
      ((p.saveCheckpoint codec leg.saveOrder (leg.session g).graph).foldl FileOp.complete files) resumed restores.2
    have kept : ∀ id, (leg.session g).graph.Settled id → last.Settled id :=
      fun id settled => spec.settled id (settled.reset leg.loadOrder)
    refine ⟨⟨(leg.session g).dispatched, (leg.session g).graph⟩ :: log, last, ?_, spec.progress,
      fun _ => spec.quiet quiet, fun id settled => kept id (sound.settled id settled), ?_, ?_, ?_⟩
    · simp only [crashRun, loaded, ran, bind, Except.bind]
    · intro cut member id dispatched settled
      rcases List.mem_cons.mp member with same | later
      · subst same
        exact sound.fresh id dispatched settled
      · exact spec.fresh cut later id dispatched ((sound.settled id settled).reset leg.loadOrder)
    · intro cut member id settled
      rcases List.mem_cons.mp member with same | later
      · subst same
        exact kept id settled
      · exact spec.saved cut later id settled
    · refine List.pairwise_cons.mpr ⟨fun cut later id dispatched settled => ?_, spec.once⟩
      exact spec.fresh cut later id dispatched (settled.reset leg.loadOrder)

namespace DagGraph

def statusOf (g : DagGraph) (id : String) : Option NodeStatus := (g.getNode id).map Node.status

theorem statusOfSome {g : DagGraph} {id : String} {s : NodeStatus} :
    g.statusOf id = some s ↔ ∃ n, g.getNode id = some n ∧ n.status = s := Option.map_eq_some_iff

theorem completeIff {g : DagGraph} :
    g.Complete ↔ (∃ id s, g.statusOf id = some s) ∧ ∀ id s, g.statusOf id = some s → s = .done := by
  have filled : g.nodeCount ≠ 0 ↔ ∃ id s, g.statusOf id = some s := by
    simp only [nodeCount, ← Finset.nonempty_iff_ne_empty, ne_eq, Finset.card_eq_zero, Finset.Nonempty,
      Finmap.mem_keys, memIff, statusOfSome]
    constructor
    · intro ⟨id, n, found⟩
      exact ⟨id, n.status, n, found, rfl⟩
    · intro ⟨id, _, n, found, _⟩
      exact ⟨id, n, found⟩
  unfold Complete
  rw [filled]
  refine and_congr_right (fun _ => ⟨fun all id s here => ?_, fun all id n found => ?_⟩)
  · obtain ⟨n, found, same⟩ := statusOfSome.mp here
    exact same ▸ all id n found
  · exact all id n.status (statusOfSome.mpr ⟨n, found, rfl⟩)

theorem anyFailedIff {g : DagGraph} : g.AnyFailed ↔ ∃ id, g.statusOf id = some .failed := by
  simp only [AnyFailed, statusOfSome]

end DagGraph

theorem DagExecutor.VerdictSpec.unique {g h : DagGraph} {first second : Except String Unit} (left : VerdictSpec g first)
    (right : VerdictSpec h second) (same : ∀ id, h.statusOf id = g.statusOf id) : second = first := by
  have complete : h.Complete ↔ g.Complete := by simp only [completeIff, same]
  have failed : h.AnyFailed ↔ g.AnyFailed := by simp only [anyFailedIff, same]
  by_cases done : g.Complete
  · rw [left.ok.mpr done, right.ok.mpr (complete.mpr done)]
  · have open_ : ¬ h.Complete := fun d => done (complete.mp d)
    by_cases any : g.AnyFailed
    · rw [left.failed.mpr ⟨done, any⟩, right.failed.mpr ⟨open_, failed.mpr any⟩]
    · rw [left.stuck.mpr ⟨done, any⟩, right.stuck.mpr ⟨open_, fun f => any (failed.mp f)⟩]

theorem DagGraph.Progress.statusUnique {start g h : DagGraph} {outcome : String → Bool} (acyclic : ¬ start.HasCycle)
    (left : Progress start outcome g) (quietLeft : g.Quiet) (idleLeft : g.Idle)
    (right : Progress start outcome h) (quietRight : h.Quiet) (idleRight : h.Idle) (id : String) :
    h.statusOf id = g.statusOf id := by
  refine Option.ext (fun s => ?_)
  rw [statusOfSome, statusOfSome]
  constructor
  · intro ⟨n, found, status⟩
    obtain ⟨m, hm, _⟩ := right.planOf found
    obtain ⟨n', found', _⟩ := left.nodeOf hm
    exact ⟨n', found', (left.finalStatus quietLeft idleLeft acyclic found' s).mpr
      ((right.finalStatus quietRight idleRight acyclic found s).mp status)⟩
  · intro ⟨n, found, status⟩
    obtain ⟨m, hm, _⟩ := left.planOf found
    obtain ⟨n', found', _⟩ := right.nodeOf hm
    exact ⟨n', found', (right.finalStatus quietRight idleRight acyclic found' s).mpr
      ((left.finalStatus quietLeft idleLeft acyclic found s).mp status)⟩

theorem crashResumeEquivalent {calls : List (NodeOrder × Node)} (submits : Submits calls) {outcome : String → Bool}
    {codec : Codec} (p : DagPersistence) {legs : List Leg} (decides : ∀ leg ∈ legs, leg.Decides outcome) (files : Files)
    (restores : ∀ save ∈ saves legs (build calls), codec.Restores save.1 save.2)
    {e e' : DagExecutor} (parallel : 1 ≤ e.maxParallel) (parallel' : 1 ≤ e'.maxParallel)
    (orders orders' : Nat → NodeOrder) {tasks tasks' : Nat → TaskExecutor} (outright : ∀ k, Decides outcome (tasks k))
    (resumed : ∀ k, Decides outcome (tasks' k)) {fuel : Nat} (enough : (build calls).nodeCount + 1 ≤ fuel) :
    ∃ log last r r', crashRun codec p legs files (build calls) = .ok (log, last) ∧
      e.run orders tasks fuel 0 (build calls) = some r ∧ e'.run orders' tasks' fuel 0 last = some r' ∧
      (∀ id, r'.graph.statusOf id = r.graph.statusOf id) ∧ r'.outcome = r.outcome ∧
      (log ++ [Cut.mk r'.dispatched r'.graph]).Pairwise Cut.NoRepeat := by
  obtain ⟨well, pending⟩ := buildSpec calls submits
  have initial := Progress.start pending outcome
  obtain ⟨log, last, crashed, spec⟩ := crashSpec well.keyed p legs decides files initial restores
  have count : last.nodeCount = (build calls).nodeCount := by
    refine congrArg Finset.card (Finset.ext (fun id => ?_))
    rw [Finmap.mem_keys, Finmap.mem_keys]
    exact spec.progress.mem
  have bound := pendingCount (build calls)
  have boundLast := pendingCount last
  obtain ⟨r, ran, full⟩ := runSpec well.keyed parallel orders outright fuel 0 initial pending.quiet (by omega)
  obtain ⟨r', ran', rest⟩ := runSpec well.keyed parallel' orders' resumed fuel 0 spec.progress
    (spec.quiet pending.quiet) (by omega)
  have same := Progress.statusUnique well.acyclic full.progress full.quiet full.idle rest.progress rest.quiet rest.idle
  refine ⟨log, last, r, r', crashed, ran, ran', same, full.verdict.unique rest.verdict same, ?_⟩
  refine List.pairwise_append.mpr ⟨spec.once, List.pairwise_singleton _ _, fun cut member final here id again => ?_⟩
  rw [List.mem_singleton] at here
  subst here
  exact fun settled => notSettledPending (rest.pending id again) (spec.saved cut member id settled)

def solo : List (NodeOrder × Node) := [(.sorted, makeNode "a" [])]

def soloLeg : Leg := ⟨⟨1⟩, [(.sorted, panicking "b")], .sorted, .sorted⟩

def soloLines : List String :=
  ["\"id\": \"a\",", "\"title\": \"Task a\",", "\"description\": \"\",", "\"depends_on\": [],",
    "\"status\": \"InProgress\",", "\"agent_level\": \"Agent\",", "\"output_files\": [],", "\"retry_count\": 0,",
    "\"result\": null"]

def soloJson : String :=
  "\n".intercalate (["\x7b", "  \"nodes\": \x7b", "    \"a\": \x7b"] ++ soloLines.map ("      " ++ ·) ++
    ["    \x7d", "  \x7d", "\x7d"])

def soloCodec : Codec where
  encodeGraph _ _ := soloJson
  encodeNode _ := "\n".intercalate (["\x7b"] ++ soloLines.map ("  " ++ ·) ++ ["\x7d"])
  decodeGraph text :=
    if text = soloJson then .ok (soloLeg.session (build solo)).graph
    else .error "expected value at line 1 column 1"

theorem soloDecides : soloLeg.Decides (fun j => decide (j ≠ "b")) := by
  intro choice member
  simp only [soloLeg, List.mem_singleton] at member
  subst member
  exact panickingDecides "b"

theorem crashResumeEquivalentSolo :
    ∃ log last r r', crashRun soloCodec ⟨["out"]⟩ [soloLeg] ∅ (build solo) = .ok (log, last) ∧
      (DagExecutor.mk 1).run (fun _ => .sorted) (fun _ => panicking "b") 5 0 (build solo) = some r ∧
      (DagExecutor.mk 2).run (fun _ => .sorted) (fun _ => panicking "b") 5 0 last = some r' ∧
      (∀ id, r'.graph.statusOf id = r.graph.statusOf id) ∧ r'.outcome = r.outcome ∧
      (log ++ [Cut.mk r'.dispatched r'.graph]).Pairwise Cut.NoRepeat :=
  crashResumeEquivalent (by simp [Submits, solo, makeNode]) ⟨["out"]⟩
    (List.forall_mem_singleton.mpr soloDecides) ∅
    (by simp [saves, Codec.Restores, soloCodec]) (by decide) (by decide) (fun _ => .sorted) (fun _ => .sorted)
    (fun _ => panickingDecides "b") (fun _ => panickingDecides "b") (by decide +kernel)

end ArosKernel.Dag
