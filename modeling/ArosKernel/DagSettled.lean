import ArosKernel.DagOutcome
import ArosKernel.DagShared

/-! Where a shared graph comes to rest, and what its statistics say on the way. The
copies in the air are exactly the nodes in progress, so nothing in the air and
nothing ready leaves each node the status its plan and the outcomes give it. -/
namespace ArosKernel.Dag
open Transition DagGraph DagExecutor

structure DagStats where
  total : Nat
  pending : Nat
  inProgress : Nat
  done : Nat
  failed : Nat
  deriving DecidableEq, Repr

namespace DagStats

def zero : DagStats := ⟨0, 0, 0, 0, 0⟩

-- The body of the loop of `stats`.
def tally (stats : DagStats) (node : Node) : DagStats :=
  let counted := { stats with total := stats.total + 1 }
  match node.status with
  | .pending | .blocked => { counted with pending := counted.pending + 1 }
  | .inProgress => { counted with inProgress := counted.inProgress + 1 }
  | .done => { counted with done := counted.done + 1 }
  | .failed => { counted with failed := counted.failed + 1 }

end DagStats

def RuntimeDag.stats (order : NodeOrder) (g : DagGraph) : DagStats :=
  (order.values g.nodes).foldl DagStats.tally DagStats.zero

def SharedStep.Decided (outcome : String → Bool) : SharedStep → Prop
  | .writeBack _ task => Decides outcome task
  | _ => True

def SharedStep.Executing (e : Nat) (task : TaskExecutor) : SharedStep → Prop
  | .claim f _ => f = e
  | .writeBack _ ran => ran = task
  | _ => False

namespace DagStats

theorem tallyAll (nodes : List Node) (stats : DagStats) : nodes.foldl tally stats =
    ⟨stats.total + nodes.length,
      stats.pending + nodes.countP (fun n => n.status == .pending || n.status == .blocked),
      stats.inProgress + nodes.countP (fun n => n.status == .inProgress),
      stats.done + nodes.countP (fun n => n.status == .done),
      stats.failed + nodes.countP (fun n => n.status == .failed)⟩ := by
  induction nodes generalizing stats with
  | nil => rfl
  | cons n rest ih =>
    rw [List.foldl_cons, ih]
    cases status : n.status <;> simp [tally, status] <;> omega

end DagStats

namespace Shared
variable {executors : Nat → DagExecutor} {s t : Shared} {i : SharedStep}

/- What a step can have done to a node it leaves in the graph: nothing, an edit of a
pending node, a claim, or the landing of its own task. -/
inductive Moved (s t : Shared) (i : SharedStep) (id : String) (n : Node) : Prop where
  | same (before : s.graph.getNode id = some n) (air : n ∈ s.inFlight → n ∈ t.inFlight)
  | edited (pending : n.status = .pending)
  | claimed (running : n.status = .inProgress) (air : n ∈ t.inFlight) (listed : id ∈ t.dispatched)
  | landed (j : Nat) (task : TaskExecutor) (was : i = .writeBack j task) (m : Node) (key : m.id = id)
      (before : s.graph.getNode id = some m) (running : m.status = .inProgress)
      (after : n = m.settled (task m).nodeResult)

theorem Moved.widen {id : String} {n : Node} (moved : Moved s t i id n) {u : Shared} (air : t.inFlight ⊆ u.inFlight)
    (listed : t.dispatched ⊆ u.dispatched) : Moved s u i id n := by
  cases moved with
  | same before still => exact .same before (fun here => air (still here))
  | edited pending => exact .edited pending
  | claimed running here known => exact .claimed running (air here) (listed known)
  | landed j task was m key before running after => exact .landed j task was m key before running after

theorem editMoved {g : DagGraph} (same : SettledSame s.graph g) {id : String} {n : Node} (found : g.getNode id = some n) :
    Moved s { s with graph := g } i id n := by
  by_cases pending : n.status = .pending
  · exact .edited pending
  · exact .same ((same id n pending).mp found) (fun air => air)

theorem claimMoved (keyed : s.graph.Keyed) (e : Nat) (order : NodeOrder) {id : String} {n : Node}
    (found : ((executors e).claim order s.graph).1.getNode id = some n) :
    Moved s ⟨((executors e).claim order s.graph).1, s.flights ++ [⟨e, ((executors e).claim order s.graph).2⟩],
      s.dispatched ++ ((executors e).claim order s.graph).2.map Node.id⟩ i id n := by
  rcases claimAt keyed found with ⟨_, before⟩ | ⟨member, m, before, _, _, same⟩
  · refine .same before (fun air => ?_)
    simp only [inFlight, List.flatMap_append, List.mem_append]
    exact .inl air
  · rw [← claimIds keyed] at member
    obtain ⟨c, here, key⟩ := List.mem_map.mp member
    obtain ⟨_, running, there⟩ := claimMem keyed here
    rw [key, found] at there
    cases Option.some.inj there
    refine .claimed running ?_ ?_
    · simp only [inFlight, List.flatMap_append, List.mem_append, List.flatMap_cons, List.flatMap_nil, List.append_nil]
      exact .inr here
    · exact List.mem_append_right _ member

theorem landMoved (safe : Safe executors s) {j : Nat} {f : Flight} (at_ : s.flights[j]? = some f) (task : TaskExecutor)
    {id : String} {n : Node} (found : (s.graph.writeBack (awaitAll task f.nodes)).getNode id = some n) :
    Moved s ⟨s.graph.writeBack (awaitAll task f.nodes), s.flights.eraseIdx j, s.dispatched⟩ (.writeBack j task) id n := by
  have landing := safe.heldFlight (List.mem_of_getElem? at_)
  rcases writeBackCases landing found with ⟨absent, before⟩ | ⟨m, inside, key, before, after⟩
  · refine .same before (fun air => ?_)
    rcases List.mem_append.mp ((inFlightSplit at_).mem_iff.mpr air) with here | rest
    · have key := safe.well.keyed id n before
      exact absurd (List.mem_map.mpr ⟨n, here, key⟩) absent
    · exact rest
  · exact .landed j task rfl m key before (landing.here m inside).2 after

theorem stepMoved (safe : Safe executors s) (next : step executors s i = some t) {id : String} {n : Node}
    (found : t.graph.getNode id = some n) : Moved s t i id n := by
  cases i with
  | claim e order =>
    have moved := @claimMoved executors s (.claim e order) safe.well.keyed e order id n
    simp only [step] at next
    split at next
    · rename_i none
      cases next
      rw [List.isEmpty_iff] at none
      have moved := moved found
      rw [none] at moved
      exact moved.widen (by simp [inFlight]) (by simp)
    · cases next
      exact moved found
  | writeBack j task =>
    simp only [step, Option.bind_eq_bind, Option.bind_eq_some_iff] at next
    obtain ⟨f, at_, last⟩ := next
    cases last
    exact landMoved safe at_ task found
  | addNode order node =>
    simp only [step] at next
    split at next
    · rename_i pending
      cases next
      exact editMoved (addNodeSettledSame order s.graph pending) found
    · contradiction
  | removeNode order id =>
    cases next
    exact editMoved (removeNodeSettledSame order s.graph id) found
  | updateDependencies order id deps =>
    cases next
    exact editMoved (updateDependenciesSettledSame order s.graph id deps) found

theorem dispatchedGrows (next : step executors s i = some t) : s.dispatched ⊆ t.dispatched := by
  cases i with
  | claim e order =>
    simp only [step] at next
    split at next
    · cases next
      exact List.Subset.refl _
    · cases next
      exact List.subset_append_left _ _
  | writeBack j task =>
    simp only [step, Option.bind_eq_bind, Option.bind_eq_some_iff] at next
    obtain ⟨f, _, last⟩ := next
    cases last
    exact List.Subset.refl _
  | addNode order node =>
    simp only [step] at next
    split at next
    · cases next
      exact List.Subset.refl _
    · contradiction
  | removeNode order id =>
    cases next
    exact List.Subset.refl _
  | updateDependencies order id deps =>
    cases next
    exact List.Subset.refl _

/- The other half of `Safe`: what is in progress is in the air, and what left the
pending status was dispatched. -/
structure Tracked (executors : Nat → DagExecutor) (s : Shared) : Prop where
  safe : Safe executors s
  air : ∀ id n, s.graph.getNode id = some n → n.status = .inProgress → n ∈ s.inFlight
  listed : ∀ id n, s.graph.getNode id = some n → n.status ≠ .pending → id ∈ s.dispatched
  unblocked : ∀ id n, s.graph.getNode id = some n → n.status ≠ .blocked

theorem stepTracked (s : Shared) (i : SharedStep) (t : Shared) (tracked : Tracked executors s)
    (next : step executors s i = some t) : Tracked executors t where
  safe := stepSafe s i t tracked.safe next
  air id n found running := by
    cases stepMoved tracked.safe next found with
    | same before air => exact air (tracked.air id n before running)
    | edited pending => simp [pending] at running
    | claimed _ air _ => exact air
    | landed j task was m key before was' after =>
      rcases Node.settledEnds (task m).nodeResult m with ended | ended <;> simp [after, ended] at running
  listed id n found moved := by
    cases stepMoved tracked.safe next found with
    | same before _ => exact dispatchedGrows next (tracked.listed id n before moved)
    | edited pending => exact absurd pending moved
    | claimed _ _ listed => exact listed
    | landed j task was m key before running after =>
      exact dispatchedGrows next (tracked.listed id m before (by simp [running]))
  unblocked id n found := by
    cases stepMoved tracked.safe next found with
    | same before _ => exact tracked.unblocked id n before
    | edited pending => simp [pending]
    | claimed running _ _ => simp [running]
    | landed j task was m key before running after =>
      rcases Node.settledEnds (task m).nodeResult m with ended | ended <;> simp [after, ended]

theorem initialTracked : Tracked executors initial where
  safe := initialSafe
  air id n found := by simp [initial] at found
  listed id n found := by simp [initial] at found
  unblocked id n found := by simp [initial] at found

theorem reachableTracked (reached : Reachable (step executors) initial s) : Tracked executors s :=
  reachableInvariant stepTracked initialTracked reached

structure Witnessed (outcome : String → Bool) (g : DagGraph) : Prop where
  done : ∀ id n, g.getNode id = some n → n.status = .done → outcome id = true
  failed : ∀ id n, g.getNode id = some n → n.status = .failed → outcome id = false

theorem stepWitnessed {outcome : String → Bool} (safe : Safe executors s) (witnessed : Witnessed outcome s.graph)
    (decided : i.Decided outcome) (next : step executors s i = some t) : Witnessed outcome t.graph where
  done id n found ended := by
    cases stepMoved safe next found with
    | same before _ => exact witnessed.done id n before ended
    | edited pending => simp [pending] at ended
    | claimed running _ _ => simp [running] at ended
    | landed j task was m key before running after =>
      subst was
      rw [← key, ← decided m]
      cases ok : (task m).nodeResult.success with
      | true => rfl
      | false => simp [after, Node.settled, ok] at ended
  failed id n found ended := by
    cases stepMoved safe next found with
    | same before _ => exact witnessed.failed id n before ended
    | edited pending => simp [pending] at ended
    | claimed running _ _ => simp [running] at ended
    | landed j task was m key before running after =>
      subst was
      rw [← key, ← decided m]
      cases ok : (task m).nodeResult.success with
      | true => simp [after, Node.settled, ok] at ended
      | false => rfl

theorem runWitnessed {outcome : String → Bool} {inputs : List SharedStep} (safe : Safe executors s)
    (witnessed : Witnessed outcome s.graph) (decided : ∀ i ∈ inputs, i.Decided outcome)
    (ran : run (step executors) s inputs = some t) : Witnessed outcome t.graph := by
  induction inputs generalizing s with
  | nil =>
    cases ran
    exact witnessed
  | cons i rest ih =>
    obtain ⟨u, next, ran⟩ := runCons.mp ran
    have decidedHere := decided i List.mem_cons_self
    exact ih (stepSafe s i u safe next) (stepWitnessed safe witnessed decidedHere next)
      (fun j member => decided j (List.mem_cons_of_mem _ member)) ran

theorem ownProgress {outcome : String → Bool} (tracked : Tracked executors s) (witnessed : Witnessed outcome s.graph) :
    Progress s.graph outcome s.graph where
  plan _ := rfl
  met := tracked.safe.met
  done := witnessed.done
  failed := witnessed.failed
  unblocked := tracked.unblocked

theorem initialWitnessed (outcome : String → Bool) : Witnessed outcome initial.graph where
  done id n found := by simp [initial] at found
  failed id n found := by simp [initial] at found

def rested : Shared :=
  ⟨(DagGraph.new.withNode (makeNode "b" ["a"])).withNode
    ((makeNode "a" []).claimed.settled (panicking "a" (makeNode "a" [])).nodeResult), [], ["a"]⟩

theorem landPending (safe : Safe executors s) {j : Nat} {task : TaskExecutor}
    (next : step executors s (.writeBack j task) = some t) : t.graph.pendingIds ⊆ s.graph.pendingIds := by
  intro id member
  obtain ⟨n, found, pending⟩ := memPendingIds.mp member
  simp only [step, Option.bind_eq_bind, Option.bind_eq_some_iff] at next
  obtain ⟨f, at_, last⟩ := next
  cases last
  rcases writeBackCases (safe.heldFlight (List.mem_of_getElem? at_)) found with ⟨_, before⟩ | ⟨m, _, _, _, after⟩
  · exact memPendingIds.mpr ⟨n, before, pending⟩
  · rcases Node.settledEnds (task m).nodeResult m with ended | ended <;> simp [after, ended] at pending

theorem drain (task : TaskExecutor) (e k : Nat) (safe : Safe executors s) (many : s.flights.length = k) :
    ∃ inputs t, (∀ i ∈ inputs, SharedStep.Executing e task i) ∧ inputs.length = k ∧
      run (step executors) s inputs = some t ∧ t.flights = [] ∧ t.graph.pendingIds ⊆ s.graph.pendingIds := by
  induction k generalizing s with
  | zero => exact ⟨[], s, by simp, rfl, rfl, List.length_eq_zero_iff.mp many, Finset.Subset.refl _⟩
  | succ k ih =>
    cases flights : s.flights with
    | nil => simp [flights] at many
    | cons f rest =>
      obtain ⟨u, next⟩ : ∃ u, step executors s (.writeBack 0 task) = some u := by simp [step, flights]
      have fewer : u.flights.length = k := by
        simp only [step, flights, List.getElem?_cons_zero, Option.bind_eq_bind, Option.bind_some, Option.some.injEq,
          List.eraseIdx_cons_zero] at next
        subst next
        simpa [flights] using many
      obtain ⟨inputs, t, only, length, ran, landed, inside⟩ := ih (stepSafe s _ u safe next) fewer
      refine ⟨.writeBack 0 task :: inputs, t, ?_, by simp [length], runCons.mpr ⟨u, next, ran⟩, landed,
        inside.trans (landPending safe next)⟩
      intro i member
      rcases List.mem_cons.mp member with same | later
      · subst same
        rfl
      · exact only i later

theorem claimPending (safe : Safe executors s) {e : Nat} (parallel : 1 ≤ (executors e).maxParallel)
    {order : NodeOrder} (some_ : s.graph.readyNodes order ≠ []) (quiet : s.flights = []) :
    ∃ t, step executors s (.claim e order) = some t ∧ t.flights.length = 1 ∧
      t.graph.pendingIds ⊂ s.graph.pendingIds := by
  have keyed := safe.well.keyed
  have ids := claimIds keyed (executors e) order
  obtain ⟨id, ready⟩ : ∃ id, id ∈ (executors e).readyIds order s.graph := by
    refine List.exists_mem_of_ne_nil _ (fun none => some_ (readyIdsNonempty parallel none))
  have moving : ((executors e).claim order s.graph).2.isEmpty = false := by
    rw [List.isEmpty_eq_false_iff]
    intro none
    rw [none] at ids
    exact List.not_mem_nil (ids ▸ ready)
  refine ⟨⟨((executors e).claim order s.graph).1, s.flights ++ [⟨e, ((executors e).claim order s.graph).2⟩],
    s.dispatched ++ ((executors e).claim order s.graph).2.map Node.id⟩, by simp [step, moving], by simp [quiet], ?_⟩
  rw [Finset.ssubset_iff_of_subset]
  · refine ⟨id, readyIdsPending keyed ready, fun still => ?_⟩
    obtain ⟨n, found, pending⟩ := memPendingIds.mp still
    rcases claimAt keyed found with ⟨absent, _⟩ | ⟨_, m, _, _, _, same⟩
    · exact absent ready
    · simp [same] at pending
  · intro j member
    obtain ⟨n, found, pending⟩ := memPendingIds.mp member
    rcases claimAt keyed found with ⟨_, before⟩ | ⟨_, m, _, _, _, same⟩
    · exact memPendingIds.mpr ⟨n, before, pending⟩
    · simp [same] at pending

theorem settle (e : Nat) (parallel : 1 ≤ (executors e).maxParallel) (order : NodeOrder) (task : TaskExecutor) (k : Nat)
    (safe : Safe executors s) (landed : s.flights = []) (few : s.graph.pendingIds.card ≤ k) :
    ∃ inputs t, (∀ i ∈ inputs, SharedStep.Executing e task i) ∧ inputs.length ≤ 2 * k ∧
      run (step executors) s inputs = some t ∧ t.flights = [] ∧ t.graph.readyNodes order = [] := by
  induction k generalizing s with
  | zero =>
    refine ⟨[], s, by simp, by simp, rfl, landed, ?_⟩
    rw [idleIff]
    intro id n found pending
    have inside := memPendingIds.mpr ⟨n, found, pending⟩
    rw [Finset.card_eq_zero.mp (Nat.le_zero.mp few)] at inside
    exact absurd inside (Finset.notMem_empty id)
  | succ k ih =>
    by_cases none : s.graph.readyNodes order = []
    · exact ⟨[], s, by simp, by simp, rfl, landed, none⟩
    obtain ⟨u, claimed, one, fewer⟩ := claimPending safe parallel none landed
    have there := stepSafe s _ u safe claimed
    obtain ⟨landing, v, onlyLanding, once, landedRun, empty, inside⟩ := drain task e 1 there one
    have afterwards : Safe executors v :=
      reachableInvariant stepSafe there ⟨landing, landedRun⟩
    have less := Finset.card_lt_card (Finset.ssubset_of_subset_of_ssubset inside fewer)
    obtain ⟨rest, t, only, length, ran, last⟩ := ih afterwards empty (by omega)
    refine ⟨.claim e order :: (landing ++ rest), t, ?_, ?_, ?_, last⟩
    · intro i member
      rcases List.mem_cons.mp member with same | later
      · subst same
        rfl
      · rcases List.mem_append.mp later with first | second
        · exact onlyLanding i first
        · exact only i second
    · simp only [List.length_cons, List.length_append, once]
      omega
    · refine runCons.mpr ⟨u, claimed, ?_⟩
      rw [runConcat, landedRun]
      exact ran

theorem restAlwaysReachable (reached : Reachable (step executors) initial s) {e : Nat}
    (parallel : 1 ≤ (executors e).maxParallel) (order : NodeOrder) (task : TaskExecutor) :
    ∃ inputs t, (∀ i ∈ inputs, SharedStep.Executing e task i) ∧
      inputs.length ≤ s.flights.length + 2 * s.graph.pendingIds.card ∧
      run (step executors) s inputs = some t ∧ t.flights = [] ∧ t.graph.readyNodes order = [] := by
  have safe := reachableSafe reached
  obtain ⟨first, u, onlyFirst, many, drained, landed, inside⟩ := drain task e _ safe rfl
  have there : Safe executors u := reachableInvariant stepSafe safe ⟨first, drained⟩
  obtain ⟨second, t, onlySecond, length, ran, last⟩ :=
    settle e parallel order task _ there landed (Finset.card_le_card inside)
  refine ⟨first ++ second, t, ?_, by simp only [List.length_append, many]; omega, ?_, last⟩
  · intro i member
    rcases List.mem_append.mp member with one | two
    · exact onlyFirst i one
    · exact onlySecond i two
  · rw [runConcat, drained]
    exact ran

theorem restAlwaysReachableAirborne :
    ∃ inputs t, (∀ i ∈ inputs, SharedStep.Executing 0 (panicking "a") i) ∧
      inputs.length ≤ airborne.flights.length + 2 * airborne.graph.pendingIds.card ∧
      run (step (fun _ => ⟨2⟩)) airborne inputs = some t ∧ t.flights = [] ∧ t.graph.readyNodes .sorted = [] :=
  @restAlwaysReachable (fun _ => ⟨2⟩) airborne ⟨[.addNode .sorted (makeNode "a" []), .claim 0 .sorted,
    .addNode .sorted (makeNode "b" ["a"])], by decide +kernel⟩ 0 (by decide) .sorted (panicking "a")

end Shared

namespace DagGraph

theorem valuesNodup {g : DagGraph} (keyed : g.Keyed) (order : NodeOrder) : (order.values g.nodes).Nodup := by
  refine List.Nodup.of_map Node.id ?_
  rw [valuesIds keyed]
  exact order.nodup g.nodes

theorem valuesLength {g : DagGraph} (keyed : g.Keyed) (order : NodeOrder) :
    (order.values g.nodes).length = g.nodeCount := by
  have ids := congrArg List.length (@valuesIds order g keyed)
  rwa [List.length_map, order.keysLength] at ids

theorem countValues {g : DagGraph} (keyed : g.Keyed) (order : NodeOrder) (p : Node → Bool) {listed : List Node}
    (distinct : listed.Nodup) (same : ∀ n, n ∈ listed ↔ (∃ id, g.getNode id = some n) ∧ p n = true) :
    (order.values g.nodes).countP p = listed.length := by
  rw [List.countP_eq_length_filter]
  refine List.Perm.length_eq ((List.perm_ext_iff_of_nodup ((valuesNodup keyed order).filter p) distinct).mpr ?_)
  intro n
  rw [same, List.mem_filter, HashMap.Order.memValues]
  rfl

theorem countValuesMono {g h : DagGraph} (keyed : g.Keyed) (first second : NodeOrder) {p : Node → Bool}
    (kept : ∀ id n, g.getNode id = some n → p n = true → h.getNode id = some n) :
    (first.values g.nodes).countP p ≤ (second.values h.nodes).countP p := by
  rw [List.countP_eq_length_filter, List.countP_eq_length_filter]
  refine (((valuesNodup keyed first).filter p).subperm (fun n member => ?_)).length_le
  obtain ⟨listed, chosen⟩ := List.mem_filter.mp member
  obtain ⟨id, found⟩ := (HashMap.Order.memValues first g.nodes n).mp listed
  exact List.mem_filter.mpr ⟨(HashMap.Order.memValues second h.nodes n).mpr ⟨id, kept id n found chosen⟩, chosen⟩

end DagGraph

namespace Shared
variable {executors : Nat → DagExecutor} {s t : Shared} {i : SharedStep}

def Ended (n : Node) : Prop := n.status = .done ∨ n.status = .failed

theorem stepEnded (safe : Safe executors s) (next : step executors s i = some t) {id : String} {n : Node}
    (found : s.graph.getNode id = some n) (ended : Ended n) : t.graph.getNode id = some n := by
  have moved : n.status ≠ .pending := by rcases ended with status | status <;> simp [status]
  cases i with
  | claim e order =>
    simp only [step] at next
    split at next
    · cases next
      exact claimKept safe.well.keyed found moved
    · cases next
      exact claimKept safe.well.keyed found moved
  | writeBack j task =>
    simp only [step, Option.bind_eq_bind, Option.bind_eq_some_iff] at next
    obtain ⟨f, at_, last⟩ := next
    cases last
    refine writeBackKept (safe.heldFlight (List.mem_of_getElem? at_)) task found ?_
    rcases ended with status | status <;> simp [status]
  | addNode order node =>
    simp only [step] at next
    split at next
    · rename_i pending
      cases next
      exact (addNodeSettledSame order s.graph pending id n moved).mpr found
    · contradiction
  | removeNode order j =>
    cases next
    exact (removeNodeSettledSame order s.graph j id n moved).mpr found
  | updateDependencies order j deps =>
    cases next
    exact (updateDependenciesSettledSame order s.graph j deps id n moved).mpr found

theorem runEnded {inputs : List SharedStep} (safe : Safe executors s) (ran : run (step executors) s inputs = some t)
    {id : String} {n : Node} (found : s.graph.getNode id = some n) (ended : Ended n) : t.graph.getNode id = some n := by
  induction inputs generalizing s with
  | nil =>
    cases ran
    exact found
  | cons i rest ih =>
    obtain ⟨u, next, ran⟩ := runCons.mp ran
    exact ih (stepSafe s i u safe next) ran (stepEnded safe next found ended)

theorem airCount (tracked : Tracked executors s) (order : NodeOrder) :
    (order.values s.graph.nodes).countP (fun n => n.status == .inProgress) = s.inFlight.length := by
  refine countValues tracked.safe.well.keyed order _ tracked.safe.held.distinct.of_map (fun n => ?_)
  rw [beq_iff_eq]
  constructor
  · intro air
    obtain ⟨found, running⟩ := tracked.safe.held.here n air
    exact ⟨⟨n.id, found⟩, running⟩
  · intro ⟨⟨id, found⟩, running⟩
    exact tracked.air id n found running

theorem dispatchedCount (tracked : Tracked executors s) (order : NodeOrder) :
    (order.values s.graph.nodes).countP (fun n => n.status != .pending) = s.dispatched.length := by
  have keyed := tracked.safe.well.keyed
  rw [List.countP_eq_length_filter, ← List.length_map (f := Node.id)]
  refine List.Perm.length_eq ((List.perm_ext_iff_of_nodup ?_ tracked.safe.once).mpr (fun id => ?_))
  · refine (List.filter_sublist.map Node.id).nodup ?_
    rw [valuesIds keyed]
    exact order.nodup s.graph.nodes
  simp only [List.mem_map, List.mem_filter, HashMap.Order.memValues, bne_iff_ne]
  constructor
  · rintro ⟨n, ⟨⟨key, found⟩, moved⟩, same⟩
    have named := keyed key n found
    rw [← same, named]
    exact tracked.listed key n found moved
  · intro listed
    obtain ⟨n, found, moved⟩ := tracked.safe.dispatched id listed
    exact ⟨n, ⟨⟨id, found⟩, moved⟩, keyed id n found⟩

theorem countSplit (nodes : List Node) (unblocked : ∀ n ∈ nodes, n.status ≠ .blocked) :
    nodes.countP (fun n => n.status == .pending || n.status == .blocked) +
      nodes.countP (fun n => n.status != .pending) = nodes.length ∧
    nodes.countP (fun n => n.status == .inProgress) + nodes.countP (fun n => n.status == .done) +
      nodes.countP (fun n => n.status == .failed) = nodes.countP (fun n => n.status != .pending) := by
  induction nodes with
  | nil => exact ⟨rfl, rfl⟩
  | cons n rest ih =>
    obtain ⟨all, moved⟩ := ih (fun m member => unblocked m (List.mem_cons_of_mem _ member))
    have here := unblocked n List.mem_cons_self
    cases status : n.status with
    | blocked => exact absurd status here
    | pending => simp [status]; omega
    | inProgress => simp [status]; omega
    | done => simp [status]; omega
    | failed => simp [status]; omega

end Shared
end ArosKernel.Dag
