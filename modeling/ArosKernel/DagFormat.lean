import ArosKernel.DagPersistence
import ArosKernel.JsonFormat

/-! The JSON of a checkpoint. The formats are the derived ones of `dag/graph.rs`; the
text of `serde_json` below them is a parameter. A stored duration that is not a finite
number is written as null, and null is not read back as one; the text of a finite one may
be read back as a neighbour of it. -/
namespace ArosKernel.Dag
open JsonFormat Format Fields DagGraph DagExecutor

def NodeStatus.variant : NodeStatus → String
  | .pending => "Pending"
  | .inProgress => "InProgress"
  | .done => "Done"
  | .failed => "Failed"
  | .blocked => "Blocked"

def AgentLevel.variant : AgentLevel → String
  | .session => "Session"
  | .agent => "Agent"
  | .subAgent => "SubAgent"

def NodeStatus.format : Format NodeStatus :=
  units NodeStatus.variant [.pending, .inProgress, .done, .failed, .blocked] (fun s => by cases s <;> decide)
    (fun a b => by cases a <;> cases b <;> decide)

def AgentLevel.format : Format AgentLevel :=
  units AgentLevel.variant [.session, .agent, .subAgent] (fun l => by cases l <;> decide)
    (fun a b => by cases a <;> cases b <;> decide)

def NodeResult.format : Format NodeResult :=
  record
    ((member "success" bool).both
      ((member "output" string).both ((optional "error" string).both (member "duration_secs" f64) ⟨rfl⟩) ⟨rfl⟩) ⟨rfl⟩)
    (fun r => (r.success, r.output, r.error, r.durationSecs)) (fun p => ⟨p.1, p.2.1, p.2.2.1, p.2.2.2⟩) (fun _ => rfl)
    (fun _ => rfl)

def Node.format : Format Node :=
  record
    ((member "id" string).both
      ((member "title" string).both
        ((member "description" string).both
          ((member "depends_on" (list string)).both
            ((member "status" NodeStatus.format).both
              ((member "agent_level" AgentLevel.format).both
                ((member "output_files" (list string)).both
                  ((member "retry_count" u32).both (optional "result" NodeResult.format) ⟨rfl⟩) ⟨rfl⟩) ⟨rfl⟩) ⟨rfl⟩)
              ⟨rfl⟩) ⟨rfl⟩) ⟨rfl⟩) ⟨rfl⟩)
    (fun n => (n.id, n.title, n.description, n.dependsOn, n.status, n.agentLevel, n.outputFiles, n.retryCount, n.result))
    (fun p => ⟨p.1, p.2.1, p.2.2.1, p.2.2.2.1, p.2.2.2.2.1, p.2.2.2.2.2.1, p.2.2.2.2.2.2.1, p.2.2.2.2.2.2.2.1,
      p.2.2.2.2.2.2.2.2⟩) (fun _ => rfl) (fun _ => rfl)

def DagGraph.format (order : NodeOrder) : Format DagGraph :=
  record (member "nodes" (entries order Node.format)) DagGraph.nodes DagGraph.mk (fun _ => rfl) (fun _ => rfl)

-- The text layer: what a number's text is read back as, and the message for a value that is
-- not the type asked for.
structure JsonText where
  write : Value → String
  read : String → Except String Value
  mismatch : Value → String
  reread : F64 → F64
  finite : ∀ x, (reread x).isFinite = x.isFinite

def Node.retimed (f : F64 → F64) (n : Node) : Node :=
  { n with result := n.result.map (fun r => { r with durationSecs := f r.durationSecs }) }

def DagGraph.retimed (f : F64 → F64) (g : DagGraph) : DagGraph :=
  ((HashMap.Order.sorted : NodeOrder).keys g.nodes).foldl (fun g id => g.modify id (Node.retimed f)) g

/- The document of the graph reads back as what was written, each duration as its own text
is read; `order'` is the order of the members as they stand in the text. -/
def JsonText.Rereads (text : JsonText) (order : NodeOrder) (g : DagGraph) : Prop :=
  ∃ order', text.read (text.write ((DagGraph.format order).encode g)) =
    .ok ((DagGraph.format order').encode (g.retimed text.reread))

def JsonText.graphOf (text : JsonText) (v : Value) : Except String DagGraph :=
  match (DagGraph.format .sorted).decode v with
  | some g => .ok g
  | none => .error (text.mismatch v)

def JsonText.decodeGraph (text : JsonText) (json : String) : Except String DagGraph := (text.read json).bind text.graphOf

def JsonText.codec (text : JsonText) : Codec where
  encodeGraph order g := text.write ((DagGraph.format order).encode g)
  encodeNode n := text.write (Node.format.encode n)
  decodeGraph := text.decodeGraph

def Node.Finite (n : Node) : Prop := ∀ r ∈ n.result, r.durationSecs.isFinite = true

def DagGraph.Finite (g : DagGraph) : Prop := ∀ id n, g.getNode id = some n → n.Finite

theorem modifyEach {ids : List String} (once : ids.Nodup) (f : Node → Node) (g : DagGraph) (j : String) :
    (ids.foldl (fun g id => g.modify id f) g).getNode j = if j ∈ ids then (g.getNode j).map f else g.getNode j := by
  induction ids generalizing g with
  | nil => simp
  | cons id rest ih =>
    obtain ⟨fresh, once⟩ := List.nodup_cons.mp once
    rw [List.foldl_cons, ih once, getNodeModify]
    by_cases same : j = id
    · subst j
      simp [fresh]
    · simp [same]

theorem retimedGet (f : F64 → F64) (g : DagGraph) (j : String) :
    (g.retimed f).getNode j = (g.getNode j).map (Node.retimed f) := by
  have listed : j ∈ (HashMap.Order.sorted : NodeOrder).keys g.nodes ↔ j ∈ g.nodes := HashMap.Order.complete _ _ _
  rw [DagGraph.retimed, modifyEach (HashMap.Order.nodup _ _)]
  split
  · rfl
  · rename_i absent
    rw [getNodeNone.mpr (fun present => absent (listed.mpr present))]
    rfl

theorem retimedFinite (text : JsonText) (g : DagGraph) : (g.retimed text.reread).Finite ↔ g.Finite := by
  have each (n : Node) : (n.retimed text.reread).Finite ↔ n.Finite := by
    cases result : n.result with
    | none => simp [Node.Finite, Node.retimed, result]
    | some r => simp [Node.Finite, Node.retimed, result, text.finite]
  constructor
  · intro finite id n found
    exact (each n).mp (finite id _ (by rw [retimedGet, found]; rfl))
  · intro finite id n' found
    rw [retimedGet] at found
    obtain ⟨n, before, same⟩ := Option.map_eq_some_iff.mp found
    exact same ▸ (each n).mpr (finite id n before)

theorem nodeKept (n : Node) : Node.format.Kept n ↔ n.Finite := by
  have status : NodeStatus.format.Kept n.status := trivial
  have level : AgentLevel.format.Kept n.agentLevel := trivial
  simp [Node.format, NodeResult.format, status, level, Node.Finite]

theorem graphKept (order : NodeOrder) (g : DagGraph) : (DagGraph.format order).Kept g ↔ g.Finite := by
  simp only [DagGraph.format, recordKept, memberKept, entriesKept, nodeKept]
  rfl

theorem resultExact : NodeResult.format.Exact := by
  have error := optionalExact "error" (exactOfKept (f := string) (fun _ => trivial)) (fun _ => rfl)
  refine recordExact (bothExact _ (memberExact _ (exactOfKept (fun _ => trivial))) ?_)
  exact bothExact _ (memberExact _ (exactOfKept (fun _ => trivial))) (bothExact _ error (memberExact _ f64Exact))

theorem stringsExact : (list string).Exact := exactOfKept (fun _ _ _ => trivial)

theorem nodeExact : Node.format.Exact := by
  have result := optionalExact "result" resultExact (fun _ => rfl)
  have text (name : String) : (member name string).Exact := memberExact name (exactOfKept (fun _ => trivial))
  have texts (name : String) : (member name (list string)).Exact := memberExact name stringsExact
  have status : (member "status" NodeStatus.format).Exact := memberExact _ (exactOfKept (fun _ => trivial))
  have level : (member "agent_level" AgentLevel.format).Exact := memberExact _ (exactOfKept (fun _ => trivial))
  have retries : (member "retry_count" u32).Exact := memberExact _ (exactOfKept (fun _ => trivial))
  exact recordExact (bothExact _ (text _) (bothExact _ (text _) (bothExact _ (text _) (bothExact _ (texts _)
    (bothExact _ status (bothExact _ level (bothExact _ (texts _) (bothExact _ retries result))))))))

theorem graphExact (order : NodeOrder) : (DagGraph.format order).Exact :=
  recordExact (memberExact _ (entriesExact order nodeExact))

namespace JsonText
variable {text : JsonText} {order : NodeOrder} {g : DagGraph}

theorem decodeWritten (rereads : text.Rereads order g) (finite : g.Finite) :
    text.codec.decodeGraph (text.codec.encodeGraph order g) = .ok (g.retimed text.reread) := by
  obtain ⟨order', read⟩ := rereads
  have back : (DagGraph.format .sorted).decode ((DagGraph.format order').encode (g.retimed text.reread)) =
      some (g.retimed text.reread) :=
    ((DagGraph.format order').keptIff _).mpr ((graphKept order' _).mpr ((retimedFinite text g).mpr finite))
  show (text.read (text.write _)).bind text.graphOf = _
  rw [read]
  show text.graphOf _ = _
  rw [graphOf, back]

theorem rejectsInfinite (rereads : text.Rereads order g) (lost : ¬ g.Finite) :
    ∃ e, text.codec.decodeGraph (text.codec.encodeGraph order g) = .error e := by
  obtain ⟨order', read⟩ := rereads
  have refused : (DagGraph.format .sorted).decode ((DagGraph.format order').encode (g.retimed text.reread)) = none :=
    (graphExact order').refused (fun kept => lost ((retimedFinite text g).mp ((graphKept order' _).mp kept)))
  refine ⟨text.mismatch ((DagGraph.format order').encode (g.retimed text.reread)), ?_⟩
  show (text.read (text.write _)).bind text.graphOf = _
  rw [read]
  show text.graphOf _ = _
  rw [graphOf, refused]

end JsonText

theorem checkpointWritten (p : DagPersistence) (codec : Codec) (order : NodeOrder) (g : DagGraph) (files : Files) :
    Finmap.lookup p.dagJsonPath ((p.saveCheckpoint codec order g).foldl FileOp.complete files) =
      some (codec.encodeGraph order g) := by
  rw [DagPersistence.saveCheckpoint, List.foldl_append, DagPersistence.writesElsewhere]
  exact Finmap.lookup_insert files

theorem loadReread {text : JsonText} {order : NodeOrder} {g : DagGraph} (rereads : text.Rereads order g)
    (finite : g.Finite) (p : DagPersistence) (order' : NodeOrder) (files : Files) :
    p.loadCheckpoint text.codec order' ((p.saveCheckpoint text.codec order g).foldl FileOp.complete files) =
      .ok (DagPersistence.resetInProgress order' (g.retimed text.reread)) := by
  simp only [DagPersistence.loadCheckpoint, checkpointWritten, JsonText.decodeWritten rereads finite]

theorem savedLoadsIffFinite {text : JsonText} {order : NodeOrder} {g : DagGraph} (rereads : text.Rereads order g)
    (p : DagPersistence) (order' : NodeOrder) (files : Files) :
    (∀ loaded, p.loadCheckpoint text.codec order' ((p.saveCheckpoint text.codec order g).foldl FileOp.complete files) =
      .ok loaded ↔ g.Finite ∧ loaded = DagPersistence.resetInProgress order' (g.retimed text.reread)) ∧
    (¬ g.Finite → ∃ e,
      p.loadCheckpoint text.codec order' ((p.saveCheckpoint text.codec order g).foldl FileOp.complete files) =
        .error (.serde e)) := by
  have fails (lost : ¬ g.Finite) : ∃ e,
      p.loadCheckpoint text.codec order' ((p.saveCheckpoint text.codec order g).foldl FileOp.complete files) =
        .error (.serde e) := by
    obtain ⟨e, refused⟩ := JsonText.rejectsInfinite rereads lost
    exact ⟨e, by simp only [DagPersistence.loadCheckpoint, checkpointWritten, refused]⟩
  refine ⟨fun loaded => ?_, fails⟩
  by_cases finite : g.Finite
  · rw [loadReread rereads finite, Except.ok.injEq]
    simp only [finite, true_and, eq_comm]
  · obtain ⟨e, failed⟩ := fails finite
    rw [failed]
    simp [finite]

def slow : NodeResult := { success := true, output := "built", error := none, durationSecs := ⟨0x3F893DF8432A8BE5⟩ }

def slowTask : TaskExecutor := fun _ => .returned slow

def slowLeg : Leg := ⟨⟨1⟩, [(.sorted, slowTask), (.sorted, slowTask)], .sorted, .sorted⟩

def slowGraph : DagGraph := (slowLeg.session (build solo)).graph

def slowLines : List String :=
  soloLines.take 4 ++ ["\"status\": \"Done\","] ++ (soloLines.drop 5).take 3 ++
    ["\"result\": \x7b", "  \"success\": true,", "  \"output\": \"built\",", "  \"error\": null,",
      "  \"duration_secs\": 0.012325229215383213", "\x7d"]

def slowJson : String :=
  "\n".intercalate (["\x7b", "  \"nodes\": \x7b", "    \"a\": \x7b"] ++ slowLines.map ("      " ++ ·) ++
    ["    \x7d", "  \x7d", "\x7d"])

def slowReread (x : F64) : F64 := if x = slow.durationSecs then ⟨0x3F893DF8432A8BE4⟩ else x

def slowText : JsonText where
  write _ := slowJson
  read json :=
    if json = slowJson then .ok ((DagGraph.format .sorted).encode (slowGraph.retimed slowReread))
    else .error "expected value at line 1 column 1"
  mismatch _ := "invalid type: null, expected f64"
  reread := slowReread
  finite x := by
    unfold slowReread
    split
    · rename_i same
      rw [same]
      decide
    · rfl

theorem slowRereads : slowText.Rereads .sorted slowGraph := by
  refine ⟨.sorted, ?_⟩
  simp only [slowText, if_true]

theorem savedLoadsIffFiniteSlow :
    (∀ loaded, (DagPersistence.mk ["out"]).loadCheckpoint slowText.codec .sorted
      (((DagPersistence.mk ["out"]).saveCheckpoint slowText.codec .sorted slowGraph).foldl FileOp.complete ∅) = .ok loaded ↔
        slowGraph.Finite ∧ loaded = DagPersistence.resetInProgress .sorted (slowGraph.retimed slowReread)) ∧
    (¬ slowGraph.Finite → ∃ e, (DagPersistence.mk ["out"]).loadCheckpoint slowText.codec .sorted
      (((DagPersistence.mk ["out"]).saveCheckpoint slowText.codec .sorted slowGraph).foldl FileOp.complete ∅) =
        .error (.serde e)) :=
  savedLoadsIffFinite slowRereads ⟨["out"]⟩ .sorted ∅

/-! A run that is cut and resumed through its checkpoints, against the same run kept in
memory, where each cut resets the nodes in progress and rereads the durations. -/

def resumed (f : F64 → F64) (leg : Leg) (g : DagGraph) : DagGraph :=
  DagPersistence.resetInProgress leg.loadOrder ((leg.session g).graph.retimed f)

def idealRun (f : F64 → F64) : List Leg → DagGraph → List Cut × DagGraph
  | [], g => ([], g)
  | leg :: rest, g =>
    let (log, last) := idealRun f rest (resumed f leg g)
    (⟨(leg.session g).dispatched, (leg.session g).graph⟩ :: log, last)

def rereadSaves (f : F64 → F64) : List Leg → DagGraph → List (NodeOrder × DagGraph)
  | [], _ => []
  | leg :: rest, g => (leg.saveOrder, (leg.session g).graph) :: rereadSaves f rest (resumed f leg g)

def TaskExecutor.Finite (task : TaskExecutor) : Prop :=
  ∀ node r, task node = .returned r → r.durationSecs.isFinite = true

def Leg.Finite (leg : Leg) : Prop := ∀ choice ∈ leg.schedule, TaskExecutor.Finite choice.2

theorem taskFinite {task : TaskExecutor} (finite : TaskExecutor.Finite task) (node : Node) :
    (task node).nodeResult.durationSecs.isFinite = true := by
  cases joined : task node with
  | returned r => exact finite node r joined
  | panicked message => exact show F64.zero.isFinite = true by decide

namespace DagGraph.Finite
variable {g : DagGraph}

theorem modify (finite : g.Finite) {id : String} {f : Node → Node} (each : ∀ n : Node, n.Finite → (f n).Finite) :
    (g.modify id f).Finite := by
  intro j n found
  rw [getNodeModify] at found
  split at found
  · obtain ⟨m, before, same⟩ := Option.map_eq_some_iff.mp found
    exact same ▸ each m (finite j m before)
  · exact finite j n found

theorem claim (finite : g.Finite) (e : DagExecutor) (order : NodeOrder) : (e.claim order g).1.Finite := by
  intro j n found
  rw [claimGet] at found
  split at found
  · obtain ⟨m, before, same⟩ := Option.map_eq_some_iff.mp found
    subst same
    exact finite j m before
  · exact finite j n found

theorem writeBack (finite : g.Finite) {results : List ExecutionResult}
    (each : ∀ er ∈ results, er.result.durationSecs.isFinite = true) : (g.writeBack results).Finite := by
  induction results generalizing g with
  | nil => exact finite
  | cons er rest ih =>
    refine ih (finite.modify (fun n _ r member => ?_)) (fun other member => each other (List.mem_cons_of_mem _ member))
    cases Option.some.inj member
    exact each er List.mem_cons_self

theorem reset (finite : g.Finite) (order : NodeOrder) : (DagPersistence.resetInProgress order g).Finite := by
  intro j n found
  rw [DagPersistence.resetGet] at found
  obtain ⟨m, before, same⟩ := Option.map_eq_some_iff.mp found
  have kept := finite j m before
  subst same
  unfold Node.recovered
  split
  · exact kept
  · exact kept

end DagGraph.Finite

theorem lockSectionFinite (e : DagExecutor) {s : Session} (finite : s.graph.Finite) {choice : NodeOrder × TaskExecutor}
    (task : TaskExecutor.Finite choice.2) : (e.lockSection s choice).graph.Finite := by
  rcases s with ⟨phase, g, dispatched⟩
  cases phase with
  | claiming =>
    have claimed : (e.claim choice.1 g).1.Finite := DagGraph.Finite.claim finite e choice.1
    simp only [DagExecutor.lockSection]
    split
    · exact claimed
    · exact claimed
  | awaiting nodes =>
    refine DagGraph.Finite.writeBack finite (fun er member => ?_)
    obtain ⟨node, _, same⟩ := List.mem_map.mp member
    subst same
    exact taskFinite task node
  | checking results =>
    simp only [DagExecutor.lockSection]
    split
    · exact finite
    · exact finite
  | returned outcome => exact finite

theorem sessionFinite {leg : Leg} (tasks : leg.Finite) {g : DagGraph} (finite : g.Finite) :
    (leg.session g).graph.Finite := by
  have each : ∀ (schedule : List (NodeOrder × TaskExecutor)) (s : Session), s.graph.Finite →
      (∀ choice ∈ schedule, TaskExecutor.Finite choice.2) →
      (schedule.foldl leg.executor.lockSection s).graph.Finite := by
    intro schedule
    induction schedule with
    | nil => exact fun s here _ => here
    | cons choice rest ih =>
      intro s here all
      exact ih _ (lockSectionFinite leg.executor here (all choice List.mem_cons_self))
        (fun c member => all c (List.mem_cons_of_mem _ member))
  exact each leg.schedule (Session.begin g) finite tasks

theorem soloFinite : (build solo).Finite := by
  intro id n found
  rw [show build solo = DagGraph.new.withNode (makeNode "a" []) by decide +kernel, getNodeWithNode] at found
  split at found
  · cases Option.some.inj found
    exact fun r member => by cases member
  · simp at found

end ArosKernel.Dag
