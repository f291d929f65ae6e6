import ArosKernel.DagPersistence
import ArosKernel.Utf8

/-! Saves that stop half way. A write of a file is its truncation and then its bytes,
one at a time; a process that dies and a step that fails leave the same prefix of them. -/
namespace ArosKernel.Dag
open DagGraph Utf8

abbrev Disk := HashMap Path (List UInt8)

inductive DiskStep where
  | createDirAll (path : Path)
  | truncate (path : Path)
  | append (path : Path) (byte : UInt8)
  deriving DecidableEq, Repr

def FileOp.steps : FileOp → List DiskStep
  | .createDirAll path => [.createDirAll path]
  | .write path contents => .truncate path :: (bytes contents).map (DiskStep.append path)

def DiskStep.apply (disk : Disk) : DiskStep → Disk
  | .createDirAll _ => disk
  | .truncate path => disk.insert path []
  | .append path byte => disk.update path (fun contents => contents ++ [byte])

def DiskStep.path : DiskStep → Path
  | .createDirAll path | .truncate path | .append path _ => path

theorem appendAll (path : Path) (added : List UInt8) (disk : Disk) :
    ((added.map (DiskStep.append path)).foldl DiskStep.apply disk).lookup path =
      (disk.lookup path).map (fun contents => contents ++ added) := by
  induction added generalizing disk with
  | nil => simp
  | cons byte rest ih =>
    rw [List.map_cons, List.foldl_cons, ih, DiskStep.apply, HashMap.lookupUpdateSelf, Option.map_map]
    exact congrArg (fun f => (disk.lookup path).map f) (funext (fun contents => List.append_assoc contents [byte] rest))

theorem stepElsewhere {path : Path} (disk : Disk) {step : DiskStep} (other : path ≠ step.path) :
    Finmap.lookup path (step.apply disk) = Finmap.lookup path disk := by
  cases step with
  | createDirAll _ => rfl
  | truncate _ => exact Finmap.lookup_insert_of_ne disk other
  | append _ byte => exact HashMap.lookupUpdateOther disk other _

theorem stepsElsewhere {path : Path} {steps : List DiskStep} (other : ∀ step ∈ steps, path ≠ step.path) (disk : Disk) :
    Finmap.lookup path (steps.foldl DiskStep.apply disk) = Finmap.lookup path disk := by
  induction steps generalizing disk with
  | nil => rfl
  | cons step rest ih =>
    rw [List.foldl_cons, ih (fun s member => other s (List.mem_cons_of_mem _ member))]
    exact stepElsewhere disk (other step List.mem_cons_self)

def Mirrors (disk : Disk) (files : Files) : Prop := ∀ path, disk.lookup path = (files.lookup path).map bytes

theorem Mirrors.op {disk : Disk} {files : Files} (mirrors : Mirrors disk files) (op : FileOp) :
    Mirrors (op.steps.foldl DiskStep.apply disk) (op.complete files) := by
  intro path
  cases op with
  | createDirAll _ => exact mirrors path
  | write target contents =>
    simp only [FileOp.steps, List.foldl_cons, FileOp.complete, HashMap.lookupInsert]
    by_cases here : path = target
    · subst path
      rw [appendAll, if_pos rfl, DiskStep.apply, Finmap.lookup_insert]
      rfl
    · rw [if_neg here, stepsElsewhere, DiskStep.apply, Finmap.lookup_insert_of_ne _ here, mirrors path]
      intro step member
      obtain ⟨byte, _, same⟩ := List.mem_map.mp member
      exact same ▸ here

theorem Mirrors.ops {disk : Disk} {files : Files} (mirrors : Mirrors disk files) (ops : List FileOp) :
    Mirrors ((ops.flatMap FileOp.steps).foldl DiskStep.apply disk) (ops.foldl FileOp.complete files) := by
  induction ops generalizing disk files with
  | nil => exact mirrors
  | cons op rest ih =>
    rw [List.flatMap_cons, List.foldl_append, List.foldl_cons]
    exact ih (mirrors.op op)

namespace DagPersistence

def saveSteps (p : DagPersistence) (codec : Codec) (order : NodeOrder) (g : DagGraph) : List DiskStep :=
  (p.saveCheckpoint codec order g).flatMap FileOp.steps

def crashed (p : DagPersistence) (codec : Codec) (order : NodeOrder) (g : DagGraph) (disk : Disk) (n : Nat) : Disk :=
  ((p.saveSteps codec order g).take n).foldl DiskStep.apply disk

def loadDisk (p : DagPersistence) (codec : Codec) (order : NodeOrder) (disk : Disk) : Except PersistenceError DagGraph :=
  match disk.lookup p.dagJsonPath with
  | none => .error (.noCheckpoint p.basePath)
  | some contents =>
    match readText contents with
    | none => .error (.io "stream did not contain valid UTF-8")
    | some json =>
      match codec.decodeGraph json with
      | .error e => .error (.serde e)
      | .ok g => .ok (resetInProgress order g)

theorem loadMirrors {disk : Disk} {files : Files} (mirrors : Mirrors disk files) (p : DagPersistence) (codec : Codec)
    (order : NodeOrder) : p.loadDisk codec order disk = p.loadCheckpoint codec order files := by
  unfold loadDisk loadCheckpoint
  rw [mirrors]
  cases files.lookup p.dagJsonPath with
  | none => rfl
  | some json =>
    cases decoded : codec.decodeGraph json with
    | error e => simp only [Option.map_some, readTextIff.mpr rfl, decoded]
    | ok g => simp only [Option.map_some, readTextIff.mpr rfl, decoded]

theorem savedHolds (p : DagPersistence) (codec : Codec) (order : NodeOrder) (g : DagGraph) {disk : Disk} {files : Files}
    (mirrors : Mirrors disk files) :
    Finmap.lookup p.dagJsonPath ((p.saveSteps codec order g).foldl DiskStep.apply disk) =
      some (bytes (codec.encodeGraph order g)) := by
  rw [saveSteps, mirrors.ops (p.saveCheckpoint codec order g) p.dagJsonPath, saveCheckpoint, List.foldl_append,
    writesElsewhere]
  exact congrArg (Option.map bytes) (Finmap.lookup_insert files)

theorem saveStepsSplit (p : DagPersistence) (codec : Codec) (order : NodeOrder) (g : DagGraph) :
    ∃ rest, p.saveSteps codec order g = .createDirAll p.stateDir :: .truncate p.dagJsonPath ::
      ((bytes (codec.encodeGraph order g)).map (DiskStep.append p.dagJsonPath) ++ rest) ∧
      ∀ step ∈ rest, p.dagJsonPath ≠ step.path := by
  refine ⟨((order.values g.nodes).flatMap (p.saveNodeState codec)).flatMap FileOp.steps, ?_, ?_⟩
  · simp [saveSteps, saveCheckpoint, FileOp.steps]
  · intro step member
    obtain ⟨op, listed, at_⟩ := List.mem_flatMap.mp member
    obtain ⟨node, _, saves⟩ := List.mem_flatMap.mp listed
    simp only [saveNodeState, List.mem_cons, List.not_mem_nil, or_false] at saves
    rcases saves with same | same
    · subst same
      rw [List.mem_singleton.mp at_]
      simp [DiskStep.path, dagJsonPath, stateDir]
    · subst same
      have apart : p.dagJsonPath ≠ p.nodePath node := by simp [dagJsonPath, nodePath, stateDir]
      rcases List.mem_cons.mp at_ with first | later
      · rw [first]
        exact apart
      · obtain ⟨byte, _, same⟩ := List.mem_map.mp later
        exact same ▸ apart

theorem crashedDocument (p : DagPersistence) (codec : Codec) (order : NodeOrder) (g : DagGraph) (disk : Disk) (n : Nat) :
    Finmap.lookup p.dagJsonPath (p.crashed codec order g disk n) =
      if n < 2 then Finmap.lookup p.dagJsonPath disk
      else some ((bytes (codec.encodeGraph order g)).take (n - 2)) := by
  obtain ⟨rest, split, elsewhere⟩ := p.saveStepsSplit codec order g
  unfold crashed
  rw [split]
  rcases n with _ | _ | k
  · rfl
  · rfl
  · rw [if_neg (by omega), List.take_succ_cons, List.take_succ_cons, List.take_append, List.foldl_cons, List.foldl_cons,
      List.foldl_append, stepsElsewhere (fun step member => elsewhere step (List.mem_of_mem_take member)), ← List.map_take,
      appendAll]
    have emptied : Finmap.lookup p.dagJsonPath (DiskStep.apply (DiskStep.apply disk (.createDirAll p.stateDir))
        (.truncate p.dagJsonPath)) = some [] := Finmap.lookup_insert disk
    rw [emptied]
    rfl

def Recovers (p : DagPersistence) (codec : Codec) (gOld gNew : DagGraph) (disk : Disk) : Prop :=
  ∀ order, p.loadDisk codec order disk = .ok (resetInProgress order gOld) ∨
    p.loadDisk codec order disk = .ok (resetInProgress order gNew)

end DagPersistence

def Codec.RejectsCut (codec : Codec) (order : NodeOrder) (g : DagGraph) : Prop :=
  ∀ k < (bytes (codec.encodeGraph order g)).length, ∀ text,
    readText ((bytes (codec.encodeGraph order g)).take k) = some text → ∃ e, codec.decodeGraph text = .error e

namespace DagPersistence

theorem loadWhole {p : DagPersistence} {codec : Codec} {order : NodeOrder} {g : DagGraph} (restores : codec.Restores order g)
    {disk : Disk} (held : Finmap.lookup p.dagJsonPath disk = some (bytes (codec.encodeGraph order g))) (order' : NodeOrder) :
    p.loadDisk codec order' disk = .ok (resetInProgress order' g) := by
  have decoded : codec.decodeGraph (codec.encodeGraph order g) = .ok g := restores
  simp only [loadDisk, held, readTextIff.mpr rfl, decoded]

theorem loadCut {p : DagPersistence} {codec : Codec} {order : NodeOrder} {g : DagGraph} (rejects : codec.RejectsCut order g)
    {disk : Disk} {k : Nat} (cut : k < (bytes (codec.encodeGraph order g)).length)
    (held : Finmap.lookup p.dagJsonPath disk = some ((bytes (codec.encodeGraph order g)).take k)) (order' : NodeOrder) :
    ∃ e, p.loadDisk codec order' disk = .error e := by
  simp only [loadDisk, held]
  cases read : readText ((bytes (codec.encodeGraph order g)).take k) with
  | none => exact ⟨_, rfl⟩
  | some text =>
    obtain ⟨e, refused⟩ := rejects k cut text read
    exact ⟨.serde e, by simp only [refused]⟩

theorem crashRecoversIff {codec : Codec} {p : DagPersistence} {order order' : NodeOrder} {gOld gNew : DagGraph}
    (restoresOld : codec.Restores order gOld) (restoresNew : codec.Restores order' gNew)
    (rejects : codec.RejectsCut order' gNew) {disk : Disk}
    (saved : Finmap.lookup p.dagJsonPath disk = some (bytes (codec.encodeGraph order gOld))) (n : Nat) :
    Recovers p codec gOld gNew (p.crashed codec order' gNew disk n) ↔
      n < 2 ∨ 2 + (bytes (codec.encodeGraph order' gNew)).length ≤ n := by
  have document := p.crashedDocument codec order' gNew disk n
  constructor
  · intro recovers
    refine Decidable.byContradiction (fun inside => ?_)
    rw [if_neg (by omega)] at document
    obtain ⟨e, failed⟩ := loadCut rejects (by omega) document .sorted
    rcases recovers .sorted with old | new
    · rw [failed] at old
      contradiction
    · rw [failed] at new
      contradiction
  · intro outside order''
    rcases outside with early | late
    · rw [if_pos early, saved] at document
      exact .inl (loadWhole restoresOld document order'')
    · rw [if_neg (by omega), List.take_of_length_le (by omega)] at document
      exact .inr (loadWhole restoresNew document order'')

def soloSaved : DagGraph := (soloLeg.session (build solo)).graph

def soloDisk : Disk := (∅ : Disk).insert ["out", "dag.json"] (bytes soloJson)

theorem soloRestores (order : NodeOrder) : soloCodec.Restores order soloSaved := by
  simp [Codec.Restores, soloCodec, soloSaved]

theorem soloRejectsCut (order : NodeOrder) (g : DagGraph) : soloCodec.RejectsCut order g := by
  intro k cut text read
  refine ⟨"expected value at line 1 column 1", if_neg (fun same => ?_)⟩
  subst same
  have kept : ((bytes soloJson).take k).length = (bytes soloJson).length := congrArg List.length (readTextIff.mp read)
  rw [List.length_take] at kept
  have short : k < (bytes soloJson).length := cut
  omega

theorem soloHeld : Finmap.lookup (DagPersistence.mk ["out"]).dagJsonPath soloDisk = some (bytes soloJson) :=
  Finmap.lookup_insert _

theorem checkpointLost :
    soloCodec.Restores .sorted soloSaved ∧ soloCodec.RejectsCut .sorted soloSaved ∧
      Finmap.lookup (DagPersistence.mk ["out"]).dagJsonPath soloDisk =
        some (bytes (soloCodec.encodeGraph .sorted soloSaved)) ∧
      ¬ Recovers ⟨["out"]⟩ soloCodec soloSaved soloSaved
        ((DagPersistence.mk ["out"]).crashed soloCodec .sorted soloSaved soloDisk 2) := by
  refine ⟨soloRestores .sorted, soloRejectsCut .sorted soloSaved, soloHeld, fun recovers => ?_⟩
  have nonempty : 0 < (bytes (soloCodec.encodeGraph .sorted soloSaved)).length := by decide +kernel
  obtain ⟨e, failed⟩ := loadCut (soloRejectsCut .sorted soloSaved) nonempty
    ((DagPersistence.mk ["out"]).crashedDocument soloCodec .sorted soloSaved soloDisk 2) .sorted
  rcases recovers .sorted with old | new
  · exact nomatch failed.symm.trans old
  · exact nomatch failed.symm.trans new

theorem crashRecoversSolo :
    Recovers ⟨["out"]⟩ soloCodec soloSaved soloSaved
      ((DagPersistence.mk ["out"]).crashed soloCodec .sorted soloSaved soloDisk 1) :=
  (crashRecoversIff (soloRestores .sorted) (soloRestores .sorted) (soloRejectsCut .sorted soloSaved) soloHeld 1).mpr
    (.inl (by decide))

end DagPersistence
end ArosKernel.Dag
