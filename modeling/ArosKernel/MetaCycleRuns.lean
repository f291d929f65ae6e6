import ArosKernel.RequestHandler
import ArosKernel.HandlerRuns

/-! Who changes the store and how much of it: runs of requests while the supervised
processes change state, and runs of completed cycles over a store whose puts can fail. -/
namespace ArosKernel.Supervisor
open Store FallibleStore

namespace MetaCycle
variable {display : F64 → String}

def landing (display : F64 → String) (c : MetaCycle) (s : FallibleStore) : List Write :=
  applied s.faults (c.writes display)

theorem persistEntries (c : MetaCycle) (s : FallibleStore) :
    (c.persist display s).2.entries = insertAll s.entries (c.landing display s) := by
  rw [persistPutAll]
  exact (putAllApplied _ _).1

theorem landingOnce (c : MetaCycle) (s : FallibleStore) : ((c.landing display s).map Prod.fst).Nodup :=
  c.writesOnce.sublist ((appliedPrefix _ _).sublist.map _)

theorem persistAnswer (c : MetaCycle) (s : FallibleStore) :
    (∃ v, (c.persist display s).1 = .ok v) ↔ c.landing display s = c.writes display := by
  rw [persistPutAll, landing, ← (putAllApplied (c.writes display) s).2]
  rcases (putAll s (c.writes display)).1 with e | ⟨⟩ <;> simp [answer]

end MetaCycle

inductive Turn where
  | request (order : ProcessOrder) (method : RpcMethod) (params : Option Value)
  | supervise (supervisor : KernelSupervisor)

abbrev Kernel := RequestHandler FallibleStore

namespace Kernel

def turn (serde : Serde) (h : Kernel) : Turn → Kernel
  | .request order method params => (h.handle serde order method params).2
  | .supervise supervisor => { h with supervisor }

def after (serde : Serde) (h : Kernel) (turns : List Turn) : Kernel := turns.foldl (turn serde) h

-- A change of the store is the work of the running Meta Loop, addressed to the kernel.
def MetaOnly (serde : Serde) (h : Kernel) (t : Turn) : Prop :=
  (turn serde h t).stateStore.entries ≠ h.stateStore.entries → ∃ order method params trigger c handle j,
    t = .request order method params ∧ h.received serde method params = some trigger ∧ trigger.kind.cycle = some c ∧
    trigger.source = .loop0Meta ∧ trigger.target = .kernel ∧
    h.supervisor.child j = some handle ∧ handle.id = .loop0Meta ∧ handle.state = .running

-- A cycle that reaches the store from elsewhere, or on its way elsewhere, only restates it.
def ForeignRestates (serde : Serde) (h : Kernel) (t : Turn) : Prop :=
  ∀ order method params trigger c, t = .request order method params → h.received serde method params = some trigger →
    h.stored order trigger = some c → trigger.source ≠ .loop0Meta ∨ trigger.target ≠ .kernel →
    ∀ w ∈ c.landing serde.display h.stateStore, Finmap.lookup w.1 h.stateStore.entries = some w.2

variable {serde : Serde}

theorem turnEntries (h : Kernel) (t : Turn) :
    (turn serde h t).stateStore.entries = h.stateStore.entries ∨
    ∃ order method params trigger c, t = .request order method params ∧ h.received serde method params = some trigger ∧
      h.stored order trigger = some c ∧
      (turn serde h t).stateStore.entries = insertAll h.stateStore.entries (c.landing serde.display h.stateStore) := by
  cases t with
  | supervise supervisor => exact .inl rfl
  | request order method params =>
    have store := RequestHandler.handleStore serde order h method params
    cases trigger : h.received serde method params with
    | none =>
      rw [trigger] at store
      exact .inl (congrArg FallibleStore.entries store)
    | some t =>
      rw [trigger, Option.bind_some] at store
      cases cycle : h.stored order t with
      | none =>
        rw [cycle] at store
        exact .inl (congrArg FallibleStore.entries store)
      | some c =>
        rw [cycle] at store
        refine .inr ⟨order, method, params, t, c, rfl, trigger, cycle, ?_⟩
        exact (congrArg FallibleStore.entries store).trans (c.persistEntries h.stateStore)

theorem storedEnds {h : Kernel} {order : ProcessOrder} {trigger : LoopTrigger} {c : MetaCycle}
    (stored : h.stored order trigger = some c) : trigger.kind.cycle = some c ∧
      h.supervisor.isRunning order trigger.source = true := by
  unfold RequestHandler.stored at stored
  cases ends : h.checkEnds order trigger with
  | error e => simp [ends] at stored
  | ok _ =>
    simp only [ends] at stored
    split at stored
    · contradiction
    · exact ⟨stored, (RequestHandler.checkEndsOk.mp ends).1⟩

theorem metaOnlyIff (h : Kernel) (t : Turn) : MetaOnly serde h t ↔ ForeignRestates serde h t := by
  constructor
  · intro only order method params trigger c asked received stored foreign
    have entries : (turn serde h t).stateStore.entries =
        insertAll h.stateStore.entries (c.landing serde.display h.stateStore) := by
      have store := RequestHandler.handleStore serde order h method params
      rw [received, Option.bind_some, stored] at store
      rw [asked]
      exact (congrArg FallibleStore.entries store).trans (c.persistEntries h.stateStore)
    refine (insertAllIdleIff (c.landingOnce h.stateStore) h.stateStore.entries).mp ?_
    refine Decidable.byContradiction (fun changed => ?_)
    obtain ⟨order', method', params', trigger', _, _, _, asked', received', _, source, target, _⟩ := only (entries ▸ changed)
    rw [asked] at asked'
    cases asked'
    rw [received] at received'
    cases received'
    rcases foreign with other | other
    · exact other source
    · exact other target
  · intro restates changed
    rcases @turnEntries serde h t with same | ⟨order, method, params, trigger, c, asked, received, stored, entries⟩
    · exact absurd same changed
    · obtain ⟨cycle, running⟩ := storedEnds stored
      by_cases own : trigger.source = .loop0Meta ∧ trigger.target = .kernel
      · obtain ⟨j, handle, found, id, state⟩ := KernelSupervisor.isRunningIff.mp running
        exact ⟨order, method, params, trigger, c, handle, j, asked, received, cycle, own.1, own.2, found,
          id.trans own.1, state⟩
      · have held := restates order method params trigger c asked received stored (by
          rcases Decidable.not_and_iff_not_or_not.mp own with source | target
          · exact .inl source
          · exact .inr target)
        rw [entries, (insertAllIdleIff (c.landingOnce h.stateStore) h.stateStore.entries).mpr held] at changed
        exact absurd rfl changed

def StoreMetaOnly (serde : Serde) (h : Kernel) (turns : List Turn) : Prop :=
  ∀ earlier t, earlier ++ [t] <+: turns → MetaOnly serde (after serde h earlier) t

end Kernel

def readProcess : String → Option ProcessId
  | "Kernel" => some .kernel
  | "Loop0Meta" => some .loop0Meta
  | "Loop1Agentic" => some .loop1Agentic
  | "Loop2Harness" => some .loop2Harness
  | _ => none

def readCycle (payload : Value) : Option TriggerKind := do
  let cycleId ← (← payload.get "cycle_id").asStr
  match ← payload.get "policy_changed", ← payload.get "drift_score" with
  | .bool policyChanged, .number (.float driftScore) => some (.metaCycleComplete cycleId policyChanged driftScore)
  | _, _ => none

def readTrigger (v : Value) : Except String LoopTrigger :=
  let fields : Option LoopTrigger := do
    let seq ← (← v.get "seq").asU64
    let source ← readProcess (← (← v.get "source").asStr)
    let target ← readProcess (← (← v.get "target").asStr)
    let kind ← v.get "kind"
    match ← (← kind.get "kind").asStr with
    | "Ping" => some (.new seq source target .ping)
    | "MetaCycleComplete" => (readCycle (← kind.get "payload")).map (LoopTrigger.new seq source target)
    | _ => none
  match fields with
  | some trigger => .ok trigger
  | none => .error "invalid type"

def drift05 : F64 := ⟨0x3FA999999999999A⟩
def drift15 : F64 := ⟨0x3FC3333333333333⟩

def sampleSerde : Serde :=
  { envelope := readEnvelope, trigger := readTrigger, triggerValue := fun _ => .error "not used",
    display := fun x => if x = drift15 then "0.15" else "0.05" }

def cycleTrigger (source target cycleId : String) (driftScore : F64) : Value :=
  .object [("seq", .nat 1), ("source", .string source), ("target", .string target),
    ("kind", .object [("kind", .string "MetaCycleComplete"), ("payload", .object [("cycle_id", .string cycleId),
      ("policy_changed", .bool true), ("drift_score", .number (.float driftScore))])]), ("trace_parent", .null)]

def declared : ProcessOrder where
  keys m := ([.init, .kernel, .loop0Meta, .loop1Agentic, .loop2Harness, .modelAdapter, .embeddingAdapter] :
    List ProcessId).filter (fun id => decide (id ∈ m))
  nodup m := List.Nodup.filter _ (by decide)
  complete m id := by cases id <;> simp

def bothLoops : KernelSupervisor :=
  ((((KernelSupervisor.new.register .loop0Meta .default 0).register .loop2Harness .default 0).updateState .loop0Meta .running
    ⟨1, 1⟩).2.updateState .loop2Harness .running ⟨2, 2⟩).2

def freshKernel (faults : List (Option StoreError)) : Kernel :=
  { governor := .new Governor.daemonConfig, taskRegistry := ∅, supervisor := bothLoops, stateStore := ⟨∅, faults⟩,
    storePoisoned := false, triggerSeq := 1 }

namespace Kernel

def fromHarness : List Turn :=
  [.request declared .loopTrigger (some (cycleTrigger "Loop2Harness" "Loop0Meta" "cycle-1" drift15))]

end Kernel

structure Post where
  supervisor : KernelSupervisor
  order : ProcessOrder
  params : Option Value

namespace Post

def cycle (serde : Serde) (p : Post) : Option MetaCycle :=
  (triggerParams serde p.params).toOption.bind (fun trigger => trigger.kind.cycle)

def meet (p : Post) (h : Kernel) : Kernel := { h with supervisor := p.supervisor }

def handle (serde : Serde) (h : Kernel) (p : Post) : Except Failure Value × Kernel :=
  (p.meet h).handleLoopTrigger serde p.order p.params

def after (serde : Serde) (h : Kernel) (posts : List Post) : Kernel := posts.foldl (fun h p => (p.handle serde h).2) h

def Atomic (serde : Serde) (h : Kernel) (p : Post) : Prop :=
  ∀ c, p.cycle serde = some c →
    ((∃ v, (p.handle serde h).1 = .ok v) ∧
      (p.handle serde h).2.stateStore.entries = insertAll h.stateStore.entries (c.writes serde.display)) ∨
    ((∃ e, (p.handle serde h).1 = .error e) ∧ (p.handle serde h).2.stateStore.entries = h.stateStore.entries)

-- No put fails, or those before the first that does restate what is there.
def Whole (serde : Serde) (h : Kernel) (p : Post) : Prop :=
  ∀ trigger c, triggerParams serde p.params = .ok trigger → (p.meet h).stored p.order trigger = some c →
    c.landing serde.display h.stateStore = c.writes serde.display ∨
    ∀ w ∈ c.landing serde.display h.stateStore, Finmap.lookup w.1 h.stateStore.entries = some w.2

def SameCycle (serde : Serde) (start s : Entries) (posts : List Post) : Prop :=
  (Finmap.lookup lastDrift s = Finmap.lookup lastDrift start ∧ Finmap.lookup lastCycle s = Finmap.lookup lastCycle start) ∨
  ∃ p ∈ posts, ∃ c, p.cycle serde = some c ∧ Finmap.lookup lastDrift s = some (serde.display c.driftScore).toUTF8 ∧
    Finmap.lookup lastCycle s = some c.cycleId.toUTF8

variable {serde : Serde}

theorem handleCases (h : Kernel) (p : Post) :
    (p.cycle serde = none ∧ (p.handle serde h).2.stateStore = h.stateStore) ∨
    (∃ trigger c, p.cycle serde = some c ∧ triggerParams serde p.params = .ok trigger ∧ trigger.kind.cycle = some c ∧
      (p.meet h).stored p.order trigger = none ∧ (∃ e, (p.handle serde h).1 = .error e) ∧
      (p.handle serde h).2.stateStore = h.stateStore) ∨
    (∃ trigger c, p.cycle serde = some c ∧ triggerParams serde p.params = .ok trigger ∧
      (p.meet h).stored p.order trigger = some c ∧ (p.handle serde h).1 = (c.persist serde.display h.stateStore).1 ∧
      (p.handle serde h).2.stateStore = (c.persist serde.display h.stateStore).2) := by
  unfold handle RequestHandler.handleLoopTrigger cycle
  cases read : triggerParams serde p.params with
  | error e => exact .inl ⟨rfl, rfl⟩
  | ok trigger =>
    dsimp only [Except.toOption, Option.bind_some]
    cases kind : trigger.kind.cycle with
    | none =>
      refine .inl ⟨rfl, ?_⟩
      have none_ : (p.meet h).stored p.order trigger = none := by
        unfold RequestHandler.stored
        cases (p.meet h).checkEnds p.order trigger <;> simp [kind]
      rw [RequestHandler.routeStore, none_]
      rfl
    | some c =>
      cases stored : (p.meet h).stored p.order trigger with
      | none =>
        obtain ⟨e, refused⟩ := RequestHandler.routeRefused serde kind stored
        exact .inr (.inl ⟨trigger, c, rfl, rfl, kind, stored, ⟨e, congrArg Prod.fst refused⟩,
          congrArg (fun r => r.2.stateStore) refused⟩)
      | some c' =>
        have same : c' = c := Option.some.inj ((Kernel.storedEnds stored).1.symm.trans kind)
        subst same
        have routed := RequestHandler.routeStored serde stored
        exact .inr (.inr ⟨trigger, c', rfl, rfl, stored, congrArg Prod.fst routed,
          congrArg (fun r => r.2.stateStore) routed⟩)

theorem cycleRead {p : Post} {trigger : LoopTrigger} (read : triggerParams serde p.params = .ok trigger) :
    p.cycle serde = trigger.kind.cycle := by
  rw [cycle, read]
  rfl

theorem atomicIff (h : Kernel) (p : Post) : Atomic serde h p ↔ Whole serde h p := by
  rcases @handleCases serde h p with
    ⟨none_, same⟩ | ⟨trigger, c, cycle, read, kind, refused, error, same⟩ | ⟨trigger, c, cycle, read, stored, answer, store⟩
  · refine iff_of_true (fun c some_ => ?_) (fun trigger c read stored => ?_)
    · rw [none_] at some_
      contradiction
    · rw [cycleRead read, (Kernel.storedEnds stored).1] at none_
      contradiction
  · refine iff_of_true (fun _ _ => .inr ⟨error, congrArg FallibleStore.entries same⟩) (fun trigger' c read' stored => ?_)
    rw [read] at read'
    cases read'
    rw [refused] at stored
    contradiction
  · have entries := (congrArg FallibleStore.entries store).trans (c.persistEntries h.stateStore)
    have accepted := @MetaCycle.persistAnswer serde.display c h.stateStore
    rw [← answer] at accepted
    constructor
    · intro atomic trigger' c' read' stored'
      rw [read] at read'
      cases read'
      rw [stored] at stored'
      cases stored'
      rcases atomic c cycle with ⟨ok, _⟩ | ⟨_, same⟩
      · exact .inl (accepted.mp ok)
      · exact .inr ((insertAllIdleIff (c.landingOnce h.stateStore) _).mp (entries.symm.trans same))
    · intro whole c' cycle'
      rw [cycle] at cycle'
      cases cycle'
      by_cases all : c.landing serde.display h.stateStore = c.writes serde.display
      · exact .inl ⟨accepted.mpr all, all ▸ entries⟩
      · refine .inr ⟨?_, ?_⟩
        · cases result : (p.handle serde h).1 with
          | error e => exact ⟨e, rfl⟩
          | ok v => exact absurd (accepted.mp ⟨v, result⟩) all
        · rcases whole trigger c read stored with every | held
          · exact absurd every all
          · exact entries.trans ((insertAllIdleIff (c.landingOnce h.stateStore) _).mpr held)

theorem wholeKeepsPair {h : Kernel} {p : Post} (whole : Whole serde h p) {start : Entries} {posts : List Post}
    (pair : SameCycle serde start h.stateStore.entries posts) :
    SameCycle serde start (p.handle serde h).2.stateStore.entries (posts ++ [p]) := by
  have kept : ∀ s : Entries, s = h.stateStore.entries → SameCycle serde start s (posts ++ [p]) := by
    intro s same
    subst same
    rcases pair with untouched | ⟨q, member, found⟩
    · exact .inl untouched
    · exact .inr ⟨q, List.mem_append_left _ member, found⟩
  cases cycle : p.cycle serde with
  | none =>
    rcases @handleCases serde h p with ⟨_, same⟩ | ⟨_, _, other, _⟩ | ⟨_, _, other, _⟩
    · exact kept _ (congrArg FallibleStore.entries same)
    · rw [cycle] at other
      contradiction
    · rw [cycle] at other
      contradiction
  | some c =>
    rcases (atomicIff h p).mpr whole c cycle with ⟨_, entries⟩ | ⟨_, same⟩
    · refine .inr ⟨p, List.mem_append_right _ (List.mem_singleton_self p), c, cycle, ?_, ?_⟩
      · rw [entries]
        exact insertAllHere c.writesOnce _ (w := (lastDrift, _)) (List.mem_append_left _ (by simp))
      · rw [entries]
        exact insertAllHere c.writesOnce _ (w := (lastCycle, _)) (List.mem_append_left _ (by simp))
    · exact kept _ same

def AllAtomic (serde : Serde) (h : Kernel) (posts : List Post) : Prop :=
  ∀ earlier p, earlier ++ [p] <+: posts → Atomic serde (after serde h earlier) p

theorem cyclesAtomicIff (h : Kernel) (posts : List Post) :
    (AllAtomic serde h posts ↔ ∀ earlier p, earlier ++ [p] <+: posts → Whole serde (after serde h earlier) p) ∧
    ((∀ earlier p, earlier ++ [p] <+: posts → Whole serde (after serde h earlier) p) → ∀ earlier, earlier <+: posts →
      SameCycle serde h.stateStore.entries (after serde h earlier).stateStore.entries earlier) := by
  have steps : AllAtomic serde h posts ↔ ∀ earlier p, earlier ++ [p] <+: posts → Whole serde (after serde h earlier) p :=
    forall_congr' (fun _ => forall_congr' (fun _ => imp_congr_right (fun _ => atomicIff _ _)))
  refine ⟨steps, fun whole earlier inside => ?_⟩
  induction earlier using List.reverseRecOn with
  | nil => exact .inl ⟨rfl, rfl⟩
  | append_singleton earlier p ih =>
    have pair := ih ((List.prefix_append _ _).trans inside)
    rw [after, List.foldl_append]
    exact wholeKeepsPair (whole earlier p inside) pair

def tornPosts : List Post :=
  [⟨bothLoops, declared, some (cycleTrigger "Loop0Meta" "Kernel" "cycle-1" drift05)⟩,
    ⟨bothLoops, declared, some (cycleTrigger "Loop0Meta" "Kernel" "cycle-2" drift15)⟩]

theorem cycleTorn : ∃ h, h = freshKernel [none, none, none, none, some (.sqlite "disk I/O error")] ∧
    ¬ AllAtomic sampleSerde h tornPosts ∧
    ¬ SameCycle sampleSerde h.stateStore.entries (after sampleSerde h tornPosts).stateStore.entries tornPosts := by
  refine ⟨_, rfl, fun atomic => ?_, ?_⟩
  · rcases atomic [⟨bothLoops, declared, some (cycleTrigger "Loop0Meta" "Kernel" "cycle-1" drift05)⟩] _
      (List.prefix_refl tornPosts) ⟨"cycle-2", true, drift15⟩ rfl with ⟨_, entries⟩ | ⟨_, entries⟩
    · exact absurd entries (by decide +kernel)
    · exact absurd entries (by decide +kernel)
  · rintro (⟨_, cycle⟩ | ⟨p, member, c, cycle, drift, id⟩)
    · exact absurd cycle (by decide +kernel)
    · simp only [tornPosts, List.mem_cons, List.not_mem_nil, or_false] at member
      rcases member with first | second
      · subst first
        cases cycle
        exact absurd drift (by decide +kernel)
      · subst second
        cases cycle
        exact absurd id (by decide +kernel)

end Post
end ArosKernel.Supervisor
