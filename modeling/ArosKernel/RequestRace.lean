import ArosKernel.Interleaving
import ArosKernel.MetaCycleRuns
import ArosKernel.RequestSections

/-! Requests of concurrent connections with the registrations between them. Each request
answers for its own acts in the log, and the registry is the balance of the log. -/
namespace ArosKernel.Supervisor
open Governor Envelope Store Transition Interleaving KernelRequestHandler

def requests (S : Type) [StateStore S] (serde : Serde) : System (RequestHandler S) Act Flight Circumstance where
  perform := Act.perform serde
  advance := Flight.section_ serde
  outside := Act.isOutside
  fresh := Flight.isReceived

variable {S : Type} [StateStore S] {serde : Serde}

def Act.sparesTasks : Act → Bool
  | .nextSeq | .persist _ | .supervise _ => true
  | _ => false

theorem sparesPerform {act : Act} (spares : act.sparesTasks = true) (h : RequestHandler S) :
    (act.perform serde h).toKernelRequestHandler = h.toKernelRequestHandler := by
  cases act with
  | nextSeq => rfl
  | persist _ => rfl
  | supervise _ => rfl
  | _ => contradiction

inductive Accepted (serde : Serde) : RpcMethod → Option Value → Value → List Act → Prop where
  | admitted {params : Option Value} {env : TaskEnvelope} (read : submitParams serde.envelope params = .ok env) :
      Accepted serde .taskSubmit params (admittedAnswer env.taskId) ((startOps env).map countAct)
  | completed {params : Option Value} {taskId : String} {tokensUsed : UInt64}
      (read : completeParams params = .ok (taskId, tokensUsed)) :
      Accepted serde .taskComplete params (completedAnswer taskId) (.remove taskId :: (releaseOps tokensUsed).map countAct)

namespace Flight

def Refused (f : Flight) (answer : Except Failure Value) : Prop := f.method = .taskComplete → ∃ e, answer = .error e

def Explains (serde : Serde) (f : Flight) (acts : List Act) : Prop :=
  match f.phase with
  | .received => acts = []
  | .decoded _ | .checked _ => f.method ≠ .taskComplete ∧ ∀ act ∈ acts, act.sparesTasks = true
  | .counting pending v => Accepted serde f.method f.params v (acts ++ pending.map countAct)
  | .answered answer => (∃ v, answer = .ok v ∧ Accepted serde f.method f.params v acts) ∨
      (f.Refused answer ∧ ∀ act ∈ acts, act.sparesTasks = true)

omit [StateStore S] in
theorem dispatchSpares (h : RequestHandler S) (trigger : LoopTrigger) :
    ∀ act ∈ dispatchActs h trigger, act.sparesTasks = true := by
  unfold dispatchActs
  cases trigger.kind with
  | metaCycleRequest _ => simp [Act.sparesTasks]
  | metaCycleComplete cycleId policyChanged driftScore =>
    dsimp only
    split <;> simp [Act.sparesTasks]
  | _ => simp

theorem triggeredExplains {f : Flight} {params : Option Value} {acts : List Act} (other : f.method ≠ .taskComplete)
    (spares : ∀ act ∈ acts, act.sparesTasks = true) : Explains serde (f.at_ (triggered serde params)) acts := by
  unfold triggered
  cases triggerParams serde params with
  | error e => exact .inr ⟨fun same => absurd same other, spares⟩
  | ok trigger => exact ⟨other, spares⟩

theorem refusedAtOnce {f : Flight} (answer : Except Failure Value) (refused : f.Refused answer) :
    Explains serde (f.at_ (.answered answer)) [] :=
  .inr ⟨refused, fun _ member => absurd member List.not_mem_nil⟩

theorem notCompletes {f : Flight} (other : f.method ≠ .taskComplete) (answer : Except Failure Value) : f.Refused answer :=
  fun same => absurd same other

omit [StateStore S] in
theorem receiveExplains (c : Circumstance) (h : RequestHandler S) (f : Flight) :
    Explains serde (f.at_ (receive serde c h f.method f.params).1) (receive serde c h f.method f.params).2 := by
  rcases f with ⟨method, params, phase⟩
  cases method with
  | ping => exact refusedAtOnce _ (notCompletes RpcMethod.noConfusion _)
  | taskProgress => exact refusedAtOnce _ (notCompletes RpcMethod.noConfusion _)
  | loopTrigger => exact triggeredExplains RpcMethod.noConfusion (fun _ member => absurd member List.not_mem_nil)
  | taskSubmit =>
    simp only [receive, submitted]
    cases read : submitParams serde.envelope params with
    | error e => exact refusedAtOnce _ (notCompletes RpcMethod.noConfusion _)
    | ok env =>
      dsimp only
      split
      · exact .admitted read
      · exact refusedAtOnce _ (notCompletes RpcMethod.noConfusion _)
  | taskComplete =>
    simp only [receive]
    rcases read : completeParams params with e | ⟨taskId, tokensUsed⟩
    · exact refusedAtOnce _ (fun _ => ⟨e, rfl⟩)
    · dsimp only
      split
      · exact .completed read
      · exact refusedAtOnce _ (fun _ => ⟨_, rfl⟩)
  | taskCancel =>
    simp only [receive]
    rcases cancelParams params with e | ⟨taskId, reason⟩
    · exact refusedAtOnce _ (notCompletes RpcMethod.noConfusion _)
    · dsimp only
      have spares : ∀ act ∈ [Act.nextSeq], act.sparesTasks = true := List.forall_mem_singleton.mpr rfl
      cases serde.triggerValue (.new h.triggerSeq .kernel .loop1Agentic (.taskCancel taskId reason)) with
      | error e => exact .inr ⟨notCompletes RpcMethod.noConfusion _, spares⟩
      | ok wrapped => exact triggeredExplains RpcMethod.noConfusion spares

theorem sectionExplains (c : Circumstance) (h : RequestHandler S) (f f' : Flight) (acts before : List Act)
    (explains : Explains serde f before) (next : section_ serde c h f = some (f', acts)) :
    Explains serde f' (before ++ acts) := by
  rcases f with ⟨method, params, phase⟩
  cases phase with
  | received =>
    cases next
    have nothing : before = [] := explains
    rw [nothing]
    exact receiveExplains c h ⟨method, params, .received⟩
  | decoded trigger =>
    obtain ⟨other, spares⟩ := explains
    simp only [section_] at next
    cases ends : h.checkEnds c.order trigger with
    | error e =>
      simp only [ends, Option.some.injEq, Prod.mk.injEq] at next
      obtain ⟨same, none_⟩ := next
      rw [← same, ← none_, List.append_nil]
      exact .inr ⟨fun same => absurd same other, spares⟩
    | ok _ =>
      simp only [ends, Option.some.injEq, Prod.mk.injEq] at next
      obtain ⟨same, none_⟩ := next
      rw [← same, ← none_, List.append_nil]
      exact ⟨other, spares⟩
  | checked trigger =>
    obtain ⟨other, spares⟩ := explains
    cases next
    refine .inr ⟨fun same => absurd same other, fun act member => ?_⟩
    rcases List.mem_append.mp member with old | new
    · exact spares act old
    · exact dispatchSpares h trigger act new
  | counting pending v =>
    cases pending with
    | nil =>
      cases next
      have all : Accepted serde method params v (before ++ []) := explains
      exact .inl ⟨v, rfl, all⟩
    | cons op rest =>
      cases next
      have all : Accepted serde method params v (before ++ countAct op :: rest.map countAct) := explains
      rw [List.append_cons] at all
      exact all
  | answered answer => cases next

end Flight

def registrations (taskId : String) (log : List (Option Nat × Act)) : Nat := log.countP (fun e => e.2.registers taskId)

def removals (taskId : String) (log : List (Option Nat × Act)) : Nat := log.countP (fun e => e.2.removes taskId)

def held (taskId : String) (h : RequestHandler S) : Nat := if taskId ∈ h.taskRegistry then 1 else 0

/- Every removal found its id, so there are no more of them than registrations. -/
structure Registered (serde : Serde) (start h : RequestHandler S) (log : List (Option Nat × Act)) : Prop where
  replays : h = (requests S serde).replay start log
  found : ∀ before author taskId, before ++ [(author, .remove taskId)] <+: log →
    taskId ∈ ((requests S serde).replay start before).taskRegistry
  balanced : ∀ taskId, removals taskId log + held taskId h ≤ registrations taskId log

def Act.sparesRegistry : Act → Bool
  | .register .. | .remove _ => false
  | _ => true

theorem sparesRegistryPerform {act : Act} (spares : act.sparesRegistry = true) (h : RequestHandler S) :
    (act.perform serde h).taskRegistry = h.taskRegistry := by
  cases act with
  | register _ _ => contradiction
  | remove _ => contradiction
  | _ => rfl

theorem sparesCounts {act : Act} (spares : act.sparesRegistry = true) (taskId : String) :
    act.registers taskId = false ∧ act.removes taskId = false := by
  cases act with
  | register _ _ => contradiction
  | remove _ => contradiction
  | _ => exact ⟨rfl, rfl⟩

def Act.Fair (h : RequestHandler S) (act : Act) : Prop :=
  act.sparesRegistry = true ∨ ∃ taskId, act = .remove taskId ∧ taskId ∈ h.taskRegistry

omit [StateStore S] in
theorem receiveFair (c : Circumstance) (h : RequestHandler S) (method : RpcMethod) (params : Option Value) :
    (Flight.receive serde c h method params).2 = [] ∨
      ∃ act, (Flight.receive serde c h method params).2 = [act] ∧ act.Fair h := by
  cases method with
  | taskComplete =>
    simp only [Flight.receive]
    rcases completeParams params with e | ⟨taskId, tokensUsed⟩
    · exact .inl rfl
    · dsimp only
      split
      · rename_i present
        exact .inr ⟨_, rfl, .inr ⟨taskId, rfl, present⟩⟩
      · exact .inl rfl
  | taskCancel =>
    simp only [Flight.receive]
    rcases cancelParams params with e | ⟨taskId, reason⟩
    · exact .inl rfl
    · dsimp only
      split
      · exact .inr ⟨_, rfl, .inl rfl⟩
      · exact .inr ⟨_, rfl, .inl rfl⟩
  | _ => exact .inl rfl

omit [StateStore S] in
theorem dispatchFair (h : RequestHandler S) (trigger : LoopTrigger) : Flight.dispatchActs h trigger = [] ∨
    ∃ act, Flight.dispatchActs h trigger = [act] ∧ act.Fair h := by
  unfold Flight.dispatchActs
  cases trigger.kind with
  | metaCycleRequest _ => exact .inr ⟨_, rfl, .inl rfl⟩
  | metaCycleComplete cycleId policyChanged driftScore =>
    dsimp only
    split
    · exact .inl rfl
    · exact .inr ⟨_, rfl, .inl rfl⟩
  | _ => exact .inl rfl

theorem sectionFair {c : Circumstance} {h : RequestHandler S} {f f' : Flight} {acts : List Act}
    (next : Flight.section_ serde c h f = some (f', acts)) : acts = [] ∨ ∃ act, acts = [act] ∧ act.Fair h := by
  rcases f with ⟨method, params, phase⟩
  cases phase with
  | received =>
    cases next
    exact receiveFair c h method params
  | decoded trigger =>
    simp only [Flight.section_] at next
    split at next
    · cases next
      exact .inl rfl
    · cases next
      exact .inl rfl
  | checked trigger =>
    cases next
    exact dispatchFair h trigger
  | counting pending v =>
    cases pending with
    | nil =>
      cases next
      exact .inl rfl
    | cons op rest =>
      cases next
      exact .inr ⟨_, rfl, .inl rfl⟩
  | answered answer => cases next

theorem heldRegister (h : RequestHandler S) (id socketPath taskId : String) :
    held taskId ((Act.register id socketPath).perform serde h) ≤ held taskId h + if id = taskId then 1 else 0 := by
  simp only [held, Act.perform, KernelRequestHandler.register, Finmap.mem_insert]
  by_cases same : id = taskId
  · rw [if_pos same]
    split <;> omega
  · have apart : taskId ≠ id := fun same' => same same'.symm
    simp [same, apart]

theorem heldRemove {h : RequestHandler S} {id : String} (present : id ∈ h.taskRegistry) (taskId : String) :
    held taskId ((Act.remove id).perform serde h) + (if id = taskId then 1 else 0) = held taskId h := by
  simp only [held, Act.perform, Finmap.mem_erase]
  by_cases same : id = taskId
  · subst same
    simp [present]
  · have apart : taskId ≠ id := fun same' => same same'.symm
    simp [same, apart]

theorem Registered.perform {start h : RequestHandler S} {log : List (Option Nat × Act)}
    (registered : Registered serde start h log) (author : Option Nat) {act : Act}
    (fair : act.Fair h ∨ ∃ taskId socketPath, act = .register taskId socketPath) :
    Registered serde start (act.perform serde h) (log ++ [(author, act)]) := by
  obtain ⟨replays, found, balanced⟩ := registered
  refine ⟨?_, fun before author' taskId inside => ?_, fun taskId => ?_⟩
  · rw [System.replayConcat, ← replays]
    rfl
  · rcases List.prefix_concat_iff.mp inside with whole | earlier
    · obtain ⟨same, last⟩ := List.append_inj' whole rfl
      cases last
      rw [same, ← replays]
      rcases fair with (spares | ⟨taskId', same, present⟩) | ⟨_, _, other⟩
      · contradiction
      · cases same
        exact present
      · contradiction
    · exact found before author' taskId earlier
  · have before := balanced taskId
    rw [removals, registrations, List.countP_append, List.countP_append, List.countP_singleton, List.countP_singleton]
    dsimp only [removals, registrations] at before
    rcases fair with (spares | ⟨id, same, present⟩) | ⟨id, socketPath, same⟩
    · obtain ⟨registers, removes⟩ := sparesCounts spares taskId
      rw [registers, removes, held, sparesRegistryPerform spares]
      exact before
    · subst same
      have fewer := @heldRemove S _ serde h id present taskId
      have counted : Act.removes taskId (.remove id) = decide (id = taskId) := rfl
      have other : Act.registers taskId (.remove id) = false := rfl
      simp only [counted, other, decide_eq_true_eq, Bool.false_eq_true, if_false]
      omega
    · subst same
      have more := @heldRegister S _ serde h id socketPath taskId
      have counted : Act.registers taskId (.register id socketPath) = decide (id = taskId) := rfl
      have other : Act.removes taskId (.register id socketPath) = false := rfl
      simp only [counted, other, decide_eq_true_eq, Bool.false_eq_true, if_false]
      omega

theorem requestsKeep (start : RequestHandler S) :
    (requests S serde).Keeps (Flight.Explains serde) (Registered serde start) where
  enter f fresh := by
    rcases f with ⟨method, params, phase⟩
    cases phase with
    | received => rfl
    | _ => contradiction
  outside h log act registered outside := by
    refine registered.perform none ?_
    cases act with
    | register taskId socketPath => exact .inr ⟨taskId, socketPath, rfl⟩
    | supervise supervisor => exact .inl (.inl rfl)
    | updatePressure level => exact .inl (.inl rfl)
    | _ => contradiction
  mine c h f f' acts before explains next := Flight.sectionExplains c h f f' acts before explains next
  ours c h log f f' acts before i registered explains next := by
    rcases sectionFair next with none_ | ⟨act, one, fair⟩
    · subst none_
      rw [List.map_nil, List.append_nil]
      exact registered
    · subst one
      exact registered.perform (some i) (.inl fair)

def Flight.completes (taskId : String) (f : Flight) : Bool :=
  match f.method, f.phase, completeParams f.params with
  | .taskComplete, .answered (.ok _), .ok (id, _) => id = taskId
  | _, _, _ => false

def TurnedAway : Except Failure Value → Prop
  | .error _ => True
  | .ok v => v.get "status" = some (.string "queued")

theorem Accepted.notTurnedAway {method : RpcMethod} {params : Option Value} {v : Value} {acts : List Act}
    (accepted : Accepted serde method params v acts) : ¬ TurnedAway (.ok v) := by
  cases accepted with
  | admitted read => exact fun queued => absurd queued (by simp [admittedAnswer, TurnedAway, Value.get])
  | completed read => exact fun queued => absurd queued (by simp [completedAnswer, TurnedAway, Value.get])

theorem Accepted.completion {params : Option Value} {v : Value} {acts : List Act}
    (accepted : Accepted serde .taskComplete params v acts) : ∃ taskId tokensUsed,
      completeParams params = .ok (taskId, tokensUsed) ∧ acts = .remove taskId :: (releaseOps tokensUsed).map countAct := by
  cases accepted with
  | completed read => exact ⟨_, _, read, rfl⟩

theorem Flight.Explains.turnedAway {f : Flight} {acts : List Act} (explains : f.Explains serde acts)
    {answer : Except Failure Value} (phase : f.phase = .answered answer) (away : TurnedAway answer) :
    ∀ act ∈ acts, act.sparesTasks = true := by
  simp only [Flight.Explains, phase] at explains
  rcases explains with ⟨v, ok, accepted⟩ | ⟨_, spares⟩
  · subst ok
    exact absurd away accepted.notTurnedAway
  · exact spares

theorem Flight.Explains.completion {f : Flight} {acts : List Act} (explains : f.Explains serde acts) {v : Value}
    (method : f.method = .taskComplete) (phase : f.phase = .answered (.ok v)) : ∃ taskId tokensUsed,
      completeParams f.params = .ok (taskId, tokensUsed) ∧ acts = .remove taskId :: (releaseOps tokensUsed).map countAct := by
  simp only [Flight.Explains, phase, method] at explains
  rcases explains with ⟨_, _, accepted⟩ | ⟨refused, _⟩
  · exact accepted.completion
  · obtain ⟨e, error⟩ := refused method
    contradiction

theorem Flight.completesIff {taskId : String} {f : Flight} : f.completes taskId = true ↔ f.method = .taskComplete ∧
    (∃ v, f.phase = .answered (.ok v)) ∧ ∃ tokensUsed, completeParams f.params = .ok (taskId, tokensUsed) := by
  rcases f with ⟨method, params, phase⟩
  unfold Flight.completes
  constructor
  · intro completes
    split at completes
    · rename_i v id tokensUsed method_ phase_ read
      cases of_decide_eq_true completes
      exact ⟨method_, ⟨v, phase_⟩, tokensUsed, read⟩
    · contradiction
  · rintro ⟨method_, ⟨v, phase_⟩, tokensUsed, read⟩
    dsimp only at method_ phase_ read
    subst method_ phase_
    simp only [read, decide_true]

theorem requestsAccountable {opened : RequestHandler S} (idle : opened.taskRegistry = ∅)
    {s : World (RequestHandler S) Act Flight}
    (reached : Reachable (requests S serde).step (World.start opened) s) :
    (∀ i f answer, s.parties[i]? = some f → f.phase = .answered answer → TurnedAway answer →
      ∀ act ∈ own i s.log, ∀ h : RequestHandler S, (act.perform serde h).toKernelRequestHandler = h.toKernelRequestHandler) ∧
    (∀ i f v, s.parties[i]? = some f → f.method = .taskComplete → f.phase = .answered (.ok v) →
      ∃ taskId tokensUsed, completeParams f.params = .ok (taskId, tokensUsed) ∧
        own i s.log = .remove taskId :: (releaseOps tokensUsed).map countAct) ∧
    (∀ before author taskId, before ++ [(author, .remove taskId)] <+: s.log →
      taskId ∈ ((requests S serde).replay opened before).taskRegistry) ∧
    (∀ taskId, s.parties.countP (Flight.completes taskId) ≤ registrations taskId s.log) ∧
    s.shared = (requests S serde).replay opened s.log := by
  have initial : Registered serde opened opened [] :=
    ⟨rfl, fun before author taskId inside => by simp at inside, fun taskId => by simp [removals, held, idle, Finmap.notMem_empty]⟩
  have sound := (requestsKeep opened).reachable initial reached
  refine ⟨fun i f answer at_ phase away act member h => ?_, fun i f v at_ method phase => ?_, sound.ours.found,
    fun taskId => ?_, sound.replays⟩
  · exact sparesPerform ((sound.mine i f at_).turnedAway phase away act member) h
  · exact (sound.mine i f at_).completion method phase
  · have removed : s.parties.countP (Flight.completes taskId) ≤ removals taskId s.log := by
      refine countAuthors (fun i f at_ completes => ?_)
      obtain ⟨method, ⟨v, phase⟩, _, read⟩ := Flight.completesIff.mp completes
      obtain ⟨id, _, read', acts⟩ := (sound.mine i f at_).completion method phase
      rw [read] at read'
      cases read'
      exact ⟨.remove taskId, by rw [acts]; exact List.mem_cons_self, decide_eq_true rfl⟩
    have balanced := sound.ours.balanced taskId
    omega

def duplicates : List (Move Act Flight Circumstance) :=
  let complete : Flight := ⟨.taskComplete, some (.object [("task_id", .string "t1"), ("dag_id", .string "dag-1")]), .received⟩
  let now : Circumstance := ⟨declared, .new daemonConfig⟩
  [.outside (.register "t1" "/tmp/loop1-t1.sock"), .enter complete, .enter complete, .advance 0 now, .advance 1 now,
    .advance 0 now, .advance 0 now, .advance 0 now]

def duplicated : World Kernel Act Flight :=
  (run (requests _ sampleSerde).step (World.start (freshKernel [])) duplicates).getD (World.start (freshKernel []))

theorem requestsAccountableDuplicates :
    duplicated.parties.countP (Flight.completes "t1") = 1 ∧
      (∀ taskId, duplicated.parties.countP (Flight.completes taskId) ≤ registrations taskId duplicated.log) ∧
      duplicated.shared = (requests _ sampleSerde).replay (freshKernel []) duplicated.log :=
  have accountable := @requestsAccountable _ _ sampleSerde (freshKernel []) rfl duplicated
    (reachableEnd (by decide +kernel))
  ⟨by decide +kernel, accountable.2.2.2⟩

end ArosKernel.Supervisor
