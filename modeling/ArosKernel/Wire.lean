import ArosKernel.Network
import Mathlib.Data.Finset.Sort
import Mathlib.Data.String.Basic

/-! A submission from the envelope its peer encodes to the counters of the governor, among
any other traffic on the socket. -/
namespace ArosKernel.Dispatch
open Supervisor Store Envelope Governor Transition Interleaving Serving KernelRequestHandler

/-! What the derived codecs are used for: they read back what they write. -/
structure Derived (serde : Serde) (order : VarOrder) : Prop where
  envelope : ∀ env : TaskEnvelope, env.resourceBudget.budgetWarningThreshold.isFinite = true →
    serde.envelope ((TaskEnvelope.format order).encode env) = .ok env
  refused : ∀ env : TaskEnvelope, env.resourceBudget.budgetWarningThreshold.isFinite = false →
    ∃ e, serde.envelope ((TaskEnvelope.format order).encode env) = .error e

/-! What a check sees: each value it loads is one the governor held while the request
stood on the socket. It loads the memory of its own tier twice, the second time for the sum. -/

abbrev SocketNet (S : Type) := Net (RequestHandler S) Act Flight String JsonRpcResponse

def Flight.isOpen (f : Flight) : Bool :=
  match f.phase with
  | .answered _ => false
  | _ => true

def moments {S : Type} (t : Trail (SocketNet S)) (p : Nat) : List ResourceGovernor :=
  (t.states.filter (fun net => net.world.parties[p]?.any Flight.isOpen)).map (fun net => net.world.shared.governor)

def rssHeld (gov : ResourceGovernor) (tier : Priority) : UInt64 :=
  ((gov.tierUsage tier).map TierUsage.rssAllocatedMb).getD 0

structure Sampled (kernel : ResourceGovernor) (held : List ResourceGovernor) (tier : Priority) (seen : ResourceGovernor) :
    Prop where
  config : seen.config = kernel.config
  budgets : ∀ p, seen.tierBudgets p = kernel.tierBudgets p
  pressure : ∃ gov ∈ held, seen.pressureLevel = gov.pressureLevel
  active : ∃ gov ∈ held, (seen.tierUsage tier).map TierUsage.activeTasks = (gov.tierUsage tier).map TierUsage.activeTasks
  tokens : ∃ gov ∈ held,
    (seen.tierUsage tier).map TierUsage.tokensUsedThisHour = (gov.tierUsage tier).map TierUsage.tokensUsedThisHour
  rss : ∃ gov ∈ held,
    (seen.tierUsage tier).map TierUsage.rssAllocatedMb = (gov.tierUsage tier).map TierUsage.rssAllocatedMb
  total : ∃ a ∈ held, ∃ b ∈ held, ∃ c ∈ held,
    seen.totalRss = rssHeld a .p0Critical + rssHeld b .p1Normal + rssHeld c .p2Background

instance (kernel : ResourceGovernor) (held : List ResourceGovernor) (tier : Priority) (seen : ResourceGovernor) :
    Decidable (Sampled kernel held tier seen) :=
  decidable_of_iff (seen.config = kernel.config ∧ (∀ p, seen.tierBudgets p = kernel.tierBudgets p) ∧
    (∃ gov ∈ held, seen.pressureLevel = gov.pressureLevel) ∧
    (∃ gov ∈ held, (seen.tierUsage tier).map TierUsage.activeTasks = (gov.tierUsage tier).map TierUsage.activeTasks) ∧
    (∃ gov ∈ held,
      (seen.tierUsage tier).map TierUsage.tokensUsedThisHour = (gov.tierUsage tier).map TierUsage.tokensUsedThisHour) ∧
    (∃ gov ∈ held, (seen.tierUsage tier).map TierUsage.rssAllocatedMb = (gov.tierUsage tier).map TierUsage.rssAllocatedMb) ∧
    ∃ a ∈ held, ∃ b ∈ held, ∃ c ∈ held,
      seen.totalRss = rssHeld a .p0Critical + rssHeld b .p1Normal + rssHeld c .p2Background)
    ⟨fun h => ⟨h.1, h.2.1, h.2.2.1, h.2.2.2.1, h.2.2.2.2.1, h.2.2.2.2.2.1, h.2.2.2.2.2.2⟩,
      fun h => ⟨h.1, h.2, h.3, h.4, h.5, h.6, h.7⟩⟩

theorem Sampled.more {kernel : ResourceGovernor} {held held' : List ResourceGovernor} {tier : Priority}
    {seen : ResourceGovernor} (sampled : Sampled kernel held tier seen) (grown : held ⊆ held') :
    Sampled kernel held' tier seen := by
  obtain ⟨config, budgets, ⟨g, inG, pressure⟩, ⟨x, inX, active⟩, ⟨y, inY, tokens⟩, ⟨z, inZ, rss⟩, total⟩ := sampled
  obtain ⟨a, inA, b, inB, c, inC, sum⟩ := total
  exact ⟨config, budgets, ⟨g, grown inG, pressure⟩, ⟨x, grown inX, active⟩, ⟨y, grown inY, tokens⟩, ⟨z, grown inZ, rss⟩,
    a, grown inA, b, grown inB, c, grown inC, sum⟩

variable {S : Type} [StateStore S] {serde : Serde} {decode : String → Except String JsonRpcRequest}

def submission (serde : Serde) (net : SocketNet S) (i : Nat) : Option (Nat × TaskEnvelope) := do
  let c ← net.connections[i]?
  let p ← c.current.join
  let f ← net.world.parties[p]?
  match f.method, f.phase, submitParams serde.envelope f.params with
  | .taskSubmit, .received, .ok env => some (p, env)
  | _, _, _ => none

-- The loads of a check give values that were there to load.
def Loads (serde : Serde) (t : Trail (SocketNet S)) : Event Act Circumstance String → Prop
  | .advance i c =>
    match submission serde t.now i with
    | some (p, env) => Sampled t.now.world.shared.governor (moments t p) env.priority c.seen
    | none => True
  | _ => True

instance (t : Trail (SocketNet S)) (event : Event Act Circumstance String) : Decidable (Loads serde t event) := by
  unfold Loads
  split
  · split <;> infer_instance
  · infer_instance

def Decides (serde : Serde) (kernel : ResourceGovernor) (held : List ResourceGovernor) (f : Flight) (acts : List Act) :
    Prop :=
  match f.phase with
  | .received => acts = []
  | .counting pending v => ∃ seen env, submitParams serde.envelope f.params = .ok env ∧
      Sampled kernel held env.priority seen ∧ checkEnvelope seen env = .admitted ∧ v = admittedAnswer env.taskId ∧
      acts ++ pending.map countAct = (startOps env).map countAct
  | .answered a => (∃ e, submitParams serde.envelope f.params = .error e ∧ a = .error e ∧ acts = []) ∨
      ∃ seen env, submitParams serde.envelope f.params = .ok env ∧ Sampled kernel held env.priority seen ∧
        a = answer env (checkEnvelope seen env) ∧
        acts = if checkEnvelope seen env = .admitted then (startOps env).map countAct else []
  | _ => False

theorem Decides.more {kernel : ResourceGovernor} {held held' : List ResourceGovernor} {f : Flight} {acts : List Act}
    (decides : Decides serde kernel held f acts) (grown : held ⊆ held') : Decides serde kernel held' f acts := by
  rcases f with ⟨method, params, phase⟩
  cases phase with
  | received => exact decides
  | decoded trigger => exact decides
  | checked trigger => exact decides
  | counting pending v =>
    obtain ⟨seen, env, read, sampled, rest⟩ := decides
    exact ⟨seen, env, read, sampled.more grown, rest⟩
  | answered a =>
    rcases decides with refused | ⟨seen, env, read, sampled, rest⟩
    · exact .inl refused
    · exact .inr ⟨seen, env, read, sampled.more grown, rest⟩

theorem receiveDecides {kernel : ResourceGovernor} {held : List ResourceGovernor} (c : Circumstance)
    (params : Option Value)
    (sampled : ∀ env, submitParams serde.envelope params = .ok env → Sampled kernel held env.priority c.seen) :
    Decides serde kernel held ⟨.taskSubmit, params, Flight.submitted serde c.seen params⟩ [] := by
  unfold Flight.submitted
  cases read : submitParams serde.envelope params with
  | error e => exact .inl ⟨e, read, rfl, rfl⟩
  | ok env =>
    dsimp only
    by_cases admitted : checkEnvelope c.seen env = .admitted
    · rw [if_pos admitted]
      exact ⟨c.seen, env, read, sampled env read, admitted, rfl, rfl⟩
    · rw [if_neg admitted]
      exact .inr ⟨c.seen, env, read, sampled env read, rfl, (if_neg admitted).symm⟩

theorem sectionDecides {kernel : ResourceGovernor} {held : List ResourceGovernor} {c : Circumstance} {h : RequestHandler S}
    {f f' : Flight} {acts before : List Act} (method : f.method = .taskSubmit) (decides : Decides serde kernel held f before)
    (sampled : f.phase = .received → ∀ env, submitParams serde.envelope f.params = .ok env →
      Sampled kernel held env.priority c.seen)
    (next : f.section_ serde c h = some (f', acts)) : Decides serde kernel held f' (before ++ acts) := by
  rcases f with ⟨_, params, phase⟩
  cases method
  cases phase with
  | received =>
    cases next
    have nothing : before = [] := decides
    rw [nothing]
    exact receiveDecides c params (sampled rfl)
  | decoded trigger => exact decides.elim
  | checked trigger => exact decides.elim
  | counting pending v =>
    obtain ⟨seen, env, read, saw, admitted, value, all⟩ := decides
    cases pending with
    | nil =>
      cases next
      refine .inr ⟨seen, env, read, saw, ?_, ?_⟩
      · rw [admitted, value]
        rfl
      · rw [if_pos admitted, ← all]
        rfl
    | cons op rest =>
      cases next
      refine ⟨seen, env, read, saw, admitted, value, ?_⟩
      rw [← all, List.append_assoc]
      rfl
  | answered a => cases next

def SameLimits (kernel : ResourceGovernor) (h : RequestHandler S) : Prop :=
  h.governor.config = kernel.config ∧ ∀ p, h.governor.tierBudgets p = kernel.tierBudgets p

theorem performLimits {kernel : ResourceGovernor} (act : Act) {h : RequestHandler S} (same : SameLimits kernel h) :
    SameLimits kernel (act.perform serde h) := by
  cases act <;> exact same

theorem actsLimits {kernel : ResourceGovernor} (acts : List Act) {h : RequestHandler S} (same : SameLimits kernel h) :
    SameLimits kernel (acts.foldl (Act.perform serde) h) := by
  induction acts generalizing h with
  | nil => exact same
  | cons act rest ih => exact ih (performLimits act same)

theorem requestsExplain (kernel : ResourceGovernor) :
    (requests S serde).Keeps (Flight.Explains serde) (fun h _ => SameLimits kernel h) where
  enter f fresh := by
    rcases f with ⟨method, params, phase⟩
    cases phase with
    | received => rfl
    | _ => contradiction
  outside _ _ act same _ := performLimits act same
  mine c h f f' acts before explains next := Flight.sectionExplains c h f f' acts before explains next
  ours _ _ _ _ _ acts _ _ same _ _ := actsLimits acts same

structure Chosen (serde : Serde) (opened : RequestHandler S) (t : Trail (SocketNet S)) : Prop where
  sound : (requests S serde).Sound (Flight.Explains serde) (fun h _ => SameLimits opened.governor h) opened t.now.world
  decides : ∀ p f, t.now.world.parties[p]? = some f → f.method = .taskSubmit →
    Decides serde opened.governor (moments t p) f (own p t.now.world.log)

omit [StateStore S] in
theorem momentsGrow {t u : Trail (SocketNet S)} (past : u.past = t.states) (p : Nat) : moments t p ⊆ moments u p := by
  intro gov member
  obtain ⟨net, inside, same⟩ := List.mem_map.mp member
  obtain ⟨before, open_⟩ := List.mem_filter.mp inside
  refine List.mem_map.mpr ⟨net, List.mem_filter.mpr ⟨?_, open_⟩, same⟩
  rw [Trail.states, past]
  exact List.mem_cons_of_mem u.now before

theorem stepChosen {opened : RequestHandler S} (t : Trail (SocketNet S)) (event : Event Act Circumstance String)
    (u : Trail (SocketNet S)) (chosen : Chosen serde opened t)
    (next : trailStep (kernelServer S serde decode).step (Loads serde) t event = some u) : Chosen serde opened u := by
  obtain ⟨loads, moved, past⟩ := trailStepSome next
  have grown := momentsGrow past
  rcases Server.stepWorld moved with same | ⟨move, stepped, mover⟩
  · refine ⟨same ▸ chosen.sound, fun p f here method => ?_⟩
    rw [same] at here ⊢
    exact (chosen.decides p f here method).more (grown p)
  · refine ⟨(requestsExplain opened.governor).step _ _ _ _ chosen.sound stepped, fun p f' here method => ?_⟩
    cases System.stepMoved chosen.sound.authors stepped here with
    | entered fresh silent =>
      rw [silent]
      rcases f' with ⟨_, params, phase⟩
      cases phase with
      | received => rfl
      | _ => contradiction
    | kept before log =>
      rw [log]
      exact (chosen.decides p f' before method).more (grown p)
    | @advanced f c acts by_ before section_ log =>
      obtain ⟨i, connection, asked, there, current⟩ := mover p c by_
      have same : f.method = .taskSubmit := (congrArg Prod.fst (sectionAsks section_)).symm.trans method
      rw [log]
      refine (sectionDecides same (chosen.decides p f before same) (fun phase env read => ?_) section_).more (grown p)
      have found : submission serde t.now i = some (p, env) := by
        simp [submission, there, current, before, same, phase, read]
      rw [asked] at loads
      simp only [Loads, found] at loads
      obtain ⟨config, budgets⟩ := chosen.sound.ours
      exact ⟨loads.config.trans config, fun tier => (loads.budgets tier).trans (budgets tier), loads.pressure, loads.active,
        loads.tokens, loads.rss, loads.total⟩

theorem startChosen (opened : RequestHandler S) : Chosen serde opened ⟨Net.start opened, []⟩ :=
  ⟨System.Keeps.start opened ⟨rfl, fun _ => rfl⟩, fun p f here => by simp [Net.start, World.start] at here⟩

theorem submitParamsEncoded {order : VarOrder} (derived : Derived serde order) {env : TaskEnvelope}
    (finite : env.resourceBudget.budgetWarningThreshold.isFinite = true) :
    submitParams serde.envelope (some ((TaskEnvelope.format order).encode env)) =
      match env.validate with
      | .error e => .error (errorInvalidParams, s!"envelope validation failed: {e.text}")
      | .ok () => .ok env := by
  cases valid : env.validate <;>
    simp only [submitParams, required, bind, Except.bind, derived.envelope env finite, valid]

theorem submitParamsRefused {order : VarOrder} (derived : Derived serde order) {env : TaskEnvelope}
    (infinite : env.resourceBudget.budgetWarningThreshold.isFinite = false) :
    ∃ e : String, submitParams serde.envelope (some ((TaskEnvelope.format order).encode env)) =
      .error (errorInvalidParams, s!"invalid TaskEnvelope: {e}") := by
  obtain ⟨e, failed⟩ := derived.refused env infinite
  exact ⟨e, by simp only [submitParams, required, bind, Except.bind, failed]⟩

/- The validation keeps out every threshold JSON cannot carry but a NaN. -/
theorem validatedFinite {env : TaskEnvelope} (valid : env.validate = .ok ()) :
    env.resourceBudget.budgetWarningThreshold.isFinite = true ∨ env.resourceBudget.budgetWarningThreshold.isNaN = true := by
  obtain ⟨_, _, _, ⟨notBelow, notAbove⟩, _⟩ := TaskEnvelope.validateOk.mp valid
  generalize env.resourceBudget.budgetWarningThreshold = x at notBelow notAbove ⊢
  cases number : x.isNaN with
  | true => exact .inr rfl
  | false =>
    have zero : F64.zero.isNaN = false := by decide
    have one : F64.one.isNaN = false := by decide
    have zeroSize : F64.zero.magnitude = 0 := by decide
    have oneSize : F64.one.magnitude = 0x3FF0000000000000 := by decide
    simp only [F64.lt, number, zero, one, zeroSize, oneSize, Bool.not_false, Bool.true_and, decide_eq_false_iff_not,
      Int.not_lt] at notBelow notAbove
    refine .inl (bne_iff_ne.mpr (fun full => ?_))
    have part : (x.bits &&& 0x7FF0000000000000).toNat ≤ x.bits.toNat := by
      rw [UInt64.toNat_and]
      exact Nat.and_le_left
    rw [full] at part
    have part : 0x7FF0000000000000 ≤ x.bits.toNat := part
    unfold F64.magnitude at notBelow notAbove
    split at notBelow
    · rename_i small
      rw [if_pos small] at notAbove
      omega
    · have negative : (x.bits - 0x8000000000000000).toNat = 0 := by omega
      have bits : x.bits = 0x8000000000000000 := by
        have difference : x.bits - 0x8000000000000000 = 0 := UInt64.toNat_inj.mp negative
        exact sub_eq_zero.mp difference
      rw [bits] at full
      exact absurd full (by decide)

def Decided (kernel : ResourceGovernor) (t : Trail (SocketNet S)) (ticket : Option Nat) (env : TaskEnvelope)
    (id : UInt64) (response : JsonRpcResponse) : Prop :=
  if env.resourceBudget.budgetWarningThreshold.isFinite then
    match env.validate with
    | .error e => response = .failure (.nat id) errorInvalidParams s!"envelope validation failed: {e.text}" none
    | .ok () => ∃ p seen, ticket = some p ∧ Sampled kernel (moments t p) env.priority seen ∧
        response = RpcServer.respond (.nat id) (answer env (checkEnvelope seen env)) ∧
        own p t.now.world.log = if checkEnvelope seen env = .admitted then (startOps env).map countAct else []
  else (∃ e : String, response = .failure (.nat id) errorInvalidParams s!"invalid TaskEnvelope: {e}" none) ∧
    (env.validate = .ok () → env.resourceBudget.budgetWarningThreshold.isNaN = true)

theorem submitsDecided {order : VarOrder} (derived : Derived serde order) {opened : RequestHandler S}
    {t : Trail (SocketNet S)}
    (reached : Reachable (trailStep (kernelServer S serde decode).step (Loads serde)) ⟨Net.start opened, []⟩ t)
    {c : Connection String JsonRpcResponse} (member : c ∈ t.now.connections) {j : Nat} {line : String} {env : TaskEnvelope}
    {id : UInt64} {response : JsonRpcResponse} (arrived : c.arrived[j]? = some line)
    (carries : decode line = .ok (.new "task.submit" (some ((TaskEnvelope.format order).encode env)) id))
    (spoken : c.written[j]? = some response) :
    ∃ ticket, c.tickets[j]? = some ticket ∧ Decided opened.governor t ticket env id response := by
  have served := linesServed (trailReachable reached)
  have chosen := reachableInvariant stepChosen (startChosen opened) reached
  obtain ⟨_, ticket, arrived', ticketed, answered⟩ := (served.inOrder c member).spoken spoken
  cases arrived.symm.trans arrived'
  refine ⟨ticket, ticketed, ?_⟩
  have known : fromStr "task.submit" = some RpcMethod.taskSubmit := rfl
  simp only [Answered, carries, JsonRpcRequest.new, known] at answered
  obtain ⟨p, a, same, here, said, _⟩ := answered
  have decides := chosen.decides p _ here rfl
  unfold Decided
  cases finite : env.resourceBudget.budgetWarningThreshold.isFinite with
  | false =>
    obtain ⟨e, failed⟩ := submitParamsRefused derived finite
    simp only [Decides, failed] at decides
    rw [if_neg Bool.false_ne_true]
    refine ⟨⟨e, ?_⟩, fun valid => ?_⟩
    · rcases decides with ⟨_, read, same, _⟩ | ⟨_, _, read, _⟩
      · cases read
        rw [said, same]
        rfl
      · contradiction
    · rcases validatedFinite valid with proper | nan
      · rw [finite] at proper
        contradiction
      · exact nan
  | true =>
    rw [if_pos rfl]
    have read := submitParamsEncoded derived finite
    cases valid : env.validate with
    | error e =>
      simp only [valid] at read
      simp only [Decides, read] at decides
      rcases decides with ⟨_, wrong, same, _⟩ | ⟨_, _, wrong, _⟩
      · cases wrong
        rw [said, same]
        rfl
      · contradiction
    | ok _ =>
      simp only [valid] at read
      simp only [Decides, read] at decides
      rcases decides with ⟨_, wrong, _⟩ | ⟨seen, _, right, sampled, same', acts⟩
      · contradiction
      · cases right
        exact ⟨p, seen, same, sampled, by rw [said, same'], acts⟩

open JsonFormat Format Fields

theorem budgetExact : ResourceBudget.format.Exact := by
  have rss : (member "max_rss_mb" u32).Exact := memberExact _ (exactOfKept (fun _ => trivial))
  have wall : (member "max_wall_time" durationFormat).Exact := memberExact _ (exactOfKept (fun _ => trivial))
  have tokens : (member "max_tokens" u64).Exact := memberExact _ (exactOfKept (fun _ => trivial))
  exact recordExact (bothExact _ rss (bothExact _ wall (bothExact _ tokens (memberExact _ f64Exact))))

theorem envelopeExact (order : VarOrder) : (TaskEnvelope.format order).Exact := by
  have text (name : String) : (member name string).Exact := memberExact name (exactOfKept (fun _ => trivial))
  have spec : (member "task_spec" (TaskSpec.format order)).Exact :=
    memberExact _ (exactOfKept (fun t => by simp [TaskSpec.format]))
  have zone : (member "security_zone" SecurityZone.format).Exact := memberExact _ (exactOfKept (fun _ => trivial))
  have priority : (member "priority" priorityFormat).Exact := memberExact _ (exactOfKept (fun _ => trivial))
  have tools : (member "tool_endpoints" (list ToolEndpoint.format)).Exact :=
    memberExact _ (exactOfKept (fun ts => by simp [ToolEndpoint.format]))
  have checkpoint : (member "checkpoint_policy" CheckpointPolicy.format).Exact :=
    memberExact _ (exactOfKept (fun _ => ⟨trivial, trivial⟩))
  have version : (member "envelope_version" u32).Exact := memberExact _ (exactOfKept (fun _ => trivial))
  exact recordExact (bothExact _ (text _) (bothExact _ (text _) (bothExact _ spec (bothExact _ zone (bothExact _ priority
    (bothExact _ (memberExact _ budgetExact) (bothExact _ tools (bothExact _ checkpoint
      (bothExact _ (text _) version)))))))))

def readFormat {α : Type} (f : Format α) (v : Value) : Except String α :=
  match f.decode v with
  | some a => .ok a
  | none => .error "invalid type"

def formatSerde (order : VarOrder) : Serde :=
  { envelope := readFormat (TaskEnvelope.format order), trigger := readFormat (LoopTrigger.format order),
    triggerValue := fun t => .ok ((LoopTrigger.format order).encode t), display := fun _ => "0.15" }

theorem formatDerived (order : VarOrder) : Derived (formatSerde order) order where
  envelope env finite := by
    have back := ((TaskEnvelope.format order).keptIff env).mpr ((envelopeKept order env).mpr finite)
    show readFormat _ _ = _
    rw [readFormat, back]
  refused env infinite := by
    have lost : ¬ (TaskEnvelope.format order).Kept env := by
      rw [envelopeKept, infinite]
      exact Bool.false_ne_true
    refine ⟨"invalid type", ?_⟩
    show readFormat _ _ = _
    rw [readFormat, (envelopeExact order).refused lost]

def sortedVars : VarOrder where
  keys m := if m.keys = ∅ then [] else m.keys.sort (· ≤ ·)
  nodup m := by
    split
    · exact List.nodup_nil
    · exact Finset.sort_nodup ..
  complete m key := by
    split
    · rename_i empty
      rw [← Finmap.mem_keys, empty]
      simp
    · rw [Finset.mem_sort, Finmap.mem_keys]

def firstTask : TaskEnvelope := .new "t1" "dag-1" ⟨"build", "build it", none, ∅, 0⟩ .green .p1Normal "2024-01-01T00:00:00Z"

def submitLine : String := "task.submit of t1"

def readLines (line : String) : Except String JsonRpcRequest :=
  if line = submitLine then .ok (.new "task.submit" (some ((TaskEnvelope.format sortedVars).encode firstTask)) 1)
  else RpcServer.decodeLines line

def submitting : List (Event Act Circumstance String) :=
  let now : Circumstance := ⟨declared, .new Governor.daemonConfig⟩
  let torn : Circumstance := ⟨declared, (ResourceGovernor.new Governor.daemonConfig).updatePressure .warn⟩
  [.connect, .connect, .arrive 0 submitLine, .arrive 1 submitLine, .take 0, .take 1, .advance 1 now, .advance 1 now,
    .outside (.updatePressure .warn), .advance 0 torn, .advance 0 now, .advance 0 now, .advance 0 now, .reply 0 true]

def submitted : Trail (SocketNet FallibleStore) :=
  (run (trailStep (kernelServer _ (formatSerde sortedVars) readLines).step (Loads (formatSerde sortedVars)))
    ⟨Net.start (freshKernel []), []⟩ submitting).getD ⟨Net.start (freshKernel []), []⟩

theorem submitsDecidedFirst : ∃ c ∈ submitted.now.connections, ∃ response ticket, c.written[0]? = some response ∧
    c.tickets[0]? = some ticket ∧ Decided (freshKernel []).governor submitted ticket firstTask 1 response := by
  have sent : submitted.now.connections[0]?.bind (fun c => c.arrived[0]?) = some submitLine := by decide +kernel
  have heard : (submitted.now.connections[0]?.bind (fun c => c.written[0]?)).isSome = true := by decide +kernel
  obtain ⟨c, here, arrived⟩ := Option.bind_eq_some_iff.mp sent
  rw [here] at heard
  obtain ⟨response, spoken⟩ := Option.isSome_iff_exists.mp heard
  have member := List.mem_of_getElem? here
  obtain ⟨ticket, ticketed, decided⟩ := submitsDecided (formatDerived sortedVars) (reachableEnd (by decide +kernel)) member
    arrived (show readLines submitLine = _ from if_pos rfl) spoken
  exact ⟨c, member, response, ticket, spoken, ticketed, decided⟩

end ArosKernel.Dispatch
