import ArosKernel.Wire

/-! The ids `handle_loop_trigger` gives to meta cycles, over all connections at once. The
counter behind them is shared with the cancellations. -/
namespace ArosKernel.Dispatch
open Supervisor Store Transition Interleaving Serving KernelRequestHandler

def grantedCycle (v : Value) : Option String :=
  if (v.get "status").bind Value.asStr = some "authorized" then (v.get "cycle_id").bind Value.asStr else none

def draws : Act → Bool
  | .nextSeq => true
  | _ => false

def drawn (log : List (Option Nat × Act)) : Nat := log.countP (fun e => draws e.2)

variable {S : Type} [StateStore S] {serde : Serde} {decode : String → Except String JsonRpcRequest}

def seqAfter (opened : RequestHandler S) (log : List (Option Nat × Act)) : UInt64 := opened.triggerSeq + UInt64.ofNat (drawn log)

def cycleName (seq : UInt64) : String := s!"cycle-{seq}"

def Counted (opened h : RequestHandler S) (log : List (Option Nat × Act)) : Prop := h.triggerSeq = seqAfter opened log

def Named (opened : RequestHandler S) (i : Nat) (f : Flight) (log : List (Option Nat × Act)) : Prop :=
  ∀ v cycleId, f.phase = .answered (.ok v) → grantedCycle v = some cycleId →
    ∃ before after, log = before ++ (some i, .nextSeq) :: after ∧ cycleId = cycleName (seqAfter opened before)

theorem cycleNameInj {a b : UInt64} (same : cycleName a = cycleName b) : a = b := by
  have digits : "cycle-" ++ Nat.repr a.toNat = "cycle-" ++ Nat.repr b.toNat := same
  have equal := congrArg String.toList digits
  rw [String.toList_append, String.toList_append] at equal
  have numeral := List.append_cancel_left equal
  rw [Nat.toList_repr, Nat.toList_repr] at numeral
  have number := congrArg (fun cs => Nat.ofDigitChars 10 cs 0) numeral
  simp only [Nat.ofDigitChars_ten_toDigits] at number
  exact UInt64.toNat_inj.mp number

theorem performCounts (opened h : RequestHandler S) (log : List (Option Nat × Act)) (author : Option Nat) (act : Act)
    (counted : Counted opened h log) : Counted opened (act.perform serde h) (log ++ [(author, act)]) := by
  unfold Counted seqAfter drawn at *
  rw [List.countP_append, List.countP_singleton]
  cases act with
  | nextSeq =>
    show h.triggerSeq + 1 = _
    have one : (if draws (author, Act.nextSeq).2 = true then 1 else 0) = 1 := rfl
    rw [counted, one, UInt64.ofNat_add, UInt64.add_assoc]
    rfl
  | _ => exact counted

theorem actsCount (opened h : RequestHandler S) (log : List (Option Nat × Act)) (i : Nat) (acts : List Act)
    (counted : Counted opened h log) :
    Counted opened (acts.foldl (Act.perform serde) h) (log ++ acts.map (fun a => (some i, a))) := by
  induction acts generalizing h log with
  | nil =>
    rw [List.map_nil, List.append_nil]
    exact counted
  | cons act rest ih =>
    rw [List.map_cons, List.append_cons, List.foldl_cons]
    exact ih _ _ (performCounts opened h log (some i) act counted)

theorem requestsCount (opened : RequestHandler S) :
    (requests S serde).Keeps (Flight.Explains serde) (Counted opened) where
  enter := (requestsKeep opened).enter
  mine := (requestsKeep opened).mine
  outside h log act counted _ := performCounts opened h log none act counted
  ours _ h log _ _ acts _ i counted _ _ := actsCount opened h log i acts counted

def Ungranted (answer : Except Failure Value) : Prop := ∀ v, answer = .ok v → grantedCycle v = none

theorem errorUngranted (e : Failure) : Ungranted (.error e) := by
  intro v same
  cases same

theorem statusUngranted {s : String} (other : s ≠ "authorized") (members : List (String × Value)) :
    Ungranted (.ok (.object (("status", .string s) :: members))) := by
  intro v same
  cases same
  exact if_neg (fun granted => other (Option.some.inj granted))

theorem submitUngranted (env : Envelope.TaskEnvelope) (decision : Governor.AdmissionDecision) :
    Ungranted (answer env decision) := by
  cases decision with
  | admitted => exact statusUngranted (by decide) _
  | queued reason => exact statusUngranted (by decide) _
  | throttled reason => exact errorUngranted _
  | shed reason => exact errorUngranted _

omit [StateStore S] in
theorem progressUngranted (h : RequestHandler S) (params : Option Value) : Ungranted (h.handleTaskProgress params).1 := by
  unfold handleTaskProgress
  cases progressParams params with
  | error e => exact errorUngranted e
  | ok taskId =>
    dsimp only
    split
    · exact statusUngranted (by decide) _
    · exact errorUngranted _

def PhaseUngranted (phase : Phase) : Prop := ∀ answer, phase = .answered answer → Ungranted answer

theorem answeredUngranted {answer : Except Failure Value} (ungranted : Ungranted answer) :
    PhaseUngranted (.answered answer) := by
  intro other same
  cases same
  exact ungranted

theorem countingUngranted (pending : List (Governor.Priority × CounterOp)) (v : Value) :
    PhaseUngranted (.counting pending v) := by
  intro other same
  cases same

theorem triggeredUngranted (v : Option Value) : PhaseUngranted (Flight.triggered serde v) := by
  unfold Flight.triggered
  cases triggerParams serde v with
  | error e => exact answeredUngranted (errorUngranted e)
  | ok trigger =>
    intro other same
    cases same

omit [StateStore S] in
theorem receiveUngranted (c : Circumstance) (h : RequestHandler S) (method : RpcMethod) (params : Option Value) :
    PhaseUngranted (Flight.receive serde c h method params).1 := by
  cases method with
  | ping =>
    refine answeredUngranted (fun v same => ?_)
    cases same
    exact if_neg (by decide)
  | taskProgress => exact answeredUngranted (progressUngranted h params)
  | loopTrigger => exact triggeredUngranted params
  | taskSubmit =>
    simp only [Flight.receive, Flight.submitted]
    cases submitParams serde.envelope params with
    | error e => exact answeredUngranted (errorUngranted e)
    | ok env =>
      dsimp only
      split
      · exact countingUngranted _ _
      · exact answeredUngranted (submitUngranted env _)
  | taskComplete =>
    simp only [Flight.receive]
    rcases completeParams params with e | ⟨taskId, tokensUsed⟩
    · exact answeredUngranted (errorUngranted e)
    · dsimp only
      split
      · exact countingUngranted _ _
      · exact answeredUngranted (errorUngranted _)
  | taskCancel =>
    simp only [Flight.receive]
    rcases cancelParams params with e | ⟨taskId, reason⟩
    · exact answeredUngranted (errorUngranted e)
    · dsimp only
      cases serde.triggerValue (.new h.triggerSeq .kernel .loop1Agentic (.taskCancel taskId reason)) with
      | error e => exact answeredUngranted (errorUngranted _)
      | ok wrapped => exact triggeredUngranted (some wrapped)

theorem persistUngranted (store : S) (c : MetaCycle) : Ungranted (c.persist serde.display store).1 := by
  rw [MetaCycle.persistPutAll]
  cases (putAll store (c.writes serde.display)).1 with
  | error e => exact errorUngranted _
  | ok _ => exact statusUngranted (by decide) _

theorem acceptedUngranted {method : RpcMethod} {params : Option Value} {v : Value} {acts : List Act}
    (accepted : Accepted serde method params v acts) : Ungranted (.ok v) := by
  cases accepted with
  | admitted read => exact statusUngranted (by decide) _
  | completed read => exact statusUngranted (by decide) _

theorem dispatchGrants {h : RequestHandler S} {trigger : LoopTrigger} {v : Value} {cycleId : String}
    (given : (h.dispatch serde trigger).1 = .ok v) (granted : grantedCycle v = some cycleId) :
    Flight.dispatchActs h trigger = [.nextSeq] ∧ cycleId = cycleName h.triggerSeq := by
  have refused : ∀ answer, Ungranted answer → (h.dispatch serde trigger).1 ≠ answer := by
    intro answer ungranted same
    rw [ungranted v (same.symm.trans given)] at granted
    cases granted
  unfold RequestHandler.dispatch at given refused
  unfold Flight.dispatchActs
  cases kind : trigger.kind with
  | metaCycleRequest source =>
    simp only [kind, Except.ok.injEq] at given
    rw [← given] at granted
    exact ⟨rfl, (Option.some.inj granted).symm⟩
  | metaCycleComplete id policyChanged driftScore =>
    simp only [kind] at refused
    split at refused
    · exact absurd rfl (refused _ (errorUngranted _))
    · exact absurd rfl (refused _ (persistUngranted h.stateStore ⟨id, policyChanged, driftScore⟩))
  | taskCancel taskId reason =>
    simp only [kind] at refused
    split at refused
    · exact absurd rfl (refused _ (statusUngranted (by decide) _))
    · exact absurd rfl (refused _ (errorUngranted _))
  | _ =>
    simp only [kind] at refused
    exact absurd rfl (refused _ (statusUngranted (by decide) _))

theorem requestsName (opened : RequestHandler S) :
    (requests S serde).Notes (Flight.Explains serde) (Counted opened) (Named opened) where
  enter i f log fresh v cycleId phase := by
    rcases f with ⟨method, params, _⟩
    cases phase
    contradiction
  later i f log more named v cycleId phase granted := by
    obtain ⟨before, after, same, name⟩ := named v cycleId phase granted
    exact ⟨before, after ++ more, by rw [same, List.append_assoc, List.cons_append], name⟩
  advance c h log f f' acts before i counted explains named next v cycleId phase granted := by
    have none_ : ∀ answer, Ungranted answer → answer ≠ .ok v := by
      intro answer ungranted same
      rw [ungranted v same] at granted
      cases granted
    have next : f.section_ serde c h = some (f', acts) := next
    rcases f with ⟨method, params, from_⟩
    cases from_ with
    | received =>
      cases next
      exact absurd rfl (none_ _ (receiveUngranted c h method params _ phase))
    | decoded trigger =>
      simp only [Flight.section_] at next
      split at next <;> (cases next; cases phase)
    | checked trigger =>
      cases next
      obtain ⟨one, name⟩ := dispatchGrants (Phase.answered.inj phase) granted
      refine ⟨log, [], by rw [one]; rfl, ?_⟩
      rw [name, show h.triggerSeq = seqAfter opened log from counted]
    | counting pending value =>
      cases pending with
      | nil =>
        cases next
        have accepted : Accepted serde method params value (before ++ []) := explains
        exact absurd (Phase.answered.inj phase) (none_ _ (acceptedUngranted accepted))
      | cons op rest =>
        cases next
        cases phase
    | answered answer => cases next

theorem drawnGrows (before rest after : List (Option Nat × Act)) (i j : Nat) :
    drawn before < drawn (before ++ (some i, .nextSeq) :: rest) ∧
    drawn (before ++ (some i, .nextSeq) :: rest) < drawn ((before ++ (some i, .nextSeq) :: rest) ++ (some j, .nextSeq) :: after) := by
  have one : ∀ (k : Nat) (tail : List (Option Nat × Act)), drawn ((some k, .nextSeq) :: tail) = drawn tail + 1 :=
    fun k tail => List.countP_cons_of_pos rfl
  have split : ∀ first second : List (Option Nat × Act), drawn (first ++ second) = drawn first + drawn second :=
    fun first second => List.countP_append ..
  rw [split _ ((some j, .nextSeq) :: after), split before, one, one]
  omega

omit [StateStore S] in
theorem namesDiffer {opened : RequestHandler S} {log before before' after after' : List (Option Nat × Act)} {i j : Nat}
    (few : drawn log ≤ 2 ^ 64) (first : log = before ++ (some i, .nextSeq) :: after)
    (second : log = before' ++ (some j, .nextSeq) :: after') (other : i ≠ j) :
    cycleName (seqAfter opened before) ≠ cycleName (seqAfter opened before') := by
  intro same
  have counts : UInt64.ofNat (drawn before) = UInt64.ofNat (drawn before') := by
    have sums : opened.triggerSeq + UInt64.ofNat (drawn before) = opened.triggerSeq + UInt64.ofNat (drawn before') :=
      cycleNameInj same
    exact add_left_cancel sums
  have equal := UInt64.toNat_inj.mpr counts
  rw [UInt64.toNat_ofNat', UInt64.toNat_ofNat'] at equal
  rcases List.append_eq_append_iff.mp (first.symm.trans second) with ⟨between, longer, rest⟩ | ⟨between, longer, rest⟩
  · cases between with
    | nil => exact other (Option.some.inj (congrArg Prod.fst (List.cons.inj rest).1))
    | cons e tail =>
      cases (List.cons.inj rest).1
      obtain ⟨less, inside⟩ := drawnGrows before tail after' i j
      rw [← longer] at less inside
      rw [← second] at inside
      omega
  · cases between with
    | nil => exact other (Option.some.inj (congrArg Prod.fst (List.cons.inj rest).1)).symm
    | cons e tail =>
      cases (List.cons.inj rest).1
      obtain ⟨less, inside⟩ := drawnGrows before' tail after j i
      rw [← longer] at less inside
      rw [← first] at inside
      omega

omit [StateStore S] in
theorem authorizedFlight {w : World (RequestHandler S) Act Flight} {line : String} {ticket : Option Nat}
    {response : JsonRpcResponse} (answered : Answered serde decode w line ticket response) {v : Value}
    (given : response.result = some v) :
    ∃ p f, ticket = some p ∧ w.parties[p]? = some f ∧ f.phase = .answered (.ok v) := by
  unfold Answered at answered
  split at answered
  · rw [answered.2] at given
    contradiction
  · split at answered
    · rw [answered.2] at given
      contradiction
    · obtain ⟨p, answer, same, here, said, _⟩ := answered
      rw [said] at given
      refine ⟨p, _, same, here, ?_⟩
      cases answer with
      | ok result =>
        cases given
        rfl
      | error e => contradiction

theorem writtenFlight {opened : RequestHandler S} {net : Net (RequestHandler S) Act Flight String JsonRpcResponse}
    (served : Served serde decode opened net) {i j : Nat} {c : Connection String JsonRpcResponse}
    (here : net.connections[i]? = some c) {response : JsonRpcResponse} (spoken : c.written[j]? = some response) {v : Value}
    (given : response.result = some v) : ∃ p f, c.tickets[j]? = some (some p) ∧ net.world.parties[p]? = some f ∧
      f.phase = .answered (.ok v) := by
  obtain ⟨line, ticket, _, ticketed, answered⟩ := (served.inOrder c (List.mem_of_getElem? here)).spoken spoken
  obtain ⟨p, f, same, there, phase⟩ := authorizedFlight answered given
  exact ⟨p, f, same ▸ ticketed, there, phase⟩

theorem cyclesDistinct {opened : RequestHandler S} {net : Net (RequestHandler S) Act Flight String JsonRpcResponse}
    (reached : Reachable (kernelServer S serde decode).step (Net.start opened) net) (few : drawn net.world.log ≤ 2 ^ 64)
    {i i' j j' : Nat} {c c' : Connection String JsonRpcResponse} {response response' : JsonRpcResponse}
    {cycleId cycleId' : String} (here : net.connections[i]? = some c) (there : net.connections[i']? = some c')
    (first : c.written[j]? = some response) (second : c'.written[j']? = some response')
    (given : response.result.bind grantedCycle = some cycleId) (given' : response'.result.bind grantedCycle = some cycleId')
    (other : (i, j) ≠ (i', j')) : cycleId ≠ cycleId' := by
  have sound := kernelLawful.sound reached
  have served := linesServed reached
  have counted : Counted opened opened [] := (UInt64.add_zero opened.triggerSeq).symm
  have named := (requestsName opened).reachable (requestsCount opened) counted sound.reached
  obtain ⟨v, result, granted⟩ := Option.bind_eq_some_iff.mp given
  obtain ⟨v', result', granted'⟩ := Option.bind_eq_some_iff.mp given'
  obtain ⟨p, f, ticket, party, phase⟩ := writtenFlight served here first result
  obtain ⟨q, g, ticket', party', phase'⟩ := writtenFlight served there second result'
  have apart : p ≠ q := by
    intro same
    subst same
    obtain ⟨sameConnection, sameLine⟩ := sound.ticketOnce here there ticket ticket'
    exact other (by rw [sameConnection, sameLine])
  obtain ⟨before, after, log, name⟩ := named p f party v cycleId phase granted
  obtain ⟨before', after', log', name'⟩ := named q g party' v' cycleId' phase' granted'
  rw [name, name']
  exact namesDiffer few log log' apart

def cycleLine : String := "loop.trigger of a meta cycle"

def cycleRequest : LoopTrigger := .new 1 .loop0Meta .kernel (.metaCycleRequest "schedule")

def readCycles (line : String) : Except String JsonRpcRequest :=
  if line = cycleLine then .ok (.new "loop.trigger" (some ((LoopTrigger.format sortedVars).encode cycleRequest)) 1)
  else RpcServer.decodeLines line

def asking : List (Event Act Circumstance String) :=
  let now : Circumstance := ⟨declared, .new Governor.daemonConfig⟩
  [.connect, .connect, .arrive 0 cycleLine, .arrive 1 cycleLine, .take 0, .advance 0 now, .advance 0 now, .take 1,
    .advance 1 now, .advance 1 now, .advance 1 now, .reply 1 true, .advance 0 now, .reply 0 true]

def asked_ : Net Kernel Act Flight String JsonRpcResponse :=
  (run (kernelServer _ (formatSerde sortedVars) readCycles).step (Net.start (freshKernel [])) asking).getD
    (Net.start (freshKernel []))

def heardFrom (net : Net Kernel Act Flight String JsonRpcResponse) (i : Nat) : Option String :=
  net.connections[i]?.bind (fun c => c.written[0]?.bind (fun response => response.result.bind grantedCycle))

theorem heardIff {net : Net Kernel Act Flight String JsonRpcResponse} {i : Nat} {cycleId : String}
    (heard : heardFrom net i = some cycleId) : ∃ c response, net.connections[i]? = some c ∧
      c.written[0]? = some response ∧ response.result.bind grantedCycle = some cycleId := by
  obtain ⟨c, here, heard⟩ := Option.bind_eq_some_iff.mp heard
  obtain ⟨response, spoken, given⟩ := Option.bind_eq_some_iff.mp heard
  exact ⟨c, response, here, spoken, given⟩

theorem cyclesDistinctAsking : heardFrom asked_ 0 = some "cycle-2" ∧ heardFrom asked_ 1 = some "cycle-1" ∧
    "cycle-2" ≠ "cycle-1" := by
  have second : heardFrom asked_ 0 = some "cycle-2" := by decide +kernel
  have first : heardFrom asked_ 1 = some "cycle-1" := by decide +kernel
  have reached : Reachable (kernelServer _ (formatSerde sortedVars) readCycles).step (Net.start (freshKernel [])) asked_ :=
    reachableEnd (by decide +kernel)
  have few : drawn asked_.world.log ≤ 2 ^ 64 := by decide +kernel
  refine ⟨second, first, ?_⟩
  obtain ⟨c, response, here, spoken, given⟩ := heardIff second
  obtain ⟨c', response', there, spoken', given'⟩ := heardIff first
  exact cyclesDistinct reached few here there spoken spoken' given given' (by decide)

end ArosKernel.Dispatch
