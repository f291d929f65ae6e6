import ArosKernel.RequestRace
import ArosKernel.RpcServer
import ArosKernel.Serving

/-! The kernel's socket: `RpcServer::serve` with the request handler of the kernel, for any
number of connections whose requests interleave by their sections. -/
namespace ArosKernel.Dispatch
open Supervisor Store Transition Interleaving Serving KernelRequestHandler

def begins (decode : String → Except String JsonRpcRequest) (line : String) : JsonRpcResponse ⊕ Flight :=
  match decode line with
  | .error e => .inl (.failure .null errorParse s!"Parse error: {e}" none)
  | .ok request =>
    match fromStr request.method with
    | none => .inl (.failure request.id errorMethodNotFound s!"Unknown method: {request.method}" none)
    | some method => .inr ⟨method, request.params, .received⟩

def finish (decode : String → Except String JsonRpcRequest) (line : String) (f : Flight) : Option JsonRpcResponse :=
  match f.phase with
  | .answered answer =>
    match decode line with
    | .error _ => some (RpcServer.respond .null answer)
    | .ok request => some (RpcServer.respond request.id answer)
  | _ => none

theorem processLineSplit {σ : Type} (decode : String → Except String JsonRpcRequest) (handle : RpcServer.Acting σ)
    (line : String) (s : σ) : RpcServer.processLine decode handle line s =
      match begins decode line with
      | .inl response => (response, s)
      | .inr f => ((finish decode line (f.at_ (.answered (handle f.method f.params s).1))).getD
          (.failure .null errorParse "" none), (handle f.method f.params s).2) := by
  unfold RpcServer.processLine begins finish
  cases read : decode line with
  | error e => rfl
  | ok request =>
    dsimp only
    cases fromStr request.method with
    | none => rfl
    | some method =>
      simp only [bind, StateT.bind, Flight.at_, Option.getD_some]
      rcases handle method request.params s with ⟨answer, t⟩
      cases answer <;> rfl

def kernelServer (S : Type) [StateStore S] (serde : Serde) (decode : String → Except String JsonRpcRequest) :
    Server (RequestHandler S) Act Flight Circumstance String JsonRpcResponse where
  system := requests S serde
  begins := begins decode
  finish := finish decode

def asked (f : Flight) : RpcMethod × Option Value := (f.method, f.params)

def remaining (f : Flight) : Nat :=
  match f.phase with
  | .received => 5
  | .decoded _ => 3
  | .checked _ => 2
  | .counting pending _ => pending.length + 1
  | .answered _ => 0

variable {S : Type} [StateStore S] {serde : Serde} {decode : String → Except String JsonRpcRequest}

theorem sectionAsks {c : Circumstance} {h : RequestHandler S} {f f' : Flight} {acts : List Act}
    (next : f.section_ serde c h = some (f', acts)) : asked f' = asked f := by
  rcases f with ⟨method, params, phase⟩
  cases phase with
  | received => cases next; rfl
  | decoded trigger =>
    simp only [Flight.section_] at next
    split at next <;> (cases next; rfl)
  | checked trigger => cases next; rfl
  | counting pending v =>
    cases pending with
    | nil => cases next; rfl
    | cons op rest => cases next; rfl
  | answered answer => cases next

theorem triggeredRemaining (method : RpcMethod) (params : Option Value) (v : Option Value) :
    remaining ⟨method, params, Flight.triggered serde v⟩ ≤ 3 := by
  unfold Flight.triggered
  cases triggerParams serde v with
  | error e => exact Nat.zero_le 3
  | ok trigger => exact Nat.le_refl 3

omit [StateStore S] in
theorem receiveRemaining (c : Circumstance) (h : RequestHandler S) (method : RpcMethod) (params : Option Value) :
    remaining ⟨method, params, (Flight.receive serde c h method params).1⟩ < 5 := by
  cases method with
  | ping => exact Nat.zero_lt_succ 4
  | taskProgress => exact Nat.zero_lt_succ 4
  | loopTrigger => exact Nat.lt_succ_of_le (Nat.le_succ_of_le (triggeredRemaining _ _ _))
  | taskSubmit =>
    simp only [Flight.receive, Flight.submitted]
    cases submitParams serde.envelope params with
    | error e => exact Nat.zero_lt_succ 4
    | ok env =>
      dsimp only
      split
      · show 2 + 1 < 5
        decide
      · exact Nat.zero_lt_succ 4
  | taskComplete =>
    simp only [Flight.receive]
    rcases completeParams params with e | ⟨taskId, tokensUsed⟩
    · exact Nat.zero_lt_succ 4
    · dsimp only
      split
      · show (releaseOps tokensUsed).length + 1 < 5
        unfold releaseOps
        split
        · exact Nat.lt_succ_self 4
        · exact Nat.lt_succ_of_lt (Nat.lt_succ_self 3)
      · exact Nat.zero_lt_succ 4
  | taskCancel =>
    simp only [Flight.receive]
    rcases cancelParams params with e | ⟨taskId, reason⟩
    · exact Nat.zero_lt_succ 4
    · dsimp only
      cases serde.triggerValue (.new h.triggerSeq .kernel .loop1Agentic (.taskCancel taskId reason)) with
      | error e => exact Nat.zero_lt_succ 4
      | ok wrapped => exact Nat.lt_succ_of_le (Nat.le_succ_of_le (triggeredRemaining _ _ _))

theorem sectionGoes (c : Circumstance) (h : RequestHandler S) {f : Flight} (open_ : ∀ answer, f.phase ≠ .answered answer) :
    ∃ f' acts, f.section_ serde c h = some (f', acts) ∧ remaining f' < remaining f := by
  rcases f with ⟨method, params, phase⟩
  cases phase with
  | received => exact ⟨_, _, rfl, receiveRemaining c h method params⟩
  | decoded trigger =>
    simp only [Flight.section_]
    split
    · exact ⟨_, _, rfl, Nat.zero_lt_succ 2⟩
    · exact ⟨_, _, rfl, Nat.lt_succ_self 2⟩
  | checked trigger => exact ⟨_, _, rfl, Nat.zero_lt_succ 1⟩
  | counting pending v =>
    cases pending with
    | nil => exact ⟨_, _, rfl, Nat.zero_lt_succ 0⟩
    | cons op rest => exact ⟨_, _, rfl, Nat.lt_succ_self _⟩
  | answered answer => exact absurd rfl (open_ answer)

theorem finishNone {line : String} {f : Flight} : finish decode line f = none ↔ ∀ answer, f.phase ≠ .answered answer := by
  unfold finish
  cases f.phase with
  | answered answer =>
    refine iff_of_false ?_ (fun open_ => open_ answer rfl)
    cases decode line <;> exact Option.some_ne_none _
  | _ => exact iff_of_true rfl (fun answer same => nomatch same)

theorem kernelLawful : (kernelServer S serde decode).Lawful asked remaining where
  fresh line f begun := by
    show f.isReceived = true
    have begun : begins decode line = .inr f := begun
    unfold begins at begun
    cases read : decode line with
    | error e =>
      rw [read] at begun
      contradiction
    | ok request =>
      rw [read] at begun
      dsimp only at begun
      split at begun
      · contradiction
      · cases begun
        rfl
  origin c h f f' acts next := sectionAsks next
  halts line out c h f done := by
    show f.section_ serde c h = none
    have done : finish decode line f = some out := done
    rcases f with ⟨method, params, phase⟩
    cases phase with
    | answered answer => rfl
    | _ => contradiction
  goes line h f open_ := by
    obtain ⟨f', acts, next, less⟩ := sectionGoes ⟨declared, h.governor⟩ h (finishNone.mp open_)
    exact ⟨_, f', acts, next, less⟩

def Answered (serde : Serde) (decode : String → Except String JsonRpcRequest) (w : World (RequestHandler S) Act Flight)
    (line : String) (ticket : Option Nat) (response : JsonRpcResponse) : Prop :=
  match decode line with
  | .error e => ticket = none ∧ response = .failure .null errorParse s!"Parse error: {e}" none
  | .ok request =>
    match fromStr request.method with
    | none => ticket = none ∧ response = .failure request.id errorMethodNotFound s!"Unknown method: {request.method}" none
    | some method => ∃ p answer, ticket = some p ∧ w.parties[p]? = some ⟨method, request.params, .answered answer⟩ ∧
        response = RpcServer.respond request.id answer ∧
        Flight.Explains serde ⟨method, request.params, .answered answer⟩ (own p w.log)

structure InOrder (serde : Serde) (decode : String → Except String JsonRpcRequest) (w : World (RequestHandler S) Act Flight)
    (c : Connection String JsonRpcResponse) : Prop where
  written : c.written.length ≤ c.tickets.length
  ahead : c.tickets.length ≤ c.written.length + 1
  taken : c.tickets.length ≤ c.arrived.length
  answered : ∀ (j : Nat) line ticket response, c.arrived[j]? = some line → c.tickets[j]? = some ticket →
    c.written[j]? = some response → Answered serde decode w line ticket response

omit [StateStore S] in
theorem InOrder.spoken {w : World (RequestHandler S) Act Flight} {c : Connection String JsonRpcResponse}
    (inOrder : InOrder serde decode w c) {j : Nat} {response : JsonRpcResponse} (spoken : c.written[j]? = some response) :
    ∃ line ticket, c.arrived[j]? = some line ∧ c.tickets[j]? = some ticket ∧
      Answered serde decode w line ticket response := by
  have inside := Nat.lt_of_lt_of_le (List.getElem?_eq_some_iff.mp spoken).1 inOrder.written
  have arrived := List.getElem?_eq_getElem (Nat.lt_of_lt_of_le inside inOrder.taken)
  have ticketed := List.getElem?_eq_getElem inside
  exact ⟨_, _, arrived, ticketed, inOrder.answered j _ _ response arrived ticketed spoken⟩

/-! Every line taken is answered once and in its place, each request by its own flight, and
none that was begun is given up: its task can always go on to the answer. -/
structure Served (serde : Serde) (decode : String → Except String JsonRpcRequest) (opened : RequestHandler S)
    (net : Net (RequestHandler S) Act Flight String JsonRpcResponse) : Prop where
  refines : Reachable (requests S serde).step (World.start opened) net.world
  inOrder : ∀ c ∈ net.connections, InOrder serde decode net.world c
  once : (net.connections.flatMap Connection.held).Perm (List.range net.world.parties.length)
  waited : ∀ p f, net.world.parties[p]? = some f → (∀ answer, f.phase ≠ .answered answer) →
    ∃ (i : Nat) (c : Connection String JsonRpcResponse), net.connections[i]? = some c ∧ c.live = true ∧
      c.current = some (some p)
  replies : ∀ i c, net.connections[i]? = some c → c.live = true → c.idle = false →
    ∃ events net' response, (∀ e ∈ events, Event.own i e) ∧
      run (kernelServer S serde decode).step net events = some net' ∧
      net'.connections = net.connections.set i { c with written := c.written ++ [response] }

theorem explainsReached {opened : RequestHandler S} {w : World (RequestHandler S) Act Flight}
    (reached : Reachable (requests S serde).step (World.start opened) w) {p : Nat} {f : Flight}
    (here : w.parties[p]? = some f) : f.Explains serde (own p w.log) := by
  have keeps : (requests S serde).Keeps (Flight.Explains serde) (fun _ _ => True) :=
    { enter := (requestsKeep opened).enter, outside := fun _ _ _ _ _ => trivial,
      mine := (requestsKeep opened).mine, ours := fun _ _ _ _ _ _ _ _ _ _ _ => trivial }
  exact (keeps.reachable trivial reached).mine p f here

theorem answeredOf {opened : RequestHandler S} {w : World (RequestHandler S) Act Flight}
    (reached : Reachable (requests S serde).step (World.start opened) w) {line : String} {ticket : Option Nat}
    {response : JsonRpcResponse} (holds : (kernelServer S serde decode).Holds asked w line ticket)
    (answered : (kernelServer S serde decode).answer w line ticket = some response) :
    Answered serde decode w line ticket response := by
  unfold Answered
  have begun : (kernelServer S serde decode).begins line = begins decode line := rfl
  simp only [Server.Holds, begun, begins] at holds
  cases read : decode line with
  | error e =>
    simp only [read] at holds
    rw [holds, Server.answer, begun, begins, read] at answered
    exact ⟨holds, (Option.some.inj answered).symm⟩
  | ok request =>
    simp only [read] at holds
    dsimp only
    cases known : fromStr request.method with
    | none =>
      simp only [known] at holds
      rw [holds, Server.answer, begun, begins, read] at answered
      dsimp only at answered
      rw [known] at answered
      exact ⟨holds, (Option.some.inj answered).symm⟩
    | some method =>
      simp only [known] at holds
      obtain ⟨p, f, same, here, from_⟩ := holds
      rw [same, Server.answer, here, Option.bind_some] at answered
      have done : finish decode line f = some response := answered
      have explains := explainsReached reached here
      rcases f with ⟨method', params, phase⟩
      cases from_
      cases phase with
      | answered answer =>
        simp only [finish, read, Option.some.injEq] at done
        exact ⟨p, answer, same, here, done.symm, explains⟩
      | _ => contradiction

theorem linesServed {opened : RequestHandler S} {net : Net (RequestHandler S) Act Flight String JsonRpcResponse}
    (reached : Reachable (kernelServer S serde decode).step (Net.start opened) net) : Served serde decode opened net := by
  have sound := kernelLawful.sound reached
  refine ⟨sound.reached, fun c member => ?_, sound.tickets, fun p f here open_ => ?_, fun i c here live busy => ?_⟩
  · obtain ⟨written, ahead, taken, holds, answers, _⟩ := sound.orderly c member
    exact ⟨written, ahead, taken, fun j line ticket response arrived ticketed spoken =>
      answeredOf sound.reached (holds j line ticket arrived ticketed)
        (answers j line ticket response arrived ticketed spoken)⟩
  · exact sound.waited here (fun line => finishNone.mpr open_)
  · exact kernelLawful.replies sound here live busy

def twoPeers : List (Event Act Circumstance String) :=
  [.connect, .connect, .arrive 0 RpcServer.pingLine, .arrive 1 RpcServer.emptyLine, .take 0, .take 1, .stop, .reply 1 true,
    .advance 0 ⟨declared, .new Governor.daemonConfig⟩, .reply 0 true, .close 0]

def pinged : Net Kernel Act Flight String JsonRpcResponse :=
  (run (kernelServer _ sampleSerde RpcServer.decodeLines).step (Net.start (freshKernel [])) twoPeers).getD
    (Net.start (freshKernel []))

theorem linesServedTwoPeers : pinged.connections.map (fun c => c.written.map (fun r => r.error.isSome)) = [[false], [true]] ∧
    Served sampleSerde RpcServer.decodeLines (freshKernel []) pinged :=
  ⟨by decide +kernel, linesServed (reachableEnd (by decide +kernel))⟩

end ArosKernel.Dispatch
