import ArosKernel.Rpc
import ArosKernel.Utf8
import Mathlib.Data.List.Induction

/-! The client of `dispatch/client.rs` on one connection. The server answers each line in
order, so what the client has not read is a queue of replies; a call that is dropped while
it waits may have taken the beginning of the first of them along. -/
namespace ArosKernel.Dispatch
open Supervisor Utf8

structure Reply where
  request : JsonRpcRequest
  response : JsonRpcResponse
  taken : Nat

namespace Reply

def line (codec : Codec) (r : Reply) : List UInt8 := bytes (codec.encodeResponse r.response ++ "\n")

def left (codec : Codec) (r : Reply) : List UInt8 := (r.line codec).drop r.taken

-- Whoever takes the last byte, the newline, has read the line.
def take (codec : Codec) (r : Reply) (more : Nat) : Reply :=
  { r with taken := min (r.taken + more) ((r.line codec).length - 1) }

end Reply

inductive ClientError where
  | io (message : String)
  | deserialize (message : String)
  | connectionClosed
  deriving DecidableEq, Repr

def readLine (codec : Codec) (raw : List UInt8) : Except ClientError JsonRpcResponse :=
  match readText raw with
  | none => .error (.io "stream did not contain valid UTF-8")
  | some line =>
    if line.isEmpty then .error .connectionClosed
    else
      match codec.decodeResponse line with
      | .error e => .error (.deserialize e)
      | .ok response => .ok response

inductive Outcome where
  | completed
  | dropped (taken : Nat)
  deriving DecidableEq, Repr

structure Call where
  method : String
  params : Option Value
  handler : Handler
  outcome : Outcome

structure RpcClient where
  nextId : UInt64
  unread : List Reply

namespace RpcClient

def connect : RpcClient := ⟨1, []⟩

def request (c : RpcClient) (call : Call) : JsonRpcRequest := .new call.method call.params c.nextId

def reply (codec : Codec) (c : RpcClient) (call : Call) : Reply :=
  { request := c.request call, response := processLine codec call.handler (codec.encodeRequest (c.request call)), taken := 0 }

def pending (codec : Codec) (c : RpcClient) (call : Call) : List Reply := c.unread ++ [c.reply codec call]

def call (codec : Codec) (c : RpcClient) (call : Call) : Option (Except ClientError JsonRpcResponse) × RpcClient :=
  match call.outcome, c.pending codec call with
  | _, [] => (none, c)
  | .completed, front :: rest => (some (readLine codec (front.left codec)), ⟨c.nextId + 1, rest⟩)
  | .dropped taken, front :: rest => (none, ⟨c.nextId + 1, front.take codec taken :: rest⟩)

def after (codec : Codec) (calls : List Call) : RpcClient := calls.foldl (fun c call => (c.call codec call).2) connect

def OwnAnswers (codec : Codec) (calls : List Call) : Prop :=
  ∀ earlier call, earlier ++ [call] <+: calls → ∀ response,
    ((after codec earlier).call codec call).1 = some (.ok response) → response.id = .nat (after codec earlier).nextId

/- The reply a call meets can be its own: nothing is unread before it (the ids come round
after 2^64 calls), and the server could parse its line. A reply the client cannot parse,
as the rest of one that was begun, fails whichever call meets it. -/
def InTurn (codec : Codec) (c : RpcClient) (call : Call) : Prop :=
  ∀ front, (c.pending codec call).head? = some front → front.taken = 0 →
    (∃ response, codec.decodeResponse (codec.encodeResponse front.response ++ "\n") = .ok response) →
    c.unread.length % 2 ^ 64 = 0 ∧ ∃ request, codec.decodeRequest (codec.encodeRequest front.request) = .ok request

end RpcClient

/-! What is taken from `serde_json`: the ids of messages survive both ways, and no proper
end of a message is a message. -/
structure Codec.Faithful (codec : Codec) : Prop where
  request : ∀ r q n, r.id = .nat n → codec.decodeRequest (codec.encodeRequest r) = .ok q → q.id = .nat n
  response : ∀ r q, r.id = .null ∨ (∃ n, r.id = .nat n) →
    codec.decodeResponse (codec.encodeResponse r ++ "\n") = .ok q → q.id = r.id
  rest : ∀ r k text, 0 < k → k < (bytes (codec.encodeResponse r ++ "\n")).length →
    readText ((bytes (codec.encodeResponse r ++ "\n")).drop k) = some text → ∃ e, codec.decodeResponse text = .error e

theorem idShift (n : UInt64) (k : Nat) : n + 1 - UInt64.ofNat (k + 1) = n - UInt64.ofNat k := by
  rw [UInt64.ofNat_add]
  grind

theorem idSame (n : UInt64) (k : Nat) : n - UInt64.ofNat k = n ↔ k % 2 ^ 64 = 0 := by
  have small := n.toNat_lt
  rw [← UInt64.toNat_inj, UInt64.toNat_sub, UInt64.toNat_ofNat']
  omega

namespace RpcClient
variable {codec : Codec}

structure Sound (codec : Codec) (nextId : UInt64) (replies : List Reply) : Prop where
  ids : ∀ (i : Nat) (r : Reply), replies[i]? = some r → r.request.id = .nat (nextId - UInt64.ofNat (replies.length - i))
  served : ∀ r ∈ replies, ∃ handler, r.response = processLine codec handler (codec.encodeRequest r.request)
  partly : ∀ r ∈ replies, r.taken < (r.line codec).length

theorem lineLength (r : Reply) : 0 < (r.line codec).length := by
  rw [Reply.line, bytesAppend, List.length_append]
  exact Nat.lt_of_lt_of_le (by decide : 0 < (bytes "\n").length) (Nat.le_add_left ..)

theorem Sound.pending {c : RpcClient} (sound : Sound codec c.nextId c.unread) (call : Call) :
    Sound codec (c.nextId + 1) (c.pending codec call) := by
  obtain ⟨ids, served, partly⟩ := sound
  refine ⟨fun i r at_ => ?_, fun r member => ?_, fun r member => ?_⟩
  · rw [RpcClient.pending, List.length_append, List.length_singleton]
    by_cases old : i < c.unread.length
    · rw [RpcClient.pending, List.getElem?_append_left old] at at_
      rw [ids i r at_, Nat.sub_add_comm (Nat.le_of_lt old), idShift]
    · rw [RpcClient.pending, List.getElem?_append_right (Nat.not_lt.mp old), List.getElem?_singleton] at at_
      split at at_
      · rename_i last
        cases at_
        have one : c.unread.length + 1 - i = 0 + 1 := by omega
        rw [one, idShift]
        exact congrArg Value.nat (UInt64.sub_zero c.nextId).symm
      · contradiction
  · rcases List.mem_append.mp member with old | new
    · exact served r old
    · rw [List.mem_singleton.mp new]
      exact ⟨call.handler, rfl⟩
  · rcases List.mem_append.mp member with old | new
    · exact partly r old
    · rw [List.mem_singleton.mp new]
      exact lineLength _

theorem Sound.tail {n : UInt64} {front : Reply} {rest : List Reply} (sound : Sound codec n (front :: rest)) :
    Sound codec n rest := by
  obtain ⟨ids, served, partly⟩ := sound
  refine ⟨fun i r at_ => ?_, fun r member => served r (List.mem_cons_of_mem _ member),
    fun r member => partly r (List.mem_cons_of_mem _ member)⟩
  have later := ids (i + 1) r at_
  rw [List.length_cons, Nat.add_sub_add_right] at later
  exact later

theorem Sound.take {n : UInt64} {front : Reply} {rest : List Reply} (sound : Sound codec n (front :: rest)) (more : Nat) :
    Sound codec n (front.take codec more :: rest) := by
  obtain ⟨ids, served, partly⟩ := sound
  refine ⟨fun i r at_ => ?_, List.forall_mem_cons.mpr ⟨served front List.mem_cons_self, fun r member => ?_⟩,
    List.forall_mem_cons.mpr ⟨?_, fun r member => ?_⟩⟩
  · cases i with
    | zero =>
      cases at_
      exact ids 0 front rfl
    | succ i => exact ids (i + 1) r at_
  · exact served r (List.mem_cons_of_mem _ member)
  · have some_ := @lineLength codec front
    show min _ _ < (front.line codec).length
    omega
  · exact partly r (List.mem_cons_of_mem _ member)

theorem pendingSplit (c : RpcClient) (call : Call) : ∃ front rest, c.pending codec call = front :: rest := by
  cases split : c.pending codec call with
  | nil => exact absurd split (by simp [RpcClient.pending])
  | cons front rest => exact ⟨front, rest, rfl⟩

theorem callSound {c : RpcClient} (sound : Sound codec c.nextId c.unread) (call : Call) :
    Sound codec (c.call codec call).2.nextId (c.call codec call).2.unread := by
  obtain ⟨front, rest, split⟩ := @pendingSplit codec c call
  have all := sound.pending call
  rw [split] at all
  unfold RpcClient.call
  rw [split]
  cases call.outcome with
  | completed => exact all.tail
  | dropped taken => exact all.take taken

theorem afterSound (calls : List Call) : Sound codec (after codec calls).nextId (after codec calls).unread := by
  induction calls using List.reverseRecOn with
  | nil => exact ⟨by simp [after, connect], by simp [after, connect], by simp [after, connect]⟩
  | append_singleton earlier call ih =>
    rw [after, List.foldl_concat]
    exact callSound ih call

theorem unreadDropped (calls : List Call) :
    (after codec calls).unread.length = calls.countP (fun call => call.outcome ≠ .completed) := by
  induction calls using List.reverseRecOn with
  | nil => rfl
  | append_singleton earlier call ih =>
    obtain ⟨front, rest, split⟩ := @pendingSplit codec (after codec earlier) call
    have length : (front :: rest).length = (after codec earlier).unread.length + 1 := by
      rw [← split, RpcClient.pending, List.length_append, List.length_singleton]
    rw [List.length_cons, Nat.add_right_cancel_iff] at length
    have last : after codec (earlier ++ [call]) = ((after codec earlier).call codec call).2 := List.foldl_concat ..
    rw [last, List.countP_append, ← ih, List.countP_singleton, RpcClient.call, split]
    cases call.outcome with
    | completed => simp [length]
    | dropped taken => simp [length]

theorem readWhole (response : JsonRpcResponse) : readLine codec (bytes (codec.encodeResponse response ++ "\n")) =
    match codec.decodeResponse (codec.encodeResponse response ++ "\n") with
    | .error e => .error (.deserialize e)
    | .ok q => .ok q := by
  have some_ : (codec.encodeResponse response ++ "\n").isEmpty = false := by
    simp [String.isEmpty_eq_false_iff]
  simp only [readLine, readTextIff.mpr rfl, some_, Bool.false_eq_true, if_false]

theorem readRest (faithful : codec.Faithful) {r : Reply} (begun : 0 < r.taken) (partly : r.taken < (r.line codec).length) :
    ∃ e, readLine codec (r.left codec) = .error e := by
  unfold readLine
  cases read : readText (r.left codec) with
  | none => exact ⟨_, rfl⟩
  | some text =>
    obtain ⟨e, refused⟩ := faithful.rest r.response r.taken text begun partly read
    dsimp only
    split
    · exact ⟨_, rfl⟩
    · exact ⟨.deserialize e, by rw [refused]⟩

theorem replyId (faithful : codec.Faithful) {r : Reply} {n : UInt64} (id : r.request.id = .nat n)
    (served : ∃ handler, r.response = processLine codec handler (codec.encodeRequest r.request)) :
    (r.response.id = .nat n ∧ ∃ q, codec.decodeRequest (codec.encodeRequest r.request) = .ok q) ∨
    (r.response.id = .null ∧ ¬ ∃ q, codec.decodeRequest (codec.encodeRequest r.request) = .ok q) := by
  obtain ⟨handler, same⟩ := served
  have id_ := processLineId codec handler (codec.encodeRequest r.request)
  rw [← same] at id_
  cases read : codec.decodeRequest (codec.encodeRequest r.request) with
  | error e =>
    rw [read] at id_
    exact .inr ⟨id_, fun ⟨q, ok⟩ => nomatch ok⟩
  | ok q =>
    rw [read] at id_
    exact .inl ⟨id_.trans (faithful.request r.request q n id read), q, rfl⟩

theorem ownIffInTurn (faithful : codec.Faithful) {c : RpcClient} (sound : Sound codec c.nextId c.unread) {call : Call}
    (completed : call.outcome = .completed) :
    (∀ response, (c.call codec call).1 = some (.ok response) → response.id = .nat c.nextId) ↔ InTurn codec c call := by
  obtain ⟨front, rest, split⟩ := @pendingSplit codec c call
  have all := sound.pending call
  have answer : (c.call codec call).1 = some (readLine codec (front.left codec)) := by
    rw [RpcClient.call, split, completed]
  have length : (front :: rest).length = c.unread.length + 1 := by
    rw [← split, RpcClient.pending, List.length_append, List.length_singleton]
  rw [split] at all
  have id := all.ids 0 front rfl
  rw [length, Nat.sub_zero, idShift] at id
  simp only [InTurn, split, List.head?_cons, Option.some.injEq, forall_eq', answer]
  by_cases begun : 0 < front.taken
  · obtain ⟨e, failed⟩ := readRest faithful begun (all.partly front List.mem_cons_self)
    refine iff_of_true (fun response ok => ?_) (fun whole => absurd whole (Nat.ne_of_gt begun))
    rw [failed] at ok
    contradiction
  · have whole : front.taken = 0 := Nat.eq_zero_of_not_pos begun
    have line : front.left codec = bytes (codec.encodeResponse front.response ++ "\n") := by
      rw [Reply.left, whole]
      rfl
    rw [line, readWhole]
    cases read : codec.decodeResponse (codec.encodeResponse front.response ++ "\n") with
    | error e => exact iff_of_true (fun response ok => nomatch ok) (fun _ parsed => nomatch parsed.choose_spec)
    | ok q =>
      simp only [Except.ok.injEq, forall_eq', whole, exists_eq', forall_const]
      rcases replyId faithful id (all.served front List.mem_cons_self) with ⟨own, parsed⟩ | ⟨null, refused⟩
      · rw [faithful.response front.response q (.inr ⟨_, own⟩) read, own]
        simp only [Value.nat, Value.number.injEq, Number.posInt.injEq, idSame]
        exact (and_iff_left parsed).symm
      · rw [faithful.response front.response q (.inl null) read, null]
        exact iff_of_false (fun same => nomatch same) (fun turn => refused turn.2)

theorem answersOwnIffInTurn (faithful : codec.Faithful) (calls : List Call) : OwnAnswers codec calls ↔
    ∀ earlier call, earlier ++ [call] <+: calls → call.outcome = .completed → InTurn codec (after codec earlier) call := by
  constructor
  · intro own earlier call inside completed
    exact (ownIffInTurn faithful (afterSound earlier) completed).mp (own earlier call inside)
  · intro turns earlier call inside response ok
    cases outcome : call.outcome with
    | completed => exact (ownIffInTurn faithful (afterSound earlier) outcome).mpr (turns earlier call inside outcome) response ok
    | dropped taken =>
      obtain ⟨front, rest, split⟩ := @pendingSplit codec (after codec earlier) call
      rw [RpcClient.call, split, outcome] at ok
      contradiction

def pingText (id : UInt64) : String :=
  "\x7b\"jsonrpc\":\"2.0\",\"method\":\"ping\",\"params\":null,\"id\":" ++ toString id ++ "\x7d"

def pongText (id : UInt64) : String := "\x7b\"jsonrpc\":\"2.0\",\"result\":\"pong\",\"id\":" ++ toString id ++ "\x7d"

def pingCodec : Codec where
  encodeRequest r :=
    match r.method, r.params, r.id with
    | "ping", none, .number (.posInt 1) => pingText 1
    | "ping", none, .number (.posInt 2) => pingText 2
    | _, _, _ => "null"
  decodeRequest text :=
    if text = pingText 1 then .ok (.new "ping" none 1)
    else if text = pingText 2 then .ok (.new "ping" none 2)
    else .error "invalid type: null, expected struct JsonRpcRequest at line 1 column 4"
  encodeResponse r :=
    match r.result, r.error, r.id with
    | some (.string "pong"), none, .number (.posInt 1) => pongText 1
    | some (.string "pong"), none, .number (.posInt 2) => pongText 2
    | _, _, _ => "null"
  decodeResponse text :=
    if text = pongText 1 ++ "\n" then .ok (.success (.nat 1) (.string "pong"))
    else if text = pongText 2 ++ "\n" then .ok (.success (.nat 2) (.string "pong"))
    else .error "invalid type: null, expected struct JsonRpcResponse at line 1 column 4"

theorem pingResponseLength (r : JsonRpcResponse) :
    (bytes (pingCodec.encodeResponse r ++ "\n")).length ≤ (bytes (pongText 1 ++ "\n")).length := by
  simp only [pingCodec]
  split <;> decide +kernel

theorem pingFaithful : pingCodec.Faithful where
  request r q n id decoded := by
    simp only [pingCodec] at decoded
    split at decoded
    · rename_i here
      rw [if_pos rfl] at decoded
      cases decoded
      exact here.symm.trans id
    · rename_i here
      rw [if_neg (by decide +kernel), if_pos rfl] at decoded
      cases decoded
      exact here.symm.trans id
    · rw [if_neg (by decide +kernel), if_neg (by decide +kernel)] at decoded
      contradiction
  response r q _ decoded := by
    simp only [pingCodec] at decoded
    split at decoded
    · rename_i here
      rw [if_pos rfl] at decoded
      cases decoded
      exact here.symm
    · rename_i here
      rw [if_neg (by decide +kernel), if_pos rfl] at decoded
      cases decoded
      exact here.symm
    · rw [if_neg (by decide +kernel), if_neg (by decide +kernel)] at decoded
      contradiction
  rest r k text begun short read := by
    have cut : (bytes text).length < (bytes (pongText 1 ++ "\n")).length := by
      rw [← readTextIff.mp read, List.length_drop]
      have bound := pingResponseLength r
      omega
    have first : text ≠ pongText 1 ++ "\n" := fun same => absurd cut (by rw [same]; exact Nat.lt_irrefl _)
    have second : text ≠ pongText 2 ++ "\n" := fun same => absurd cut (by rw [same]; decide +kernel)
    exact ⟨_, (if_neg first).trans (if_neg second)⟩

def pingHandler : Handler := fun _ _ => .ok (.string "pong")

def ping (outcome : Outcome) : Call := ⟨"ping", none, pingHandler, outcome⟩

theorem answersShift : pingCodec.Faithful ∧ ¬ OwnAnswers pingCodec [ping (.dropped 0), ping .completed] := by
  refine ⟨pingFaithful, fun own => ?_⟩
  have read : readLine pingCodec (bytes (pongText 1 ++ "\n")) = .ok (.success (.nat 1) (.string "pong")) :=
    readWhole (.success (.nat 1) (.string "pong"))
  have same := own [ping (.dropped 0)] (ping .completed) (List.prefix_refl _) (.success (.nat 1) (.string "pong"))
    (congrArg some read)
  have ids : (1 : UInt64) = 2 := Number.posInt.inj (Value.number.inj same)
  exact absurd ids (by decide)

theorem answersOwnPings : OwnAnswers pingCodec [ping .completed, ping .completed] ↔
    ∀ earlier call, earlier ++ [call] <+: [ping .completed, ping .completed] → call.outcome = .completed →
      InTurn pingCodec (after pingCodec earlier) call :=
  answersOwnIffInTurn pingFaithful [ping .completed, ping .completed]

end RpcClient
end ArosKernel.Dispatch
