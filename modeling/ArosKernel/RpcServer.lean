import ArosKernel.MessageFormat

/-! What `RpcServer::process_line` makes of a line: which requests reach the handler and
how the others are refused, against JSON-RPC 2.0. -/
namespace ArosKernel.Dispatch
open Supervisor JsonFormat Format Fields

def errorInvalidRequest : Int32 := -32600

namespace JsonRpcRequest

-- No field of the record has two members. Other names are ignored.
def Once (members : List (String × Value)) : Prop :=
  ∀ name ∈ ["jsonrpc", "method", "params", "id"], (members.map Prod.fst).count name ≤ 1

instance (members : List (String × Value)) : Decidable (Once members) :=
  inferInstanceAs (Decidable (∀ name ∈ ["jsonrpc", "method", "params", "id"], _ ≤ 1))

-- A derived reader also takes the fields in their order, as an array.
def ofValue : Value → Option JsonRpcRequest
  | .object members => if Once members then format.decode (.object members) else none
  | .array [jsonrpc, method, params, id] =>
    format.decode (.object [("jsonrpc", jsonrpc), ("method", method), ("params", params), ("id", id)])
  | _ => none

end JsonRpcRequest

/- What is used of `serde_json::from_str`: it reads the JSON texts of the record's shape. -/
structure ReadsRequests (decode : String → Except String JsonRpcRequest) (parse : String → Option Value) : Prop where
  exact : ∀ line request, decode line = .ok request ↔ (parse line).bind JsonRpcRequest.ofValue = some request

namespace RpcServer

def processLine {m : Type → Type} [Monad m] (decode : String → Except String JsonRpcRequest)
    (handle : RpcMethod → Option Value → m (Except Failure Value)) (line : String) : m JsonRpcResponse :=
  match decode line with
  | .error e => pure (.failure .null errorParse s!"Parse error: {e}" none)
  | .ok request =>
    match fromStr request.method with
    | none => pure (.failure request.id errorMethodNotFound s!"Unknown method: {request.method}" none)
    | some method => do
      match ← handle method request.params with
      | .ok result => pure (.success request.id result)
      | .error (code, message) => pure (.failure request.id code message none)

theorem processLineAgrees (codec : Codec) (handler : Handler) (line : String) :
    processLine (m := Id) codec.decodeRequest handler line = Dispatch.processLine codec handler line := by
  unfold processLine Dispatch.processLine
  cases codec.decodeRequest line with
  | error e => rfl
  | ok request =>
    dsimp only
    cases fromStr request.method with
    | none => rfl
    | some method =>
      dsimp only [bind]
      cases handler method request.params <;> rfl

abbrev Invocation := RpcMethod × Option Value

abbrev Acting (σ : Type) := RpcMethod → Option Value → StateM σ (Except Failure Value)

variable {σ : Type}

def recorded (handle : Acting σ) : Acting (σ × List Invocation) := fun method params s =>
  ((handle method params s.1).1, (handle method params s.1).2, s.2 ++ [(method, params)])

structure Served (σ : Type) where
  response : JsonRpcResponse
  state : σ
  invoked : List Invocation

def serve (decode : String → Except String JsonRpcRequest) (handle : Acting σ) (line : String) (s : σ) : Served σ :=
  let (response, state, invoked) := processLine decode (recorded handle) line (s, [])
  { response, state, invoked }

def respond (id : Value) : Except Failure Value → JsonRpcResponse
  | .ok result => .success id result
  | .error (code, message) => .failure id code message none

theorem serveError {decode : String → Except String JsonRpcRequest} {line e : String} (read : decode line = .error e)
    (handle : Acting σ) (s : σ) : serve decode handle line s =
      { response := .failure .null errorParse s!"Parse error: {e}" none, state := s, invoked := [] } := by
  unfold serve processLine
  rw [read]
  rfl

theorem serveUnknown {decode : String → Except String JsonRpcRequest} {line : String} {request : JsonRpcRequest}
    (read : decode line = .ok request) (unknown : fromStr request.method = none) (handle : Acting σ) (s : σ) :
    serve decode handle line s =
      { response := .failure request.id errorMethodNotFound s!"Unknown method: {request.method}" none,
        state := s, invoked := [] } := by
  unfold serve processLine
  rw [read]
  dsimp only
  rw [unknown]
  rfl

theorem serveKnown {decode : String → Except String JsonRpcRequest} {line : String} {request : JsonRpcRequest}
    {method : RpcMethod} (read : decode line = .ok request) (known : fromStr request.method = some method)
    (handle : Acting σ) (s : σ) : serve decode handle line s =
      { response := respond request.id (handle method request.params s).1,
        state := (handle method request.params s).2, invoked := [(method, request.params)] } := by
  unfold serve processLine
  rw [read]
  dsimp only
  rw [known]
  simp only [recorded, bind, StateT.bind]
  cases (handle method request.params s).1 <;> rfl

structure Describes (members : List (String × Value)) (request : JsonRpcRequest) : Prop where
  once : JsonRpcRequest.Once members
  version : members.lookup "jsonrpc" = some (.string "2.0")
  jsonrpc : request.jsonrpc = "2.0"
  method : members.lookup "method" = some (.string request.method)
  params : request.params = (members.lookup "params").filter (fun v => !isNull v)
  id : members.lookup "id" = some request.id

def Requests (v : Value) (request : JsonRpcRequest) : Prop := ∃ members, v = .object members ∧ Describes members request

def Valid (v : Value) : Prop := ∃ request, Requests v request

structure Refused (served : Served σ) (code : Int32) : Prop where
  untouched : served.invoked = []
  noResult : served.response.result = none
  code : ∃ e, served.response.error = some e ∧ e.code = code

structure Classified (parse : String → Option Value) (handle : Acting σ) (line : String) (s : σ) (served : Served σ) :
    Prop where
  invoked : served.invoked ≠ [] ↔
    ∃ v ∈ parse line, ∃ request, Requests v request ∧ (fromStr request.method).isSome
  answered : ∀ v ∈ parse line, ∀ request, Requests v request → ∀ method, fromStr request.method = some method →
    served =
      { response := respond request.id (handle method request.params s).1,
        state := (handle method request.params s).2, invoked := [(method, request.params)] }
  notJson : parse line = none → Refused served errorParse ∧ served.response.id = .null
  invalid : ∀ v ∈ parse line, ¬ Valid v → Refused served errorInvalidRequest
  unknown : ∀ v ∈ parse line, ∀ request, Requests v request → fromStr request.method = none →
    Refused served errorMethodNotFound ∧ served.response.id = request.id

theorem asStrIff {v : Value} {s : String} : v.asStr = some s ↔ v = .string s := by
  cases v <;> simp [Value.asStr]

theorem memberStringIff {members : List (String × Value)} {name s : String} :
    (members.lookup name).bind Value.asStr = some s ↔ members.lookup name = some (.string s) := by
  rw [Option.bind_eq_some_iff]
  constructor
  · intro ⟨v, found, text⟩
    rw [found, asStrIff.mp text]
  · exact fun found => ⟨_, found, rfl⟩

theorem readParams (members : List (String × Value)) :
    readOptional "params" value members = some ((members.lookup "params").filter (fun v => !isNull v)) := by
  unfold readOptional
  cases members.lookup "params" with
  | none => rfl
  | some v => cases v <;> rfl

theorem decodeIff {members : List (String × Value)} {request : JsonRpcRequest} :
    JsonRpcRequest.format.decode (.object members) = some request ↔
      members.lookup "jsonrpc" = some (.string request.jsonrpc) ∧ members.lookup "method" = some (.string request.method) ∧
        request.params = (members.lookup "params").filter (fun v => !isNull v) ∧ members.lookup "id" = some request.id := by
  have params : (Fields.optional "params" value).decode members = some request.params ↔
      request.params = (members.lookup "params").filter (fun v => !isNull v) := by
    show readOptional "params" value members = _ ↔ _
    rw [readParams, Option.some.injEq]
    exact eq_comm
  have id : (member "id" value).decode members = some request.id ↔ members.lookup "id" = some request.id := by
    show (members.lookup "id").bind some = _ ↔ _
    rw [Option.bind_fun_some]
  rw [JsonRpcRequest.format, recordReads, bothReads, bothReads, bothReads, params, id]
  exact and_congr memberStringIff (and_congr memberStringIff Iff.rfl)

theorem describesIff {members : List (String × Value)} {request : JsonRpcRequest} : Describes members request ↔
    JsonRpcRequest.ofValue (.object members) = some request ∧ request.jsonrpc = "2.0" := by
  rw [JsonRpcRequest.ofValue, Option.ite_none_right_eq_some, decodeIff]
  constructor
  · exact fun d => ⟨⟨d.once, d.jsonrpc ▸ d.version, d.method, d.params, d.id⟩, d.jsonrpc⟩
  · rintro ⟨⟨once, version, method, params, id⟩, same⟩
    exact ⟨once, same ▸ version, same, method, params, id⟩

theorem requestsIff {v : Value} {request : JsonRpcRequest} : Requests v request ↔
    (∃ members, v = .object members) ∧ JsonRpcRequest.ofValue v = some request ∧ request.jsonrpc = "2.0" := by
  constructor
  · rintro ⟨members, same, describes⟩
    exact ⟨⟨members, same⟩, same ▸ describesIff.mp describes⟩
  · rintro ⟨⟨members, same⟩, read⟩
    exact ⟨members, same, describesIff.mpr (same ▸ read)⟩

theorem requestsOnce {v : Value} {request other : JsonRpcRequest} (first : Requests v request) (second : Requests v other) :
    request = other :=
  Option.some.inj ((requestsIff.mp first).2.1.symm.trans (requestsIff.mp second).2.1)

section
variable {decode : String → Except String JsonRpcRequest} {parse : String → Option Value} {line : String} {v : Value}

theorem refusedParse {e : String} (read : decode line = .error e) (handle : Acting σ) (s : σ) :
    Refused (serve decode handle line s) errorParse ∧ (serve decode handle line s).response.id = .null := by
  rw [serveError read]
  exact ⟨⟨rfl, rfl, _, rfl, rfl⟩, rfl⟩

theorem decodeError (reads : ReadsRequests decode parse) (absent : (parse line).bind JsonRpcRequest.ofValue = none) :
    ∃ e, decode line = .error e := by
  cases read : decode line with
  | error e => exact ⟨e, rfl⟩
  | ok request =>
    rw [(reads.exact line request).mp read] at absent
    contradiction

theorem classifiedText (reads : ReadsRequests decode parse) (text : parse line = none) (handle : Acting σ) (s : σ) :
    Classified parse handle line s (serve decode handle line s) := by
  obtain ⟨e, read⟩ := decodeError reads (show (parse line).bind JsonRpcRequest.ofValue = none by rw [text]; rfl)
  have refused := refusedParse read handle s
  have nothing : ∀ w, w ∉ parse line := by
    rw [text]
    exact fun w => Option.not_mem_none w
  refine ⟨iff_of_false (fun called => called refused.1.untouched) ?_, fun w here => absurd here (nothing w),
    fun _ => refused, fun w here => absurd here (nothing w), fun w here => absurd here (nothing w)⟩
  rintro ⟨w, here, _⟩
  exact nothing w here

theorem decodeRequest (reads : ReadsRequests decode parse) (json : parse line = some v) {request : JsonRpcRequest}
    (requests : Requests v request) : decode line = .ok request :=
  (reads.exact line request).mpr (by rw [json]; exact (requestsIff.mp requests).2.1)

theorem requestAlone (json : parse line = some v) {request : JsonRpcRequest} (requests : Requests v request)
    {w : Value} (here : w ∈ parse line) {other : JsonRpcRequest} (otherwise : Requests w other) : other = request := by
  rw [json] at here
  cases here
  exact requestsOnce otherwise requests

theorem validAlone (json : parse line = some v) (valid : Valid v) {w : Value} (here : w ∈ parse line) : Valid w := by
  rw [json] at here
  cases here
  exact valid

theorem classifiedUnknown (reads : ReadsRequests decode parse) (json : parse line = some v) {request : JsonRpcRequest}
    (requests : Requests v request) (unknown : fromStr request.method = none) (handle : Acting σ) (s : σ) :
    Classified parse handle line s (serve decode handle line s) where
  invoked := by
    rw [serveUnknown (decodeRequest reads json requests) unknown]
    refine iff_of_false (fun called => called rfl) ?_
    rintro ⟨w, here, other, otherwise, named⟩
    rw [requestAlone json requests here otherwise, unknown] at named
    contradiction
  answered w here other otherwise method named := by
    rw [requestAlone json requests here otherwise, unknown] at named
    contradiction
  notJson text := nomatch json.symm.trans text
  invalid w here refused := absurd (validAlone json ⟨request, requests⟩ here) refused
  unknown w here other otherwise _ := by
    rw [requestAlone json requests here otherwise, serveUnknown (decodeRequest reads json requests) unknown]
    exact ⟨⟨rfl, rfl, _, rfl, rfl⟩, rfl⟩

theorem classifiedKnown (reads : ReadsRequests decode parse) (json : parse line = some v) {request : JsonRpcRequest}
    (requests : Requests v request) {method : RpcMethod} (known : fromStr request.method = some method)
    (handle : Acting σ) (s : σ) : Classified parse handle line s (serve decode handle line s) where
  invoked := by
    rw [serveKnown (decodeRequest reads json requests) known]
    refine iff_of_true (List.cons_ne_nil _ _) ⟨v, json, request, requests, ?_⟩
    rw [known]
    rfl
  answered w here other otherwise found named := by
    rw [requestAlone json requests here otherwise] at named ⊢
    cases known.symm.trans named
    exact serveKnown (decodeRequest reads json requests) known handle s
  notJson text := nomatch json.symm.trans text
  invalid w here refused := absurd (validAlone json ⟨request, requests⟩ here) refused
  unknown w here other otherwise unnamed := by
    rw [requestAlone json requests here otherwise, known] at unnamed
    contradiction

theorem misclassified (reads : ReadsRequests decode parse) (json : parse line = some v) (invalid : ¬ Valid v)
    (handle : Acting σ) (s : σ) : ¬ Classified parse handle line s (serve decode handle line s) := by
  intro classified
  have refused := classified.invalid v json invalid
  cases shape : JsonRpcRequest.ofValue v with
  | none =>
    obtain ⟨e, read⟩ := decodeError reads (show (parse line).bind JsonRpcRequest.ofValue = none by rw [json]; exact shape)
    obtain ⟨found, here, code⟩ := refused.code
    rw [serveError read] at here
    cases here
    exact (show errorParse ≠ errorInvalidRequest by decide) code
  | some request =>
    have read : decode line = .ok request := (reads.exact line request).mpr (by rw [json]; exact shape)
    cases known : fromStr request.method with
    | none =>
      obtain ⟨found, here, code⟩ := refused.code
      rw [serveUnknown read known] at here
      cases here
      exact (show errorMethodNotFound ≠ errorInvalidRequest by decide) code
    | some method =>
      have untouched := refused.untouched
      rw [serveKnown read known] at untouched
      contradiction

theorem classifiedIff (reads : ReadsRequests decode parse) (handle : Acting σ) (line : String) (s : σ) :
    Classified parse handle line s (serve decode handle line s) ↔ ∀ v ∈ parse line, Valid v := by
  constructor
  · intro classified v json
    exact by_contra (fun invalid => misclassified reads json invalid handle s classified)
  · intro valid
    cases json : parse line with
    | none => exact classifiedText reads json handle s
    | some v =>
      obtain ⟨request, requests⟩ := valid v json
      cases known : fromStr request.method with
      | none => exact classifiedUnknown reads json requests known handle s
      | some method => exact classifiedKnown reads json requests known handle s

end

def pingLine : String := "\x7b\"jsonrpc\":\"2.0\",\"method\":\"ping\",\"id\":1\x7d"
def oldLine : String := "\x7b\"jsonrpc\":\"1.0\",\"method\":\"ping\",\"id\":1\x7d"
def emptyLine : String := "\x7b\x7d"

def pingMembers (version : String) : List (String × Value) :=
  [("jsonrpc", .string version), ("method", .string "ping"), ("id", .nat 1)]

def parseLines (line : String) : Option Value :=
  if line = pingLine then some (.object (pingMembers "2.0"))
  else if line = oldLine then some (.object (pingMembers "1.0"))
  else if line = emptyLine then some (.object [])
  else none

def decodeLines (line : String) : Except String JsonRpcRequest :=
  match (parseLines line).bind JsonRpcRequest.ofValue with
  | some request => .ok request
  | none => .error (if line = emptyLine then "missing field `jsonrpc` at line 1 column 2" else "expected value at line 1 column 1")

theorem linesRead : ReadsRequests decodeLines parseLines where
  exact line request := by
    unfold decodeLines
    cases (parseLines line).bind JsonRpcRequest.ofValue <;> simp

def pong : Acting Nat := fun _ _ served => (.ok (.string "pong"), served + 1)

theorem classifiedIffPing : Classified parseLines pong pingLine 0 (serve decodeLines pong pingLine 0) ↔
    ∀ v ∈ parseLines pingLine, Valid v := classifiedIff linesRead pong pingLine 0

example : ((serve decodeLines pong emptyLine 0).response.error.map JsonRpcError.code) = some errorParse := by decide +kernel

theorem parseOldLine : parseLines oldLine = some (.object (pingMembers "1.0")) :=
  (if_neg (by decide +kernel)).trans (if_pos rfl)

theorem oldVersionServed : ¬ Classified parseLines pong oldLine 0 (serve decodeLines pong oldLine 0) := by
  refine misclassified linesRead parseOldLine ?_ pong 0
  rintro ⟨request, members, same, describes⟩
  cases same
  have version : some (Value.string "1.0") = some (.string "2.0") := describes.version
  exact absurd (Value.string.inj (Option.some.inj version)) (by decide)

end RpcServer
end ArosKernel.Dispatch
