import ArosKernel.Handler
import ArosKernel.LoopTrigger

/-! The messages of `dispatch/rpc.rs` and how the server of `dispatch/server.rs` answers a
line. `serde_json` is the parameter `Codec`; it writes a message on one line. -/
namespace ArosKernel.Dispatch
open Supervisor

structure JsonRpcRequest where
  jsonrpc : String
  method : String
  params : Option Value
  id : Value

def JsonRpcRequest.new (method : String) (params : Option Value) (id : UInt64) : JsonRpcRequest :=
  { jsonrpc := "2.0", method, params, id := .nat id }

structure JsonRpcError where
  code : Int32
  message : String
  data : Option Value

structure JsonRpcResponse where
  jsonrpc : String
  result : Option Value
  error : Option JsonRpcError
  id : Value

namespace JsonRpcResponse

def success (id result : Value) : JsonRpcResponse := { jsonrpc := "2.0", result := some result, error := none, id }

def failure (id : Value) (code : Int32) (message : String) (data : Option Value) : JsonRpcResponse :=
  { jsonrpc := "2.0", result := none, error := some { code, message, data }, id }

end JsonRpcResponse

def errorParse : Int32 := -32700
def errorMethodNotFound : Int32 := -32601

def asStr : RpcMethod → String
  | .taskSubmit => "task.submit"
  | .taskProgress => "task.progress"
  | .taskComplete => "task.complete"
  | .taskCancel => "task.cancel"
  | .loopTrigger => "loop.trigger"
  | .ping => "ping"

def fromStr (s : String) : Option RpcMethod :=
  match s with
  | "task.submit" => some .taskSubmit
  | "task.progress" => some .taskProgress
  | "task.complete" => some .taskComplete
  | "task.cancel" => some .taskCancel
  | "loop.trigger" => some .loopTrigger
  | "ping" => some .ping
  | _ => none

theorem fromStrIff {s : String} {method : RpcMethod} : fromStr s = some method ↔ s = asStr method := by
  constructor
  · intro known
    unfold fromStr at known
    split at known <;> cases known <;> rfl
  · intro named
    subst named
    cases method <;> rfl

structure Codec where
  encodeRequest : JsonRpcRequest → String
  decodeRequest : String → Except String JsonRpcRequest
  encodeResponse : JsonRpcResponse → String
  decodeResponse : String → Except String JsonRpcResponse

abbrev Handler := RpcMethod → Option Value → Except Failure Value

def processLine (codec : Codec) (handler : Handler) (line : String) : JsonRpcResponse :=
  match codec.decodeRequest line with
  | .error e => .failure .null errorParse s!"Parse error: {e}" none
  | .ok request =>
    match fromStr request.method with
    | none => .failure request.id errorMethodNotFound s!"Unknown method: {request.method}" none
    | some method =>
      match handler method request.params with
      | .ok result => .success request.id result
      | .error (code, message) => .failure request.id code message none

theorem processLineId (codec : Codec) (handler : Handler) (line : String) : (processLine codec handler line).id =
    match codec.decodeRequest line with
    | .error _ => .null
    | .ok request => request.id := by
  unfold processLine
  cases codec.decodeRequest line with
  | error e => rfl
  | ok request =>
    dsimp only
    split
    · rfl
    · split <;> rfl

end ArosKernel.Dispatch
