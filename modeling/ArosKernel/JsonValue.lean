import ArosKernel.Binary64

/-! `serde_json::Value` and the accessors the kernel reads it with. -/
namespace ArosKernel

inductive Number where
  | posInt (n : UInt64)
  | negInt (n : Int64)
  | float (x : F64)
  deriving DecidableEq, Repr

inductive Value where
  | null
  | bool (b : Bool)
  | number (n : Number)
  | string (s : String)
  | array (items : List Value)
  | object (members : List (String × Value))

namespace Value

def get (v : Value) (key : String) : Option Value :=
  match v with
  | .object members => members.lookup key
  | _ => none

def asStr : Value → Option String
  | .string s => some s
  | _ => none

def asU64 : Value → Option UInt64
  | .number (.posInt n) => some n
  | _ => none

-- A float that JSON cannot write becomes null.
def ofF64 (x : F64) : Value := if x.isFinite then .number (.float x) else .null

def nat (n : UInt64) : Value := .number (.posInt n)

end Value
end ArosKernel
