import Mathlib.Init

/-! IEEE 754 binary64 values by their bits, with the comparison of `f64`: a NaN is
below and above nothing, and the two zeros are equal. -/
namespace ArosKernel

structure F64 where
  bits : UInt64
  deriving DecidableEq, Repr

namespace F64

def zero : F64 := ⟨0⟩
def one : F64 := ⟨0x3FF0000000000000⟩

def isNaN (x : F64) : Bool := 0x7FF0000000000000 < (x.bits &&& 0x7FFFFFFFFFFFFFFF)

def isFinite (x : F64) : Bool := (x.bits &&& 0x7FF0000000000000) != 0x7FF0000000000000

/-- The bits of two numbers that are not NaN order them as signed magnitudes. -/
def magnitude (x : F64) : Int :=
  if x.bits < 0x8000000000000000 then x.bits.toNat else -((x.bits - 0x8000000000000000).toNat : Int)

def lt (x y : F64) : Bool := !x.isNaN && !y.isNaN && x.magnitude < y.magnitude

end F64
end ArosKernel
