import Mathlib.Algebra.Order.Ring.Nat

/-! `std::time::Duration` by its nanoseconds, which fit in 64 bits of seconds. -/
namespace ArosKernel

structure Duration where
  nanos : Nat
  fits : nanos < 2 ^ 64 * 1000000000
  deriving DecidableEq, Repr

namespace Duration

def ofSecs (secs : UInt64) : Duration := ⟨secs.toNat * 1000000000, by have := secs.toNat_lt; omega⟩
def ofMillis (millis : UInt64) : Duration := ⟨millis.toNat * 1000000, by have := millis.toNat_lt; omega⟩

def max : Duration := ⟨2 ^ 64 * 1000000000 - 1, by omega⟩

def isZero (d : Duration) : Bool := d.nanos == 0

def saturatingMul (d : Duration) (k : UInt32) : Duration :=
  if fits : d.nanos * k.toNat < 2 ^ 64 * 1000000000 then ⟨d.nanos * k.toNat, fits⟩ else max

def min (a b : Duration) : Duration := if a.nanos ≤ b.nanos then a else b

end Duration
end ArosKernel
