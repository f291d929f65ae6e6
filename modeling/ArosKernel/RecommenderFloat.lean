import ArosKernel.FloatArith
import ArosKernel.Recommender

/-! The recommender of `scheduler/recommender.rs` with its products in floats and cast back,
as the code computes them. The multipliers are quarters, so nothing is rounded. -/
namespace ArosKernel.Scheduler.Recommender
open Governor (MemoryPressureLevel saturatingSub)
open AdmissionController (lesser)
open Rounding

namespace F64

def pressureMultiplier : MemoryPressureLevel → Float
  | .normal => 1.0
  | .warn => 1.75
  | .critical => 2.5

def dynamicHeadroom (r : Recommender) (pressure : MemoryPressureLevel) : UInt32 :=
  (r.ramHeadroomBaseMb.toFloat * pressureMultiplier pressure).toUInt32

def recommendMaxAgents (r : Recommender) (resources : SystemResources) (pressure : MemoryPressureLevel)
    (ramPerAgentMb : UInt32) : UInt32 :=
  let cpuLimit := (resources.cpuCount * 2).toUInt32
  let headroom := dynamicHeadroom r pressure
  let available := saturatingSub resources.ramAvailableMb headroom.toUInt64
  let ramLimit := if 0 < ramPerAgentMb then (available / ramPerAgentMb.toUInt64).toUInt32 else 0xFFFFFFFF
  let recommended := lesser cpuLimit ramLimit
  if 0 < r.maxAgentsHardLimit then lesser recommended r.maxAgentsHardLimit else recommended

def thermalMultiplier : ThermalPressureLevel → Float
  | .nominal => 1.0
  | .fair => 0.75
  | .serious => 0.5
  | .critical => 0.25

def recommendMaxAgentsThermal (r : Recommender) (resources : SystemResources) (pressure : MemoryPressureLevel)
    (thermal : ThermalPressureLevel) (ramPerAgentMb : UInt32) : UInt32 :=
  let base := recommendMaxAgents r resources pressure ramPerAgentMb
  let clamped := (base.toFloat * thermalMultiplier thermal).toUInt32
  lesser clamped base

end F64

def Quarters (f : Float) (q : ℚ) : Prop := Denotes f q ∧ ∃ k : Nat, k < 16 ∧ q = k * 2 ^ (-2 : Int)

theorem quarters {f : Float} {k : Nat} (m : Nat) (e : Int) (normal : 2 ^ 52 ≤ m ∧ m < 2 ^ 53 ∧ -1074 ≤ e ∧ e ≤ 971)
    (shape : f.toModel.unpack = .finite .positive m e (Nat.zero_lt_of_lt normal.1))
    (same : k < 16 ∧ (m : ℚ) * 2 ^ e = k * 2 ^ (-2 : Int)) : Quarters f (k * 2 ^ (-2 : Int)) :=
  ⟨same.2 ▸ literalDenotes m e normal shape, k, same.1, rfl⟩

theorem pressureQuarters (pressure : MemoryPressureLevel) :
    Quarters (F64.pressureMultiplier pressure) (pressureMultiplier pressure) := by
  cases pressure with
  | normal =>
    have value : pressureMultiplier .normal = (4 : Nat) * 2 ^ (-2 : Int) := by norm_num [pressureMultiplier]
    rw [value]
    exact quarters 4503599627370496 (-52) (by decide) (by rfl) (by norm_num)
  | warn =>
    have value : pressureMultiplier .warn = (7 : Nat) * 2 ^ (-2 : Int) := by norm_num [pressureMultiplier]
    rw [value]
    exact quarters 7881299347898368 (-52) (by decide) (by rfl) (by norm_num)
  | critical =>
    have value : pressureMultiplier .critical = (10 : Nat) * 2 ^ (-2 : Int) := by norm_num [pressureMultiplier]
    rw [value]
    exact quarters 5629499534213120 (-51) (by decide) (by rfl) (by norm_num)

theorem thermalQuarters (thermal : ThermalPressureLevel) :
    Quarters (F64.thermalMultiplier thermal) (thermalMultiplier thermal) := by
  cases thermal with
  | nominal =>
    have value : thermalMultiplier .nominal = (4 : Nat) * 2 ^ (-2 : Int) := by norm_num [thermalMultiplier]
    rw [value]
    exact quarters 4503599627370496 (-52) (by decide) (by rfl) (by norm_num)
  | fair =>
    have value : thermalMultiplier .fair = (3 : Nat) * 2 ^ (-2 : Int) := by norm_num [thermalMultiplier]
    rw [value]
    exact quarters 6755399441055744 (-53) (by decide) (by rfl) (by norm_num)
  | serious =>
    have value : thermalMultiplier .serious = (2 : Nat) * 2 ^ (-2 : Int) := by norm_num [thermalMultiplier]
    rw [value]
    exact quarters 4503599627370496 (-53) (by decide) (by rfl) (by norm_num)
  | critical =>
    have value : thermalMultiplier .critical = (1 : Nat) * 2 ^ (-2 : Int) := by norm_num [thermalMultiplier]
    rw [value]
    exact quarters 4503599627370496 (-54) (by decide) (by rfl) (by norm_num)

/- The product has at most 36 bits. -/
theorem productExact (n : UInt32) {f : Float} {q : ℚ} (factor : Quarters f q) : (n.toFloat * f).toUInt32 = floatToU32 (n.toNat * q) := by
  obtain ⟨denotes, k, few, value⟩ := factor
  have fits := n.toNat_lt
  have small : n.toNat * k < 2 ^ 53 := by
    have product := Nat.mul_lt_mul'' fits few
    omega
  have whole : (n.toNat : ℚ) * q = ((n.toNat * k : Nat) : ℚ) * 2 ^ (-2 : Int) := by
    rw [value]
    push_cast
    ring
  have natural : (0 : ℚ) ≤ n.toNat * q := by
    rw [whole]
    exact mul_nonneg (Nat.cast_nonneg _) (unitPos _).le
  have size : |(n.toNat : ℚ) * q| < 2 ^ (1000 : Int) := by
    rw [abs_of_nonneg natural, whole]
    have bound : ((n.toNat * k : Nat) : ℚ) < 2 ^ 64 := by exact_mod_cast small.trans (by decide)
    have quarter : (2 : ℚ) ^ (-2 : Int) ≤ 1 := by norm_num
    exact lt_of_le_of_lt (mul_le_of_le_one_right (Nat.cast_nonneg _) quarter) (bound.trans word)
  obtain ⟨r, product, faithful⟩ := mulDenotes (word32Exact n) denotes size
  have same := faithfulExact faithful (whole ▸ representableNat small (by decide))
  rw [floorDenotes32 (same ▸ product) natural]
  rfl

theorem headroomExact (r : Recommender) (pressure : MemoryPressureLevel) : F64.dynamicHeadroom r pressure = r.dynamicHeadroom pressure :=
  productExact _ (pressureQuarters pressure)

theorem recommendExact (r : Recommender) (resources : SystemResources) (pressure : MemoryPressureLevel) (ramPerAgentMb : UInt32) :
    F64.recommendMaxAgents r resources pressure ramPerAgentMb = r.recommendMaxAgents resources pressure ramPerAgentMb := by
  rw [F64.recommendMaxAgents, headroomExact]
  rfl

theorem recommendThermalExact (r : Recommender) (resources : SystemResources) (pressure : MemoryPressureLevel)
    (thermal : ThermalPressureLevel) (ramPerAgentMb : UInt32) :
    F64.recommendMaxAgentsThermal r resources pressure thermal ramPerAgentMb =
      r.recommendMaxAgentsThermal resources pressure thermal ramPerAgentMb := by
  rw [F64.recommendMaxAgentsThermal, recommendExact, productExact _ (thermalQuarters thermal)]
  rfl

theorem recommenderExact (r : Recommender) (resources : SystemResources) (pressure : MemoryPressureLevel) (ramPerAgentMb : UInt32) :
    F64.dynamicHeadroom r pressure = r.dynamicHeadroom pressure ∧
    F64.recommendMaxAgents r resources pressure ramPerAgentMb = r.recommendMaxAgents resources pressure ramPerAgentMb ∧
    ∀ thermal, F64.recommendMaxAgentsThermal r resources pressure thermal ramPerAgentMb =
      r.recommendMaxAgentsThermal resources pressure thermal ramPerAgentMb :=
  ⟨headroomExact r pressure, recommendExact r resources pressure ramPerAgentMb,
    fun thermal => recommendThermalExact r resources pressure thermal ramPerAgentMb⟩

end ArosKernel.Scheduler.Recommender
