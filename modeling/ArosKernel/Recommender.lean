import ArosKernel.Admission
import ArosKernel.Scheduler
import Mathlib.Algebra.Order.Floor.Semiring
import Mathlib.Data.Rat.Floor

/-! The agent recommendation of `scheduler/recommender.rs`. Products of an integer and a
factor are exact, as they are in `f64` here, and `as u32` cuts a float to the range and an
integer to its low bits. `usize` has 64 bits. -/
namespace ArosKernel.Scheduler
open Governor (MemoryPressureLevel saturatingSub)
open AdmissionController (lesser)
open Machine (lesserNat)

structure SystemResources where
  cpuCount : UInt64
  ramAvailableMb : UInt64
  deriving DecidableEq, Repr

inductive ThermalPressureLevel where
  | nominal
  | fair
  | serious
  | critical
  deriving DecidableEq, Repr

def ThermalPressureLevel.ordinal : ThermalPressureLevel → Nat
  | .nominal => 0
  | .fair => 1
  | .serious => 2
  | .critical => 3

-- A float that is not negative `as u32`.
def floatToU32 (x : ℚ) : UInt32 := UInt32.ofNat (min ⌊x⌋₊ 0xFFFFFFFF)

structure Recommender where
  ramHeadroomBaseMb : UInt32
  maxAgentsHardLimit : UInt32
  deriving DecidableEq, Repr

namespace Recommender

def new (headroomMb maxAgents : UInt32) : Recommender :=
  { ramHeadroomBaseMb := headroomMb, maxAgentsHardLimit := maxAgents }

def withDefaults : Recommender := new 2048 0

def pressureMultiplier : MemoryPressureLevel → ℚ
  | .normal => 1.0
  | .warn => 1.75
  | .critical => 2.5

def dynamicHeadroom (r : Recommender) (pressure : MemoryPressureLevel) : UInt32 :=
  floatToU32 (r.ramHeadroomBaseMb.toNat * pressureMultiplier pressure)

def recommendMaxAgents (r : Recommender) (resources : SystemResources) (pressure : MemoryPressureLevel)
    (ramPerAgentMb : UInt32) : UInt32 :=
  let cpuLimit := (resources.cpuCount * 2).toUInt32
  let headroom := r.dynamicHeadroom pressure
  let available := saturatingSub resources.ramAvailableMb headroom.toUInt64
  let ramLimit := if 0 < ramPerAgentMb then (available / ramPerAgentMb.toUInt64).toUInt32 else 0xFFFFFFFF
  let recommended := lesser cpuLimit ramLimit
  if 0 < r.maxAgentsHardLimit then lesser recommended r.maxAgentsHardLimit else recommended

def thermalMultiplier : ThermalPressureLevel → ℚ
  | .nominal => 1.0
  | .fair => 0.75
  | .serious => 0.5
  | .critical => 0.25

def recommendMaxAgentsThermal (r : Recommender) (resources : SystemResources) (pressure : MemoryPressureLevel)
    (thermal : ThermalPressureLevel) (ramPerAgentMb : UInt32) : UInt32 :=
  let base := r.recommendMaxAgents resources pressure ramPerAgentMb
  let clamped := floatToU32 (base.toNat * thermalMultiplier thermal)
  lesser clamped base

end Recommender

theorem floatToU32Nat (x : ℚ) : (floatToU32 x).toNat = min ⌊x⌋₊ (2 ^ 32 - 1) := by
  have fits : min ⌊x⌋₊ 0xFFFFFFFF < 2 ^ 32 := Nat.lt_of_le_of_lt (Nat.min_le_right ..) (by decide)
  rw [floatToU32, UInt32.toNat_ofNat', Nat.mod_eq_of_lt fits]
  rfl

theorem floatToU32Mono {x y : ℚ} (le : x ≤ y) : (floatToU32 x).toNat ≤ (floatToU32 y).toNat := by
  have floors : ⌊x⌋₊ ≤ ⌊y⌋₊ := Nat.floor_mono le
  rw [floatToU32Nat, floatToU32Nat]
  omega

theorem saturatingSubNat (a b : UInt64) : (saturatingSub a b).toNat = a.toNat - b.toNat := by
  unfold saturatingSub
  split
  · rename_i le
    exact UInt64.toNat_sub_of_le _ _ le
  · rename_i gt
    have := UInt64.lt_iff_toNat_lt.mp (UInt64.not_le.mp gt)
    rw [UInt64.toNat_zero]
    omega

namespace Recommender

-- The quotient before `as u32`, and the two limits that do not depend on memory.
def agentsInRam (r : Recommender) (resources : SystemResources) (pressure : MemoryPressureLevel)
    (ramPerAgentMb : UInt32) : Nat :=
  (resources.ramAvailableMb.toNat - (r.dynamicHeadroom pressure).toNat) / ramPerAgentMb.toNat

def agentCap (r : Recommender) (resources : SystemResources) : Nat :=
  let cpus := resources.cpuCount.toNat * 2 % 2 ^ 32
  if 0 < r.maxAgentsHardLimit then min cpus r.maxAgentsHardLimit.toNat else cpus

theorem recommendNat (r : Recommender) (resources : SystemResources) (pressure : MemoryPressureLevel)
    {ramPerAgentMb : UInt32} (positive : 0 < ramPerAgentMb) :
    (r.recommendMaxAgents resources pressure ramPerAgentMb).toNat =
      min (r.agentCap resources) (r.agentsInRam resources pressure ramPerAgentMb % 2 ^ 32) := by
  have cpus : (resources.cpuCount * 2).toUInt32.toNat = resources.cpuCount.toNat * 2 % 2 ^ 32 := by
    rw [UInt64.toNat_toUInt32, UInt64.toNat_mul]
    exact Nat.mod_mod_of_dvd _ (by decide)
  have left : (saturatingSub resources.ramAvailableMb (r.dynamicHeadroom pressure).toUInt64).toNat =
      resources.ramAvailableMb.toNat - (r.dynamicHeadroom pressure).toNat := by
    rw [saturatingSubNat, UInt32.toNat_toUInt64]
  have ram : (saturatingSub resources.ramAvailableMb (r.dynamicHeadroom pressure).toUInt64 /
      ramPerAgentMb.toUInt64).toUInt32.toNat = r.agentsInRam resources pressure ramPerAgentMb % 2 ^ 32 := by
    rw [UInt64.toNat_toUInt32, UInt64.toNat_div, left, UInt32.toNat_toUInt64]
    rfl
  unfold recommendMaxAgents agentCap
  simp only [if_pos positive]
  split
  · rw [lesserNat, lesserNat, cpus, ram]
    omega
  · rw [lesserNat, cpus, ram]

theorem factorMono (n : Nat) {x y : ℚ} (le : x ≤ y) : (n : ℚ) * x ≤ n * y :=
  mul_le_mul_of_nonneg_left le (Nat.cast_nonneg n)

theorem headroomMono (r : Recommender) {p q : MemoryPressureLevel} (le : p.ordinal ≤ q.ordinal) :
    (r.dynamicHeadroom p).toNat ≤ (r.dynamicHeadroom q).toNat := by
  have factors : pressureMultiplier p ≤ pressureMultiplier q := by
    cases p <;> cases q <;> simp [MemoryPressureLevel.ordinal] at le <;> norm_num [pressureMultiplier]
  exact floatToU32Mono (factorMono _ factors)

theorem thermalNat (r : Recommender) (resources : SystemResources) (pressure : MemoryPressureLevel)
    (thermal : ThermalPressureLevel) (ramPerAgentMb : UInt32) :
    (r.recommendMaxAgentsThermal resources pressure thermal ramPerAgentMb).toNat =
      min (floatToU32 ((r.recommendMaxAgents resources pressure ramPerAgentMb).toNat * thermalMultiplier thermal)).toNat
        (r.recommendMaxAgents resources pressure ramPerAgentMb).toNat := lesserNat ..

theorem thermalMono (r : Recommender) (resources : SystemResources) (pressure : MemoryPressureLevel)
    {cool hot : ThermalPressureLevel} (le : cool.ordinal ≤ hot.ordinal) (ramPerAgentMb : UInt32) :
    r.recommendMaxAgentsThermal resources pressure hot ramPerAgentMb ≤
      r.recommendMaxAgentsThermal resources pressure cool ramPerAgentMb := by
  have factors : thermalMultiplier hot ≤ thermalMultiplier cool := by
    cases cool <;> cases hot <;> simp [ThermalPressureLevel.ordinal] at le <;> norm_num [thermalMultiplier]
  have clamped := floatToU32Mono (factorMono (r.recommendMaxAgents resources pressure ramPerAgentMb).toNat factors)
  rw [UInt32.le_iff_toNat_le, thermalNat, thermalNat]
  omega

structure Affords (r : Recommender) (resources : SystemResources) (pressure : MemoryPressureLevel)
    (ramPerAgentMb n : UInt32) : Prop where
  memory : 0 < n →
    n.toNat * ramPerAgentMb.toNat + (r.dynamicHeadroom pressure).toNat ≤ resources.ramAvailableMb.toNat
  cpus : n.toNat ≤ 2 * resources.cpuCount.toNat
  limit : 0 < r.maxAgentsHardLimit → n ≤ r.maxAgentsHardLimit

theorem Affords.fewer {r : Recommender} {resources : SystemResources} {pressure : MemoryPressureLevel}
    {ramPerAgentMb n m : UInt32} (affords : r.Affords resources pressure ramPerAgentMb n) (le : m ≤ n) :
    r.Affords resources pressure ramPerAgentMb m := by
  have less := UInt32.le_iff_toNat_le.mp le
  refine ⟨fun positive => ?_, less.trans affords.cpus, fun limited => UInt32.le_trans le (affords.limit limited)⟩
  have more := affords.memory (UInt32.lt_of_lt_of_le positive le)
  have product := Nat.mul_le_mul_right ramPerAgentMb.toNat less
  omega

theorem affordsBase (r : Recommender) (resources : SystemResources) (pressure : MemoryPressureLevel)
    {ramPerAgentMb : UInt32} (positive : 0 < ramPerAgentMb) :
    r.Affords resources pressure ramPerAgentMb (r.recommendMaxAgents resources pressure ramPerAgentMb) := by
  have spec := r.recommendNat resources pressure positive
  refine ⟨fun some_ => ?_, ?_, fun limited => ?_⟩
  · have cut := Nat.mod_le (r.agentsInRam resources pressure ramPerAgentMb) (2 ^ 32)
    have agents : (r.recommendMaxAgents resources pressure ramPerAgentMb).toNat ≤
        r.agentsInRam resources pressure ramPerAgentMb := by omega
    have product := Nat.mul_le_mul_right ramPerAgentMb.toNat agents
    have whole : r.agentsInRam resources pressure ramPerAgentMb * ramPerAgentMb.toNat ≤
        resources.ramAvailableMb.toNat - (r.dynamicHeadroom pressure).toNat := Nat.div_mul_le_self ..
    have first := UInt32.lt_iff_toNat_lt.mp some_
    have one : 1 * ramPerAgentMb.toNat ≤
        (r.recommendMaxAgents resources pressure ramPerAgentMb).toNat * ramPerAgentMb.toNat :=
      Nat.mul_le_mul_right _ first
    have need := UInt32.lt_iff_toNat_lt.mp positive
    rw [UInt32.toNat_zero] at need
    omega
  · have cap : r.agentCap resources ≤ 2 * resources.cpuCount.toNat := by
      unfold agentCap
      dsimp only
      split <;> omega
    omega
  · rw [UInt32.le_iff_toNat_le]
    have cap : r.agentCap resources ≤ r.maxAgentsHardLimit.toNat := by
      unfold agentCap
      rw [if_pos limited]
      exact Nat.min_le_right ..
    omega

theorem neverOvercommits (r : Recommender) (resources : SystemResources) (pressure : MemoryPressureLevel)
    {ramPerAgentMb : UInt32} (positive : 0 < ramPerAgentMb) :
    r.Affords resources pressure ramPerAgentMb (r.recommendMaxAgents resources pressure ramPerAgentMb) ∧
    ∀ thermal, r.Affords resources pressure ramPerAgentMb
        (r.recommendMaxAgentsThermal resources pressure thermal ramPerAgentMb) ∧
      r.recommendMaxAgentsThermal resources pressure thermal ramPerAgentMb ≤
        r.recommendMaxAgents resources pressure ramPerAgentMb ∧
      ∀ hotter : ThermalPressureLevel, thermal.ordinal ≤ hotter.ordinal →
        r.recommendMaxAgentsThermal resources pressure hotter ramPerAgentMb ≤
          r.recommendMaxAgentsThermal resources pressure thermal ramPerAgentMb := by
  have base := r.affordsBase resources pressure positive
  refine ⟨base, fun thermal => ?_⟩
  have less : r.recommendMaxAgentsThermal resources pressure thermal ramPerAgentMb ≤
      r.recommendMaxAgents resources pressure ramPerAgentMb := by
    rw [UInt32.le_iff_toNat_le, thermalNat]
    exact Nat.min_le_right ..
  exact ⟨base.fewer less, less, fun hotter le => r.thermalMono resources pressure le ramPerAgentMb⟩

def tenCores : SystemResources := { cpuCount := 10, ramAvailableMb := 8000 }

theorem neverOvercommitsTenCores :
    withDefaults.Affords tenCores .critical 250 (withDefaults.recommendMaxAgents tenCores .critical 250) ∧
    ∀ thermal, withDefaults.Affords tenCores .critical 250
        (withDefaults.recommendMaxAgentsThermal tenCores .critical thermal 250) ∧
      withDefaults.recommendMaxAgentsThermal tenCores .critical thermal 250 ≤
        withDefaults.recommendMaxAgents tenCores .critical 250 ∧
      ∀ hotter : ThermalPressureLevel, thermal.ordinal ≤ hotter.ordinal →
        withDefaults.recommendMaxAgentsThermal tenCores .critical hotter 250 ≤
          withDefaults.recommendMaxAgentsThermal tenCores .critical thermal 250 :=
  neverOvercommits withDefaults tenCores .critical (by decide)

example : withDefaults.recommendMaxAgentsThermal tenCores .critical .serious 250 = 5 := by decide +kernel

structure Roomier (resources resources' : SystemResources) (pressure pressure' : MemoryPressureLevel)
    (ramPerAgentMb ramPerAgentMb' : UInt32) : Prop where
  cpus : resources'.cpuCount = resources.cpuCount
  available : resources.ramAvailableMb ≤ resources'.ramAvailableMb
  pressure : pressure'.ordinal ≤ pressure.ordinal
  need : ramPerAgentMb' ≤ ramPerAgentMb
  positive : 0 < ramPerAgentMb'

variable {resources resources' : SystemResources} {pressure pressure' : MemoryPressureLevel}
variable {ramPerAgentMb ramPerAgentMb' : UInt32}

theorem agentsGrow (r : Recommender)
    (roomier : Roomier resources resources' pressure pressure' ramPerAgentMb ramPerAgentMb') :
    r.agentsInRam resources pressure ramPerAgentMb ≤ r.agentsInRam resources' pressure' ramPerAgentMb' := by
  have headroom := r.headroomMono roomier.pressure
  have available := UInt64.le_iff_toNat_le.mp roomier.available
  have need := UInt32.le_iff_toNat_le.mp roomier.need
  have positive := UInt32.lt_iff_toNat_lt.mp roomier.positive
  calc (resources.ramAvailableMb.toNat - (r.dynamicHeadroom pressure).toNat) / ramPerAgentMb.toNat
    _ ≤ (resources'.ramAvailableMb.toNat - (r.dynamicHeadroom pressure').toNat) / ramPerAgentMb.toNat :=
      Nat.div_le_div_right (by omega)
    _ ≤ (resources'.ramAvailableMb.toNat - (r.dynamicHeadroom pressure').toNat) / ramPerAgentMb'.toNat :=
      Nat.div_le_div_left need positive

def Uncut (r : Recommender) (resources : SystemResources) (agents : Nat) : Prop :=
  agents < 2 ^ 32 ∨ r.agentCap resources ≤ agents % 2 ^ 32

def shrunk (r : Recommender) (resources : SystemResources) (pressure : MemoryPressureLevel) (ramPerAgentMb : UInt32)
    (agents : Nat) : SystemResources :=
  { resources with ramAvailableMb := .ofNat ((r.dynamicHeadroom pressure).toNat + ramPerAgentMb.toNat * agents) }

theorem shrunkRoomier (r : Recommender) (resources : SystemResources) (pressure : MemoryPressureLevel)
    {ramPerAgentMb : UInt32} (positive : 0 < ramPerAgentMb) {agents : Nat} (some_ : 0 < agents)
    (fewer : agents ≤ r.agentsInRam resources pressure ramPerAgentMb) :
    Roomier (r.shrunk resources pressure ramPerAgentMb agents) resources pressure pressure ramPerAgentMb ramPerAgentMb ∧
      r.agentsInRam (r.shrunk resources pressure ramPerAgentMb agents) pressure ramPerAgentMb = agents := by
  have need := UInt32.lt_iff_toNat_lt.mp positive
  rw [UInt32.toNat_zero] at need
  have product : ramPerAgentMb.toNat * agents ≤ resources.ramAvailableMb.toNat - (r.dynamicHeadroom pressure).toNat :=
    calc ramPerAgentMb.toNat * agents
      _ ≤ ramPerAgentMb.toNat * r.agentsInRam resources pressure ramPerAgentMb := Nat.mul_le_mul_left _ fewer
      _ ≤ resources.ramAvailableMb.toNat - (r.dynamicHeadroom pressure).toNat := Nat.mul_div_le ..
  have taken : 0 < ramPerAgentMb.toNat * agents := Nat.mul_pos need some_
  have memory : (r.shrunk resources pressure ramPerAgentMb agents).ramAvailableMb.toNat =
      (r.dynamicHeadroom pressure).toNat + ramPerAgentMb.toNat * agents := by
    have fits := resources.ramAvailableMb.toNat_lt
    rw [shrunk, UInt64.toNat_ofNat', Nat.mod_eq_of_lt (by omega)]
  constructor
  · refine ⟨rfl, ?_, Nat.le_refl _, UInt32.le_refl _, positive⟩
    rw [UInt64.le_iff_toNat_le, memory]
    omega
  · rw [agentsInRam, memory, Nat.add_sub_cancel_left, Nat.mul_div_cancel_left _ need]

theorem recommendationOrder (r : Recommender)
    (roomier : Roomier resources resources' pressure pressure' ramPerAgentMb ramPerAgentMb') :
    r.recommendMaxAgents resources pressure ramPerAgentMb ≤ r.recommendMaxAgents resources' pressure' ramPerAgentMb' ↔
      r.Uncut resources' (r.agentsInRam resources' pressure' ramPerAgentMb') ∨
        r.agentsInRam resources pressure ramPerAgentMb % 2 ^ 32 ≤
          r.agentsInRam resources' pressure' ramPerAgentMb' % 2 ^ 32 := by
  have cap : r.agentCap resources = r.agentCap resources' := by rw [agentCap, agentCap, roomier.cpus]
  have grow := r.agentsGrow roomier
  rw [UInt32.le_iff_toNat_le, r.recommendNat resources' pressure' roomier.positive,
    r.recommendNat resources pressure (UInt32.lt_of_lt_of_le roomier.positive roomier.need), cap, Uncut]
  by_cases small : r.agentsInRam resources' pressure' ramPerAgentMb' < 2 ^ 32
  · have whole := Nat.mod_eq_of_lt small
    have first := Nat.mod_eq_of_lt (Nat.lt_of_le_of_lt grow small)
    omega
  · omega

/- On a machine whose quotient is cut below the other limits, a machine with memory for one
agent more than what is left of it gets more. -/
theorem recommendationMonotoneIff (r : Recommender) (resources' : SystemResources) (pressure' : MemoryPressureLevel)
    {ramPerAgentMb' : UInt32} (positive : 0 < ramPerAgentMb') :
    ((∀ resources pressure ramPerAgentMb,
        Roomier resources resources' pressure pressure' ramPerAgentMb ramPerAgentMb' →
        r.recommendMaxAgents resources pressure ramPerAgentMb ≤
          r.recommendMaxAgents resources' pressure' ramPerAgentMb') ↔
      r.Uncut resources' (r.agentsInRam resources' pressure' ramPerAgentMb')) ∧
    ∀ resources pressure ramPerAgentMb, Roomier resources resources' pressure pressure' ramPerAgentMb ramPerAgentMb' →
      (r.recommendMaxAgents resources pressure ramPerAgentMb ≤
          r.recommendMaxAgents resources' pressure' ramPerAgentMb' ↔
        r.Uncut resources' (r.agentsInRam resources' pressure' ramPerAgentMb') ∨
          r.agentsInRam resources pressure ramPerAgentMb % 2 ^ 32 ≤
            r.agentsInRam resources' pressure' ramPerAgentMb' % 2 ^ 32) := by
  refine ⟨⟨fun monotone => ?_, fun uncut resources pressure ramPerAgentMb roomier =>
    (r.recommendationOrder roomier).mpr (.inl uncut)⟩, fun resources pressure ramPerAgentMb => r.recommendationOrder⟩
  by_contra cut
  have left := cut
  rw [Uncut, not_or, Nat.not_lt, Nat.not_le] at left
  have capped : r.agentCap resources' < 2 ^ 32 := by
    unfold agentCap
    dsimp only
    split <;> omega
  have fewer : r.agentsInRam resources' pressure' ramPerAgentMb' % 2 ^ 32 + 1 ≤
      r.agentsInRam resources' pressure' ramPerAgentMb' := by omega
  obtain ⟨roomier, one⟩ := r.shrunkRoomier resources' pressure' positive (Nat.succ_pos _) fewer
  rcases (r.recommendationOrder roomier).mp (monotone _ _ _ roomier) with uncut | order
  · exact cut uncut
  · rw [one] at order
    omega

def modest : SystemResources := { cpuCount := 1, ramAvailableMb := 2050 }
def vast : SystemResources := { cpuCount := 1, ramAvailableMb := 4294969344 }

theorem vastRecommendsNone : modest.ramAvailableMb ≤ vast.ramAvailableMb ∧
    ¬ withDefaults.recommendMaxAgents modest .normal 1 ≤ withDefaults.recommendMaxAgents vast .normal 1 := by
  refine ⟨by decide, ?_⟩
  have some_ : withDefaults.recommendMaxAgents modest .normal 1 = 2 := by decide +kernel
  have none : withDefaults.recommendMaxAgents vast .normal 1 = 0 := by decide +kernel
  rw [some_, none]
  decide

theorem recommendationMonotoneIffTenCores :
    ((∀ resources pressure ramPerAgentMb, Roomier resources tenCores pressure .normal ramPerAgentMb 250 →
        withDefaults.recommendMaxAgents resources pressure ramPerAgentMb ≤
          withDefaults.recommendMaxAgents tenCores .normal 250) ↔
      withDefaults.Uncut tenCores (withDefaults.agentsInRam tenCores .normal 250)) ∧
    ∀ resources pressure ramPerAgentMb, Roomier resources tenCores pressure .normal ramPerAgentMb 250 →
      (withDefaults.recommendMaxAgents resources pressure ramPerAgentMb ≤
          withDefaults.recommendMaxAgents tenCores .normal 250 ↔
        withDefaults.Uncut tenCores (withDefaults.agentsInRam tenCores .normal 250) ∨
          withDefaults.agentsInRam resources pressure ramPerAgentMb % 2 ^ 32 ≤
            withDefaults.agentsInRam tenCores .normal 250 % 2 ^ 32) :=
  recommendationMonotoneIff withDefaults tenCores .normal (by decide)

end Recommender
end ArosKernel.Scheduler
