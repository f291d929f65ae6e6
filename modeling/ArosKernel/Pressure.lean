import ArosKernel.FloatArith
import ArosKernel.Recommender

/-! The probe of `hardware/probe.rs` and the memory pressure of `hardware/pressure.rs`, with
the ratios in floats as the code computes them. `usize` has 64 bits. -/
namespace ArosKernel.Hardware
open Governor (MemoryPressureLevel saturatingSub)
open Scheduler (saturatingSubNat)
open Rounding

structure SystemResources where
  cpuCount : UInt64
  ramTotalMb : UInt64
  ramAvailableMb : UInt64
  loadAvg1 : Float
  loadAvg5 : Float
  loadAvg15 : Float

-- What the operating system answers when it is asked, memory in bytes.
structure SystemReading where
  cpus : UInt64
  totalMemory : UInt64
  availableMemory : UInt64
  loadOne : Float
  loadFive : Float
  loadFifteen : Float

def SystemReading.resources (os : SystemReading) : SystemResources :=
  { cpuCount := os.cpus, ramTotalMb := os.totalMemory / (1024 * 1024), ramAvailableMb := os.availableMemory / (1024 * 1024),
    loadAvg1 := os.loadOne, loadAvg5 := os.loadFive, loadAvg15 := os.loadFifteen }

structure PressureResult where
  level : MemoryPressureLevel
  ramAvailableConservativeMb : UInt64
  ramCompressorMb : UInt64
  source : String
  deriving DecidableEq

def detectFromRatio (ramTotalMb ramAvailableMb : UInt64) : PressureResult :=
  if ramTotalMb = 0 then
    { level := .critical, ramAvailableConservativeMb := 0, ramCompressorMb := 0, source := "ram_ratio_zero_total" }
  else
    let used := saturatingSub ramTotalMb ramAvailableMb
    let ratio := used.toFloat / ramTotalMb.toFloat
    let level := if 0.85 ≤ ratio then .critical else if 0.60 ≤ ratio then .warn else .normal
    { level, ramAvailableConservativeMb := ramAvailableMb, ramCompressorMb := 0, source := "ram_ratio" }

-- Where the target is not macOS.
def detectPressure (resources : SystemResources) : PressureResult :=
  detectFromRatio resources.ramTotalMb resources.ramAvailableMb

theorem megabytesFew (bytes : UInt64) : (bytes / (1024 * 1024)).toNat < 2 ^ 44 := by
  have fits := bytes.toNat_lt
  have million : ((1024 * 1024 : UInt64)).toNat = 1048576 := by decide
  rw [UInt64.toNat_div, million]
  omega

theorem gapBelow {a n p q : Nat} (some_ : 0 < n) (few : n < 2 ^ 44) (positive : 0 < q) {before : ℚ}
    (close : (p : ℚ) / q - before ≤ 1 / (q * 2 ^ 44)) (less : (a : ℚ) / n < p / q) : (a : ℚ) / n ≤ before := by
  have there : (0 : ℚ) < n := Nat.cast_pos.mpr some_
  have here : (0 : ℚ) < q := Nat.cast_pos.mpr positive
  rw [div_lt_div_iff₀ there here] at less
  have apart : ((a * q + 1 : Nat) : ℚ) ≤ ((p * n : Nat) : ℚ) := Nat.cast_le.mpr (by exact_mod_cast less)
  push_cast at apart
  have small : (1 : ℚ) / (q * 2 ^ 44) ≤ 1 / (q * n) := by
    refine one_div_le_one_div_of_le (mul_pos here there) (mul_le_mul_of_nonneg_left ?_ here.le)
    exact_mod_cast few.le
  have step : (a : ℚ) / n + 1 / (q * n) ≤ p / q := by
    have sum : (a : ℚ) / n + 1 / (q * n) = (a * q + 1) / (q * n) := by
      field_simp
    rw [sum, div_le_div_iff₀ (mul_pos here there) here]
    calc ((a : ℚ) * q + 1) * q ≤ p * n * q := mul_le_mul_of_nonneg_right apart here.le
      _ = p * (q * n) := by ring
  linarith

/- Two counts below 2^44, the threshold a float just below the fraction that is meant. -/
theorem ratioMeets {a n : UInt64} (some_ : n ≠ 0) (le : a ≤ n) (few : n.toNat < 2 ^ 44) {limit : Float} {m p q : Nat}
    (denotes : Denotes limit (m * 2 ^ (-53 : Int))) (short : m < 2 ^ 53) (positive : 0 < q) (large : 0 < m)
    (below : (m : ℚ) * 2 ^ (-53 : Int) ≤ p / q)
    (close : (p : ℚ) / q - ((m - 1 : Nat) : ℚ) * 2 ^ (-53 : Int) ≤ 1 / (q * 2 ^ 44)) :
    limit ≤ a.toFloat / n.toFloat ↔ p * n.toNat ≤ q * a.toNat := by
  have fits := UInt64.le_iff_toNat_le.mp le
  have nonzero : n.toNat ≠ 0 := fun zero => some_ (UInt64.toNat_inj.mp zero)
  have divisor : (0 : ℚ) < n.toNat := Nat.cast_pos.mpr (Nat.pos_of_ne_zero nonzero)
  have size : |(a.toNat : ℚ) / n.toNat| < 2 ^ (1000 : Int) := by
    rw [abs_of_nonneg (div_nonneg (Nat.cast_nonneg _) divisor.le)]
    have one : (a.toNat : ℚ) / n.toNat ≤ 1 := (div_le_one divisor).mpr (Nat.cast_le.mpr fits)
    exact lt_of_le_of_lt one (one_lt_zpow₀ (by norm_num) (by norm_num))
  obtain ⟨r, ratio, faithful⟩ := divDenotes (wordExact (show a.toNat < 2 ^ 53 by omega)) (wordExact (by omega))
    divisor.ne' size
  have previous : ((m - 1 : Nat) : ℚ) * 2 ^ (-53 : Int) < m * 2 ^ (-53 : Int) :=
    mul_lt_mul_of_pos_right (Nat.cast_lt.mpr (by omega)) (unitPos _)
  have exact_ := thresholdExact faithful (representableNat short (by decide)) below
    (representableNat (show m - 1 < 2 ^ 53 by omega) (by decide)) previous
    (gapBelow (Nat.pos_of_ne_zero nonzero) few positive close)
  rw [denotesLe denotes ratio, exact_, div_le_div_iff₀ (Nat.cast_pos.mpr positive) divisor]
  constructor
  · intro met
    have numbers : p * n.toNat ≤ a.toNat * q := by exact_mod_cast met
    rwa [Nat.mul_comm q]
  · intro met
    rw [Nat.mul_comm q] at met
    exact_mod_cast met

theorem criticalThreshold : Denotes 0.85 ((7656119366529843 : Nat) * 2 ^ (-53 : Int)) :=
  literalDenotes 7656119366529843 (-53) (by decide) (by rfl)

theorem warnThreshold : Denotes 0.60 ((5404319552844595 : Nat) * 2 ^ (-53 : Int)) :=
  literalDenotes 5404319552844595 (-53) (by decide) (by rfl)

def usedMb (total available : Nat) : Nat := total - available

def ratioLevel (total available : Nat) : MemoryPressureLevel :=
  if total = 0 ∨ 17 * total ≤ 20 * usedMb total available then .critical
  else if 3 * total ≤ 5 * usedMb total available then .warn
  else .normal

theorem ratioLevelExact {total available : UInt64} (few : total.toNat < 2 ^ 44) :
    (detectFromRatio total available).level = ratioLevel total.toNat available.toNat := by
  unfold detectFromRatio ratioLevel
  by_cases zero : total = 0
  · subst zero
    rfl
  have nonzero : total.toNat ≠ 0 := fun none => zero (UInt64.toNat_inj.mp none)
  have le : saturatingSub total available ≤ total := by
    rw [UInt64.le_iff_toNat_le, saturatingSubNat]
    omega
  have critical := ratioMeets zero le few criticalThreshold (p := 17) (q := 20) (by decide) (by decide) (by decide)
    (by norm_num) (by norm_num)
  have warn := ratioMeets zero le few warnThreshold (p := 3) (q := 5) (by decide) (by decide) (by decide)
    (by norm_num) (by norm_num)
  rw [saturatingSubNat] at critical warn
  rw [if_neg zero]
  dsimp only
  by_cases most : 17 * total.toNat ≤ 20 * usedMb total.toNat available.toNat
  · rw [if_pos (critical.mpr most), if_pos (.inr most)]
  · have calm : ¬ (total.toNat = 0 ∨ 17 * total.toNat ≤ 20 * usedMb total.toNat available.toNat) := by
      rintro (none | met)
      · exact nonzero none
      · exact most met
    rw [if_neg (fun met => most (critical.mp met)), if_neg calm]
    by_cases much : 3 * total.toNat ≤ 5 * usedMb total.toNat available.toNat
    · rw [if_pos (warn.mpr much), if_pos much]
    · rw [if_neg (fun met => much (warn.mp met)), if_neg much]

theorem ratioLevelMono {total available available' : Nat} (le : available ≤ available') :
    (ratioLevel total available').ordinal ≤ (ratioLevel total available).ordinal := by
  unfold ratioLevel usedMb
  split
  · rw [if_pos (by omega)]
  · split
    · split
      · decide
      · rw [if_pos (by omega)]
    · exact Nat.zero_le _

theorem conservativeLe (total available : UInt64) : (detectFromRatio total available).ramAvailableConservativeMb ≤ available := by
  unfold detectFromRatio
  split
  · rw [UInt64.le_iff_toNat_le]
    exact Nat.zero_le _
  · exact UInt64.le_refl available

def SystemReading.totalMb (os : SystemReading) : Nat := os.totalMemory.toNat / 1048576
def SystemReading.availableMb (os : SystemReading) : Nat := os.availableMemory.toNat / 1048576

theorem megabytes (bytes : UInt64) : (bytes / (1024 * 1024)).toNat = bytes.toNat / 1048576 := by
  rw [UInt64.toNat_div]
  rfl

theorem levelOfReading (os : SystemReading) : (detectPressure os.resources).level = ratioLevel os.totalMb os.availableMb := by
  have exact_ := @ratioLevelExact _ (os.availableMemory / (1024 * 1024)) (megabytesFew os.totalMemory)
  rwa [megabytes, megabytes] at exact_

theorem pressureExact (os : SystemReading) :
    (detectPressure os.resources).level = ratioLevel os.totalMb os.availableMb ∧
    (detectPressure os.resources).ramAvailableConservativeMb ≤ os.resources.ramAvailableMb ∧
    ∀ os' : SystemReading, os'.totalMemory = os.totalMemory → os.availableMemory ≤ os'.availableMemory →
      (detectPressure os'.resources).level.ordinal ≤ (detectPressure os.resources).level.ordinal := by
  refine ⟨levelOfReading os, conservativeLe _ _, fun os' same more => ?_⟩
  rw [levelOfReading, levelOfReading, SystemReading.totalMb, same]
  exact ratioLevelMono (Nat.div_le_div_right (UInt64.le_iff_toNat_le.mp more))

end ArosKernel.Hardware
