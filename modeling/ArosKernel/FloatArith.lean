import ArosKernel.Rounding
import Mathlib.Algebra.Order.Floor.Semifield

/-! The operations on floats that the kernel uses, each by one fact: integers converted,
products, quotients, comparisons and the way back to an unsigned integer. -/
namespace ArosKernel.Rounding
open Float.Model Float.Model.UnpackedFloat

def Denotes (f : Float) (q : ℚ) : Prop := Reads f.toModel.unpack q

theorem denotesLt {f g : Float} {p q : ℚ} (left : Denotes f p) (right : Denotes g q) : f < g ↔ p < q := by
  show decide (f.toModel.unpack.lt g.toModel.unpack = true) = true ↔ _
  rw [decide_eq_true_iff, UnpackedFloat.lt, compareReads left right, ← cmp_eq_lt_iff]
  cases cmp p q <;> simp

theorem denotesLe {f g : Float} {p q : ℚ} (left : Denotes f p) (right : Denotes g q) : f ≤ g ↔ p ≤ q := by
  show decide (f.toModel.unpack.le g.toModel.unpack = true) = true ↔ _
  rw [decide_eq_true_iff, UnpackedFloat.le, compareReads left right, ← not_lt, ← cmp_eq_gt_iff]
  cases cmp p q <;> simp [Ordering.isLE]

theorem log2ShiftLeft {m : Nat} (some_ : m ≠ 0) (k : Nat) : (m <<< k).log2 = m.log2 + k := by
  have bounds := (Nat.log2_eq_iff some_).mp rfl
  have shifted : m <<< k ≠ 0 := by
    rw [Nat.shiftLeft_eq]
    exact Nat.mul_ne_zero some_ (Nat.two_pow_pos k).ne'
  refine (Nat.log2_eq_iff shifted).mpr ⟨?_, ?_⟩
  · rw [Nat.shiftLeft_eq, Nat.pow_add]
    exact Nat.mul_le_mul_right _ bounds.1
  · rw [Nat.shiftLeft_eq, Nat.add_right_comm, Nat.pow_add]
    exact Nat.mul_lt_mul_of_pos_right bounds.2 (Nat.two_pow_pos k)

theorem shiftedValue (m k : Nat) (e : Int) : ((m <<< k : Nat) : ℚ) * 2 ^ (e - k) = m * 2 ^ e := by
  rw [Nat.shiftLeft_eq, zpow_sub₀ (by norm_num), zpow_natCast]
  push_cast
  field_simp

theorem exactApproximates (m : Nat) (e : Int) : Approximates m e .exact (m * 2 ^ e) where
  least := le_refl _
  most := mul_lt_mul_of_pos_right (lt_add_one _) (unitPos e)
  sure _ := rfl

theorem normalizedReads (s : Sign) {m : Nat} (positive : 0 < m) (e : Int) (small : (m : ℚ) * 2 ^ e < 2 ^ (1000 : Int)) :
    ∃ r, Reads (UnpackedFloat.round b64 s m e) r ∧ Faithful (signed s (m * 2 ^ e)) r := by
  have log := log2ShiftLeft positive.ne' (e - target m e).toNat
  have same := shiftedValue m (e - target m e).toNat e
  have enough : e - (e - target m e).toNat ≤ target (m <<< (e - target m e).toNat) (e - (e - target m e).toNat) := by
    rw [targetMax (m <<< _), log, targetMax]
    omega
  have approximates := exactApproximates (m <<< (e - target m e).toNat) (e - (e - target m e).toNat)
  rw [same] at approximates
  exact roundReads s enough approximates small

theorem word : (2 : ℚ) ^ 64 < 2 ^ (1000 : Int) := by
  rw [← zpow_natCast]
  exact zpow_lt_zpow_right₀ (by norm_num) (by norm_num)

theorem intReads (n : Int) (small : n.natAbs < 2 ^ 64) : ∃ r, Reads (UnpackedFloat.ofInt b64 n) r ∧ Faithful n r := by
  have bound (m : Nat) (fits : m < 2 ^ 64) : (m : ℚ) * 2 ^ (0 : Int) < 2 ^ (1000 : Int) := by
    rw [zpow_zero, mul_one]
    have cast : (m : ℚ) < 2 ^ 64 := by exact_mod_cast fits
    exact cast.trans word
  rcases lt_trichotomy n 0 with negative | zero | positive
  · obtain ⟨r, reads, faithful⟩ := normalizedReads .negative (m := (-n).toNat) (by omega) 0 (bound _ (by omega))
    refine ⟨r, ?_, ?_⟩
    · rw [UnpackedFloat.ofInt, UnpackedFloat.normalize, compare_lt_iff_lt.mpr negative]
      exact reads
    · have value : signed .negative (((-n).toNat : ℚ) * 2 ^ (0 : Int)) = n := by
        have whole : (((-n).toNat : Int) : ℚ) = ((-n : Int) : ℚ) := by rw [Int.toNat_of_nonneg (by omega)]
        show -(((-n).toNat : ℚ) * 2 ^ (0 : Int)) = n
        rw [zpow_zero, mul_one, ← Int.cast_natCast, whole]
        push_cast
        ring
      rwa [value] at faithful
  · subst zero
    exact ⟨0, rfl, fun c _ => by simp⟩
  · obtain ⟨r, reads, faithful⟩ := normalizedReads .positive (m := n.toNat) (by omega) 0 (bound _ (by omega))
    refine ⟨r, ?_, ?_⟩
    · rw [UnpackedFloat.ofInt, UnpackedFloat.normalize, compare_gt_iff_gt.mpr positive]
      exact reads
    · have value : signed .positive ((n.toNat : ℚ) * 2 ^ (0 : Int)) = n := by
        show (n.toNat : ℚ) * 2 ^ (0 : Int) = n
        rw [zpow_zero, mul_one, ← Int.cast_natCast, Int.toNat_of_nonneg positive.le]
      rwa [value] at faithful

theorem faithfulExact {x r : ℚ} (faithful : Faithful x r) (represented : Representable x) : r = x :=
  le_antisymm ((faithful x represented).2 (le_refl x)) ((faithful x represented).1 (le_refl x))

theorem intRepresentable {n : Int} (few : n.natAbs < 2 ^ 53) : Representable n :=
  ⟨n, 0, few, by decide, by rw [zpow_zero, mul_one]⟩

theorem representableNat {m : Nat} {e : Int} (few : m < 2 ^ 53) (low : -1074 ≤ e) : Representable (m * 2 ^ e) :=
  ⟨m, e, by rwa [Int.natAbs_natCast], low, by rw [Int.cast_natCast]⟩

theorem denotesPack {u : UnpackedFloat} {q : ℚ} (reads : Reads u q) : Denotes (.ofModel (.pack u)) q := packReads reads

theorem wordDenotes (n : UInt64) : ∃ r, Denotes n.toFloat r ∧ Faithful n.toNat r := by
  have fits := n.toNat_lt
  obtain ⟨r, reads, faithful⟩ := intReads n.toNat (by rwa [Int.natAbs_natCast])
  exact ⟨r, denotesPack reads, by rwa [Int.cast_natCast] at faithful⟩

theorem wordExact {n : UInt64} (few : n.toNat < 2 ^ 53) : Denotes n.toFloat n.toNat := by
  obtain ⟨r, denotes, faithful⟩ := wordDenotes n
  rwa [faithfulExact faithful (by
    rw [← Int.cast_natCast]
    exact intRepresentable (by rwa [Int.natAbs_natCast]))] at denotes

theorem word32Exact (n : UInt32) : Denotes n.toFloat n.toNat := by
  have fits := n.toNat_lt
  obtain ⟨r, reads, faithful⟩ := intReads n.toNat (by rw [Int.natAbs_natCast]; omega)
  have same := faithfulExact faithful (intRepresentable (by rw [Int.natAbs_natCast]; omega))
  rw [Int.cast_natCast] at same
  exact denotesPack (same ▸ reads)

def ofInt64 (n : Int64) : Float := .ofModel (Float.Model.ofInt64 n)

theorem int64Denotes (n : Int64) : ∃ r, Denotes (ofInt64 n) r ∧ Faithful n.toInt r := by
  have low := n.le_toInt
  have high := n.toInt_lt
  obtain ⟨r, reads, faithful⟩ := intReads n.toInt (by omega)
  exact ⟨r, denotesPack reads, faithful⟩

theorem quotientApproximates {m n : Nat} (positive : 0 < n) (t : Int) :
    Approximates (m / n) t (accuracyOfFraction (m % n) n) ((m : ℚ) / n * 2 ^ t) := by
  have unit := unitPos t
  have divisor : (0 : ℚ) < n := Nat.cast_pos.mpr positive
  have below := Nat.mod_lt m positive
  have whole : (m : ℚ) = ((m / n : Nat) : ℚ) * n + ((m % n : Nat) : ℚ) := by
    have split := Nat.div_add_mod m n
    rw [Nat.mul_comm] at split
    exact_mod_cast split.symm
  refine ⟨?_, ?_, fun same => ?_⟩
  · refine mul_le_mul_of_nonneg_right ?_ unit.le
    rw [le_div_iff₀ divisor, whole]
    exact le_add_of_nonneg_right (Nat.cast_nonneg _)
  · refine mul_lt_mul_of_pos_right ?_ unit
    have rest : ((m % n : Nat) : ℚ) < n := Nat.cast_lt.mpr below
    rw [div_lt_iff₀ divisor]
    calc (m : ℚ) = ((m / n : Nat) : ℚ) * n + ((m % n : Nat) : ℚ) := whole
      _ < ((m / n : Nat) : ℚ) * n + n := by linarith
      _ = (((m / n : Nat) : ℚ) + 1) * n := by ring
  · have quotient := mul_right_cancel₀ unit.ne' same
    rw [div_eq_iff divisor.ne'] at quotient
    have rest : ((m % n : Nat) : ℚ) = 0 := by linarith
    have zero : m % n = 0 := by exact_mod_cast rest
    rw [zero]
    rfl

theorem signedDiv (s r : Sign) (p q : ℚ) : signed (s / r) (p / q) = signed s p / signed r q := by
  cases s with
  | positive =>
    cases r with
    | positive => rfl
    | negative => exact (div_neg p).symm
  | negative =>
    cases r with
    | positive => exact (neg_div q p).symm
    | negative => exact (neg_div_neg_eq p q).symm

theorem signedMul (s r : Sign) (p q : ℚ) : signed (s * r) (p * q) = signed s p * signed r q := by
  cases s with
  | positive =>
    cases r with
    | positive => rfl
    | negative => exact (mul_neg p q).symm
  | negative =>
    cases r with
    | positive => exact (neg_mul p q).symm
    | negative => exact (neg_mul_neg p q).symm

-- The exponent of a quotient before it is rounded: low enough for a full mantissa.
def quotientExponent (m : Nat) (e : Int) (n : Nat) (f : Int) : Int :=
  min (e - f) (b64.targetExponent (totalExponent m e - totalExponent n f))

theorem quotientExponentMin (m : Nat) (e : Int) (n : Nat) (f : Int) : quotientExponent m e n f =
    min (e - f) (max ((m.log2 : Int) + 1 + e - (n.log2 + 1 + f) - 53) (-1074)) := rfl

theorem quotientEnough {m n : Nat} (positive : 0 < m) (positive' : 0 < n) (e f : Int) :
    quotientExponent m e n f ≤ target ((m <<< (e - f - quotientExponent m e n f).toNat) / n) (quotientExponent m e n f) := by
  rw [targetMax, le_max_iff]
  by_cases flat : quotientExponent m e n f ≤ -1074
  · exact .inr flat
  refine .inl ?_
  have shift : (n.log2 : Int) + 53 ≤ m.log2 + (e - f - quotientExponent m e n f).toNat := by
    rw [quotientExponentMin] at flat ⊢
    omega
  have full : 2 ^ 52 ≤ (m <<< (e - f - quotientExponent m e n f).toNat) / n := by
    rw [Nat.le_div_iff_mul_le positive', Nat.shiftLeft_eq]
    calc 2 ^ 52 * n ≤ 2 ^ 52 * 2 ^ (n.log2 + 1) := Nat.mul_le_mul_left _ Nat.lt_log2_self.le
      _ = 2 ^ (n.log2 + 53) := by rw [← Nat.pow_add]; congr 1; omega
      _ ≤ 2 ^ (m.log2 + (e - f - quotientExponent m e n f).toNat) := Nat.pow_le_pow_right (by decide) (by omega)
      _ ≤ m * 2 ^ (e - f - quotientExponent m e n f).toNat := by
        rw [Nat.pow_add]
        exact Nat.mul_le_mul_right _ (Nat.log2_self_le positive.ne')
  have log := (Nat.le_log2 (by omega)).mpr full
  omega

theorem quotientValue {m n : Nat} (e f : Int) : ((m <<< (e - f - quotientExponent m e n f).toNat : Nat) : ℚ) / n *
    2 ^ quotientExponent m e n f = (m * 2 ^ e) / (n * 2 ^ f) := by
  have low : quotientExponent m e n f ≤ e - f := min_le_left _ _
  have exponent : quotientExponent m e n f = e - f - (e - f - quotientExponent m e n f).toNat := by omega
  have shifted := shiftedValue m (e - f - quotientExponent m e n f).toNat (e - f)
  rw [← exponent] at shifted
  rw [div_mul_eq_mul_div, shifted, zpow_sub₀ (by norm_num), mul_div_assoc', div_div, mul_comm (2 ^ f)]

theorem divReads {u v : UnpackedFloat} {p q : ℚ} (left : Reads u p) (right : Reads v q) (some_ : q ≠ 0)
    (small : |p / q| < 2 ^ (1000 : Int)) : ∃ r, Reads (UnpackedFloat.div b64 u v) r ∧ Faithful (p / q) r := by
  cases v with
  | infinity s => exact right.elim
  | notANumber => exact right.elim
  | zero s => exact absurd right some_
  | finite r n f positive' =>
    cases u with
    | infinity s => exact left.elim
    | notANumber => exact left.elim
    | zero s =>
      cases show p = 0 from left
      exact ⟨0, rfl, fun c _ => by simp⟩
    | finite s m e positive =>
      have here := magnitudePos positive e
      have there := magnitudePos positive' f
      have value : p / q = signed (s / r) ((m * 2 ^ e) / (n * 2 ^ f)) := by rw [left.2, right.2, signedDiv]
      have size : |p / q| = (m * 2 ^ e) / (n * 2 ^ f) := by
        rw [value]
        have positive := div_pos here there
        cases s / r with
        | positive => exact abs_of_pos positive
        | negative => rw [signed, abs_neg, abs_of_pos positive]
      have approximates := quotientApproximates (m := m <<< (e - f - quotientExponent m e n f).toNat) positive'
        (quotientExponent m e n f)
      rw [quotientValue] at approximates
      rw [value]
      exact roundReads (s / r) (quotientEnough positive positive' e f) approximates (size ▸ small)

theorem divDenotes {f g : Float} {p q : ℚ} (left : Denotes f p) (right : Denotes g q) (some_ : q ≠ 0)
    (small : |p / q| < 2 ^ (1000 : Int)) : ∃ r, Denotes (f / g) r ∧ Faithful (p / q) r := by
  obtain ⟨r, reads, faithful⟩ := divReads left right some_ small
  exact ⟨r, denotesPack reads, faithful⟩

theorem productEnough {m n : Nat} {e f : Int} (left : Canonical m e) (right : Canonical n f) (positive : 0 < m)
    (positive' : 0 < n) : e + f ≤ target (m * n) (e + f) := by
  rw [targetMax, le_max_iff]
  by_cases flat : e + f ≤ -1074
  · exact .inr flat
  refine .inl ?_
  have full : 2 ^ 52 ≤ m * n := by
    rcases left.full with large | low
    · exact large.trans (Nat.le_mul_of_pos_right m positive')
    · rcases right.full with large | low'
      · exact large.trans (Nat.le_mul_of_pos_left n positive)
      · omega
  have log := (Nat.le_log2 (by omega)).mpr full
  omega

theorem mulReads {u v : UnpackedFloat} {p q : ℚ} (left : Reads u p) (right : Reads v q)
    (small : |p * q| < 2 ^ (1000 : Int)) : ∃ r, Reads (UnpackedFloat.mul b64 u v) r ∧ Faithful (p * q) r := by
  cases u with
  | infinity s => exact left.elim
  | notANumber => exact left.elim
  | zero s =>
    cases show p = 0 from left
    cases v with
    | infinity s => exact right.elim
    | notANumber => exact right.elim
    | zero r => exact ⟨0, rfl, fun c _ => by simp⟩
    | finite r n f positive' => exact ⟨0, rfl, fun c _ => by simp⟩
  | finite s m e positive =>
    cases v with
    | infinity s => exact right.elim
    | notANumber => exact right.elim
    | zero r =>
      cases show q = 0 from right
      exact ⟨0, rfl, fun c _ => by simp⟩
    | finite r n f positive' =>
      have here := magnitudePos positive e
      have there := magnitudePos positive' f
      have value : p * q = signed (s * r) ((m * 2 ^ e) * (n * 2 ^ f)) := by rw [left.2, right.2, signedMul]
      have size : |p * q| = (m * 2 ^ e) * (n * 2 ^ f) := by
        rw [value]
        have positive := mul_pos here there
        cases s * r with
        | positive => exact abs_of_pos positive
        | negative => rw [signed, abs_neg, abs_of_pos positive]
      have approximates := exactApproximates (m * n) (e + f)
      have product : ((m * n : Nat) : ℚ) * 2 ^ (e + f) = (m * 2 ^ e) * (n * 2 ^ f) := by
        rw [zpow_add₀ (by norm_num)]
        push_cast
        ring
      rw [product] at approximates
      rw [value]
      exact roundReads (s * r) (productEnough left.1 right.1 positive positive') approximates (size ▸ small)

theorem mulDenotes {f g : Float} {p q : ℚ} (left : Denotes f p) (right : Denotes g q)
    (small : |p * q| < 2 ^ (1000 : Int)) : ∃ r, Denotes (f * g) r ∧ Faithful (p * q) r := by
  obtain ⟨r, reads, faithful⟩ := mulReads left right small
  exact ⟨r, denotesPack reads, faithful⟩

theorem truncated (m : Nat) (e : Int) : roundToInt .positive m e = (⌊(m : ℚ) * 2 ^ e⌋₊ : Int) := by
  have unfolded : roundToInt .positive m e = (((m <<< e.toNat) / 2 ^ (0 - (e - e.toNat)).toNat : Nat) : Int) := by
    show ((ExtendedMantissa.ofMantissaAndAccuracy (m <<< (e - 0).toNat) .exact >>>
      (0 - (e - (e - 0).toNat)).toNat).mantissa : Int) = _
    rw [shiftMantissa, ofMantissa, sub_zero]
  rw [unfolded, Nat.shiftLeft_eq]
  refine congrArg Nat.cast ?_
  rcases le_total 0 e with whole | part
  · obtain ⟨k, same⟩ := Int.eq_ofNat_of_zero_le whole
    subst same
    have value : (m : ℚ) * 2 ^ (k : Int) = ((m * 2 ^ k : Nat) : ℚ) := by
      rw [zpow_natCast]
      push_cast
      rfl
    rw [value, Nat.floor_natCast]
    simp
  · obtain ⟨k, same⟩ := Int.eq_ofNat_of_zero_le (neg_nonneg.mpr part)
    have negative : e = -(k : Int) := by omega
    subst negative
    have value : (m : ℚ) * 2 ^ (-(k : Int)) = (m : ℚ) / ((2 ^ k : Nat) : ℚ) := by
      rw [zpow_neg, zpow_natCast, div_eq_mul_inv]
      push_cast
      rfl
    rw [value, Nat.floor_div_eq_div]
    simp

theorem wholeDenotes {f : Float} {p : ℚ} (denotes : Denotes f p) (natural : 0 ≤ p) (infinite nan : Int) :
    f.toModel.unpack.toInt infinite nan = (⌊p⌋₊ : Int) := by
  cases shape : f.toModel.unpack with
  | infinity s => rw [Denotes, shape] at denotes; exact denotes.elim
  | notANumber => rw [Denotes, shape] at denotes; exact denotes.elim
  | zero s =>
    rw [Denotes, shape] at denotes
    cases show p = 0 from denotes
    rw [Nat.floor_zero]
    rfl
  | finite s m e positive =>
    rw [Denotes, shape] at denotes
    cases s with
    | positive =>
      rw [denotes.2]
      exact truncated m e
    | negative =>
      have below : p < 0 := denotes.2 ▸ neg_lt_zero.mpr (magnitudePos positive e)
      exact absurd natural (not_le.mpr below)

theorem floorDenotes {f : Float} {p : ℚ} (denotes : Denotes f p) (natural : 0 ≤ p) (fits : p < 2 ^ 64) :
    f.toUInt64.toNat = ⌊p⌋₊ := by
  have small : ⌊p⌋₊ < 2 ^ 64 := (Nat.floor_lt natural).mpr (by exact_mod_cast fits)
  show (UInt64.ofNatClamp (f.toModel.unpack.toInt 0 (UInt64.size - 1)).toNat).toNat = _
  rw [wholeDenotes denotes natural, Int.toNat_natCast, UInt64.ofNatClamp_eq_ofNat _ small, UInt64.toNat_ofNat',
    Nat.mod_eq_of_lt small]

theorem floorDenotes32 {f : Float} {p : ℚ} (denotes : Denotes f p) (natural : 0 ≤ p) :
    f.toUInt32 = UInt32.ofNat (min ⌊p⌋₊ 0xFFFFFFFF) := by
  show UInt32.ofNatClamp (f.toModel.unpack.toInt 0 (UInt32.size - 1)).toNat = _
  rw [wholeDenotes denotes natural, Int.toNat_natCast]
  by_cases small : ⌊p⌋₊ < 2 ^ 32
  · rw [UInt32.ofNatClamp_eq_ofNat _ small, Nat.min_eq_left (by omega)]
  · rw [UInt32.ofNatClamp, dif_neg (show ¬ ⌊p⌋₊ < UInt32.size from small), Nat.min_eq_right (by omega)]
    rfl

theorem literalDenotes {f : Float} (m : Nat) (e : Int) (normal : 2 ^ 52 ≤ m ∧ m < 2 ^ 53 ∧ -1074 ≤ e ∧ e ≤ 971)
    (shape : f.toModel.unpack = .finite .positive m e (Nat.zero_lt_of_lt normal.1)) : Denotes f (m * 2 ^ e) := by
  obtain ⟨full, few, low, high⟩ := normal
  rw [Denotes, shape]
  exact ⟨⟨few, low, high, .inl full⟩, rfl⟩

/- A rounded result meets a float threshold exactly when the true one meets the threshold
meant, as long as no true result falls between the float before the threshold and it. -/
theorem thresholdExact {x r c limit before : ℚ} (faithful : Faithful x r) (threshold : Representable c) (le : c ≤ limit)
    (previous : Representable before) (lt : before < c) (gap : x < limit → x ≤ before) : c ≤ r ↔ limit ≤ x := by
  constructor
  · intro met
    by_contra missed
    exact absurd (met.trans ((faithful before previous).2 (gap (not_le.mp missed)))) (not_le.mpr lt)
  · exact fun met => (faithful c threshold).1 (le.trans met)

/-! The larger of two floats, where one that is not a number gives way to the other. -/

def larger (f g : Float) : Float := if f < g then g else if g ≤ f then f else if f ≤ f then f else g

theorem largerDenotes {f g : Float} {p q : ℚ} (left : Denotes f p) (right : Denotes g q) : Denotes (larger f g) (max p q) := by
  rw [larger]
  by_cases less : p < q
  · rw [if_pos ((denotesLt left right).mpr less), max_eq_right less.le]
    exact right
  · have le := not_lt.mp less
    rw [if_neg (fun lt => less ((denotesLt left right).mp lt)), if_pos ((denotesLe right left).mpr le), max_eq_left le]
    exact left

end ArosKernel.Rounding
