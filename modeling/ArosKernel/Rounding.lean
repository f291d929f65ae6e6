import Mathlib.Data.Rat.Floor

/-! Binary64 arithmetic by the rational numbers it stands for. A float reads as the
number its mantissa and exponent give, and a rounded operation lies on the same side of
every representable number as the exact result, which is all its users need. -/
namespace ArosKernel.Rounding
open Float.Model Float.Model.UnpackedFloat

abbrev b64 : Format := Format.binary64

structure Canonical (m : Nat) (e : Int) : Prop where
  few : m < 2 ^ 53
  low : -1074 ≤ e
  high : e ≤ 971
  full : 2 ^ 52 ≤ m ∨ e = -1074

def Representable (c : ℚ) : Prop := ∃ m e : Int, m.natAbs < 2 ^ 53 ∧ -1074 ≤ e ∧ c = m * 2 ^ e

def Faithful (x r : ℚ) : Prop := ∀ c, Representable c → (c ≤ x → c ≤ r) ∧ (x ≤ c → r ≤ c)

def signed : Sign → ℚ → ℚ
  | .positive, q => q
  | .negative, q => -q

def Reads : UnpackedFloat → ℚ → Prop
  | .zero _, q => q = 0
  | .finite s m e _, q => Canonical m e ∧ q = signed s (m * 2 ^ e)
  | .infinity _, _ => False
  | .notANumber, _ => False

theorem shiftMantissa (em : ExtendedMantissa) (k : Nat) : (em >>> k).mantissa = em.mantissa / 2 ^ k := by
  induction k with
  | zero => exact (Nat.div_one _).symm
  | succ k ih =>
    show (em >>> k).mantissa / 2 = _
    rw [ih, Nat.div_div_eq_div_mul, Nat.pow_succ]

theorem shiftClean (em : ExtendedMantissa) (clean : em.roundBit = false ∧ em.stickyBit = false) (k : Nat)
    (zeros : em.mantissa % 2 ^ k = 0) : (em >>> k).roundBit = false ∧ (em >>> k).stickyBit = false := by
  induction k with
  | zero => exact clean
  | succ k ih =>
    have split : em.mantissa % 2 ^ k + 2 ^ k * (em.mantissa / 2 ^ k % 2) = 0 := by
      rw [← Nat.mod_mul, ← Nat.pow_succ, zeros]
    have below : em.mantissa % 2 ^ k = 0 := by omega
    have here : em.mantissa / 2 ^ k % 2 = 0 := by
      have positive : 0 < 2 ^ k := Nat.two_pow_pos k
      rcases Nat.mul_eq_zero.mp (show 2 ^ k * (em.mantissa / 2 ^ k % 2) = 0 by omega) with zero | zero
      · omega
      · exact zero
    obtain ⟨round, sticky⟩ := ih below
    refine ⟨?_, ?_⟩
    · show ((em >>> k).mantissa % 2 != 0) = false
      rw [shiftMantissa, here]
      rfl
    · show ((em >>> k).roundBit || (em >>> k).stickyBit) = false
      rw [round, sticky]
      rfl

theorem roundedBounds (em : ExtendedMantissa) : em.mantissa ≤ em.roundedMantissa ∧ em.roundedMantissa ≤ em.mantissa + 1 := by
  rcases em with ⟨m, round, sticky⟩
  have even := Nat.mod_lt m (show 0 < 2 by decide)
  cases round with
  | false =>
    cases sticky with
    | false => exact ⟨Nat.le_refl m, Nat.le_succ m⟩
    | true => exact ⟨Nat.le_refl m, Nat.le_succ m⟩
  | true =>
    cases sticky with
    | false =>
      show m ≤ m + m % 2 ∧ m + m % 2 ≤ m + 1
      omega
    | true => exact ⟨Nat.le_succ m, Nat.le_refl (m + 1)⟩

theorem roundedClean {em : ExtendedMantissa} (clean : em.roundBit = false ∧ em.stickyBit = false) :
    em.roundedMantissa = em.mantissa := by
  rcases em with ⟨m, round, sticky⟩
  obtain ⟨zeroRound, zeroSticky⟩ := clean
  dsimp only at zeroRound zeroSticky
  subst zeroRound zeroSticky
  rfl

theorem ofMantissa (m : Nat) (a : Accuracy) : (ExtendedMantissa.ofMantissaAndAccuracy m a).mantissa = m := by
  cases a with
  | exact => rfl
  | inexact order => cases order <;> rfl

-- The mantissa a rounding keeps, before a carry out of its 53 bits is put back.
def kept (m k : Nat) (a : Accuracy) : Nat := (ExtendedMantissa.ofMantissaAndAccuracy m a >>> k).roundedMantissa

theorem keptBounds (m k : Nat) (a : Accuracy) : m / 2 ^ k ≤ kept m k a ∧ kept m k a ≤ m / 2 ^ k + 1 := by
  have bounds := roundedBounds (ExtendedMantissa.ofMantissaAndAccuracy m a >>> k)
  rwa [shiftMantissa, ofMantissa] at bounds

theorem keptExact {m k : Nat} (zeros : m % 2 ^ k = 0) : kept m k .exact = m / 2 ^ k := by
  have clean := shiftClean (ExtendedMantissa.ofMantissaAndAccuracy m .exact) ⟨rfl, rfl⟩ k zeros
  rw [kept, roundedClean clean, shiftMantissa]
  rfl

def target (m : Nat) (e : Int) : Int := b64.targetExponent (totalExponent m e)

theorem targetMax (m : Nat) (e : Int) : target m e = max ((m.log2 : Int) + 1 + e - 53) (-1074) := rfl

theorem shiftTo (m : Nat) (e : Int) (a : Accuracy) :
    shiftToTargetExponent b64 m e a =
      (ExtendedMantissa.ofMantissaAndAccuracy m a >>> (target m e - e).toNat, e + (target m e - e).toNat) := rfl

theorem log2Le {m : Nat} (few : m < 2 ^ 53) : m.log2 ≤ 52 := by
  by_cases zero : m = 0
  · subst zero
    decide
  · exact Nat.lt_succ_iff.mp ((Nat.log2_lt zero).mpr few)

/- A mantissa of at most 53 bits stays; one more carries into the exponent. -/
theorem shiftFew {m : Nat} (few : m < 2 ^ 53) {e : Int} (low : -1074 ≤ e) :
    shiftToTargetExponent b64 m e .exact = (⟨m, false, false⟩, e) := by
  have log := log2Le few
  have none : (target m e - e).toNat = 0 := by
    rw [targetMax]
    omega
  rw [shiftTo, none]
  simp only [Nat.cast_zero, add_zero]
  rfl

theorem shiftCarry {e : Int} (low : -1074 ≤ e) :
    shiftToTargetExponent b64 (2 ^ 53) e .exact = (⟨2 ^ 52, false, false⟩, e + 1) := by
  have one : (target (2 ^ 53) e - e).toNat = 1 := by
    rw [targetMax, Nat.log2_two_pow]
    omega
  rw [shiftTo, one]
  rfl

theorem keptFew {m : Nat} {e : Int} (enough : e ≤ target m e) (a : Accuracy) :
    kept m (target m e - e).toNat a ≤ 2 ^ 53 := by
  have bounds := (keptBounds m (target m e - e).toNat a).2
  have reach : m.log2 ≤ 52 + (target m e - e).toNat := by
    rw [targetMax] at enough ⊢
    omega
  have few : m / 2 ^ (target m e - e).toNat < 2 ^ 53 := by
    rw [Nat.div_lt_iff_lt_mul (Nat.two_pow_pos _), ← Nat.pow_add]
    exact Nat.lt_of_lt_of_le Nat.lt_log2_self (Nat.pow_le_pow_right (by decide) (by omega))
  omega

theorem roundShape (s : Sign) {m : Nat} {e : Int} (enough : e ≤ target m e) (a : Accuracy) :
    (kept m (target m e - e).toNat a = 0 ∧ roundWithAccuracy b64 s m e a = .zero s) ∨
    (∃ positive : 0 < kept m (target m e - e).toNat a, kept m (target m e - e).toNat a < 2 ^ 53 ∧
      roundWithAccuracy b64 s m e a = .finite s (kept m (target m e - e).toNat a) (target m e) positive) ∨
    (kept m (target m e - e).toNat a = 2 ^ 53 ∧
      roundWithAccuracy b64 s m e a = .finite s (2 ^ 52) (target m e + 1) (by decide)) := by
  have low : -1074 ≤ target m e := by rw [targetMax]; omega
  have sum : e + ((target m e - e).toNat : Int) = target m e := by omega
  have most := keptFew enough a
  have unfolded : ∀ f : Int, e + ((target m e - e).toNat : Int) = f → roundWithAccuracy b64 s m e a =
      if h : (shiftToTargetExponent b64 (kept m (target m e - e).toNat a) f .exact).1.mantissa = 0 then .zero s
      else .finite s (shiftToTargetExponent b64 (kept m (target m e - e).toNat a) f .exact).1.mantissa
        (shiftToTargetExponent b64 (kept m (target m e - e).toNat a) f .exact).2 (Nat.pos_of_ne_zero h) := by
    intro f same
    subst same
    rfl
  rw [unfolded _ sum]
  generalize kept m (target m e - e).toNat a = r at most
  by_cases carry : r = 2 ^ 53
  · subst carry
    refine .inr (.inr ⟨rfl, ?_⟩)
    rw [shiftCarry low]
    rfl
  · have few : r < 2 ^ 53 := by omega
    rw [shiftFew few low]
    by_cases zero : r = 0
    · exact .inl ⟨zero, dif_pos zero⟩
    · exact .inr (.inl ⟨Nat.pos_of_ne_zero zero, few, dif_neg zero⟩)

theorem unitPos (t : Int) : (0 : ℚ) < 2 ^ t := zpow_pos (by norm_num) t

theorem powSplit {e t : Int} (le : e ≤ t) : (2 : ℚ) ^ t = 2 ^ (t - e).toNat * 2 ^ e := by
  rw [← zpow_natCast, ← zpow_add₀ (by norm_num)]
  congr 1
  omega

theorem gridFaithful {m r : Nat} {t : Int} {x : ℚ} (full : 2 ^ 52 ≤ m ∨ t = -1074)
    (least : m * 2 ^ t ≤ x) (most : x < (m + 1) * 2 ^ t) (near : r = m ∨ (r = m + 1 ∧ m * 2 ^ t < x)) :
    Faithful x (r * 2 ^ t) := by
  have unit := unitPos t
  have grown : (m : ℚ) * 2 ^ t ≤ r * 2 ^ t := by
    refine mul_le_mul_of_nonneg_right ?_ unit.le
    rcases near with same | ⟨next, _⟩
    · rw [same]
    · rw [next]
      push_cast
      linarith
  intro c represented
  obtain ⟨z, f, few, low, value⟩ := represented
  by_cases negative : z < 0
  · have less : c < 0 := by
      rw [value]
      exact mul_neg_of_neg_of_pos (Int.cast_lt_zero.mpr negative) (unitPos f)
    have zero : (0 : ℚ) ≤ m * 2 ^ t := mul_nonneg (Nat.cast_nonneg m) unit.le
    exact ⟨fun _ => less.le.trans (zero.trans grown), fun above => absurd (zero.trans (least.trans above)) (not_le.mpr less)⟩
  obtain ⟨n, natural⟩ := Int.eq_ofNat_of_zero_le (not_lt.mp negative)
  subst natural
  rw [Int.natAbs_natCast] at few
  rw [Int.cast_natCast] at value
  by_cases fine : t ≤ f
  · -- On the grid: a whole number of units.
    have whole : c = ((n * 2 ^ (f - t).toNat : Nat) : ℚ) * 2 ^ t := by
      rw [value, powSplit fine]
      push_cast
      ring
    generalize n * 2 ^ (f - t).toNat = units at whole
    clear value
    subst whole
    refine ⟨fun below => ?_, fun above => ?_⟩
    · have small : (units : ℚ) < m + 1 := lt_of_mul_lt_mul_right (lt_of_le_of_lt below most) unit.le
      have fits : units ≤ m := Nat.lt_succ_iff.mp (by exact_mod_cast small)
      exact (mul_le_mul_of_nonneg_right (Nat.cast_le.mpr fits) unit.le).trans grown
    · rcases near with same | ⟨next, strict⟩
      · exact same ▸ least.trans above
      · have large : (m : ℚ) < units := lt_of_mul_lt_mul_right (lt_of_lt_of_le strict above) unit.le
        have fits : m + 1 ≤ units := by exact_mod_cast large
        rw [next]
        exact mul_le_mul_of_nonneg_right (Nat.cast_le.mpr fits) unit.le
  · -- Below the grid: less than any number with a full mantissa.
    have large : 2 ^ 52 ≤ m := by omega
    have finer : (2 : ℚ) ^ (f + 1) ≤ 2 ^ t := zpow_le_zpow_right₀ (by norm_num) (by omega)
    have less : c < m * 2 ^ t := by
      calc c = n * 2 ^ f := value
        _ < 2 ^ 53 * 2 ^ f := mul_lt_mul_of_pos_right (by exact_mod_cast few) (unitPos f)
        _ = 2 ^ 52 * 2 ^ (f + 1) := by rw [zpow_add₀ (by norm_num), zpow_one]; ring
        _ ≤ 2 ^ 52 * 2 ^ t := mul_le_mul_of_nonneg_left finer (by positivity)
        _ ≤ m * 2 ^ t := mul_le_mul_of_nonneg_right (by exact_mod_cast large) unit.le
    exact ⟨fun _ => less.le.trans grown, fun above => absurd (least.trans above) (not_le.mpr less)⟩

structure Approximates (m : Nat) (e : Int) (a : Accuracy) (x : ℚ) : Prop where
  least : m * 2 ^ e ≤ x
  most : x < (m + 1) * 2 ^ e
  sure : x = m * 2 ^ e → a = .exact

theorem quotientFull {m : Nat} {e : Int} (enough : e ≤ target m e) :
    2 ^ 52 ≤ m / 2 ^ (target m e - e).toNat ∨ target m e = -1074 := by
  rw [targetMax] at enough ⊢
  by_cases flat : (m.log2 : Int) + 1 + e - 53 ≤ -1074
  · exact .inr (by omega)
  · refine .inl ((Nat.le_div_iff_mul_le (Nat.two_pow_pos _)).mpr ?_)
    rw [← Nat.pow_add]
    have some_ : m ≠ 0 := by
      intro zero
      subst zero
      simp only [Nat.log2_zero, Nat.cast_zero] at flat enough
      omega
    exact (Nat.pow_le_pow_right (by decide) (by omega)).trans (Nat.log2_self_le some_)

theorem keptFaithful {m : Nat} {e : Int} (enough : e ≤ target m e) {a : Accuracy} {x : ℚ}
    (approximates : Approximates m e a x) :
    Faithful x (kept m (target m e - e).toNat a * 2 ^ target m e) := by
  have unit := unitPos e
  have power := powSplit enough
  have division := Nat.div_add_mod m (2 ^ (target m e - e).toNat)
  have below := Nat.mod_lt m (Nat.two_pow_pos (target m e - e).toNat)
  have bounds := keptBounds m (target m e - e).toNat a
  have clean : m % 2 ^ (target m e - e).toNat = 0 → a = .exact →
      kept m (target m e - e).toNat a = m / 2 ^ (target m e - e).toNat := by
    intro zeros same
    rw [same, keptExact zeros]
  have full := quotientFull enough
  generalize (target m e - e).toNat = k at *
  generalize kept m k a = r at *
  have lower : ((m / 2 ^ k : Nat) : ℚ) * 2 ^ target m e = ((2 ^ k * (m / 2 ^ k) : Nat) : ℚ) * 2 ^ e := by
    rw [power]
    push_cast
    ring
  have upper : (((m / 2 ^ k : Nat) : ℚ) + 1) * 2 ^ target m e = ((2 ^ k * (m / 2 ^ k) + 2 ^ k : Nat) : ℚ) * 2 ^ e := by
    rw [power]
    push_cast
    ring
  have first : ((2 ^ k * (m / 2 ^ k) : Nat) : ℚ) ≤ m := Nat.cast_le.mpr (by omega)
  have last : ((m : ℚ) + 1) ≤ ((2 ^ k * (m / 2 ^ k) + 2 ^ k : Nat) : ℚ) := by exact_mod_cast (by omega)
  refine gridFaithful full ?_ ?_ ?_
  · rw [lower]
    exact (mul_le_mul_of_nonneg_right first unit.le).trans approximates.least
  · rw [upper]
    exact lt_of_lt_of_le approximates.most (mul_le_mul_of_nonneg_right last unit.le)
  · by_cases same : r = m / 2 ^ k
    · exact .inl same
    · refine .inr ⟨by omega, ?_⟩
      rw [lower]
      by_cases zeros : m % 2 ^ k = 0
      · have inexact : x ≠ m * 2 ^ e := fun exact_ => same (clean zeros (approximates.sure exact_))
        exact lt_of_le_of_lt (mul_le_mul_of_nonneg_right first unit.le)
          (lt_of_le_of_ne approximates.least (Ne.symm inexact))
      · have strict : ((2 ^ k * (m / 2 ^ k) : Nat) : ℚ) < m := Nat.cast_lt.mpr (by omega)
        exact lt_of_lt_of_le (mul_lt_mul_of_pos_right strict unit) approximates.least

theorem targetBound {m : Nat} {e : Int} (enough : e ≤ target m e) (small : (m : ℚ) * 2 ^ e < 2 ^ (1000 : Int)) :
    target m e ≤ 970 := by
  rw [targetMax] at enough ⊢
  by_cases zero : m = 0
  · subst zero
    simp only [Nat.log2_zero, Nat.cast_zero] at enough ⊢
    omega
  · have leading : (2 : ℚ) ^ ((m.log2 : Int) + e) < 2 ^ (1000 : Int) := by
      rw [zpow_add₀ (by norm_num), zpow_natCast]
      refine lt_of_le_of_lt (mul_le_mul_of_nonneg_right ?_ (unitPos e).le) small
      exact_mod_cast Nat.log2_self_le zero
    have exponent := (zpow_lt_zpow_iff_right₀ (by norm_num : (1 : ℚ) < 2)).mp leading
    omega

theorem signedZero (s : Sign) : signed s 0 = 0 := by
  cases s
  · exact neg_zero
  · rfl

theorem representableNeg {c : ℚ} (represented : Representable c) : Representable (-c) := by
  obtain ⟨m, e, few, low, value⟩ := represented
  exact ⟨-m, e, by rwa [Int.natAbs_neg], low, by rw [value]; push_cast; ring⟩

theorem faithfulSigned (s : Sign) {x r : ℚ} (faithful : Faithful x r) : Faithful (signed s x) (signed s r) := by
  cases s with
  | positive => exact faithful
  | negative =>
    intro c represented
    obtain ⟨below, above⟩ := faithful (-c) (representableNeg represented)
    refine ⟨fun le => le_neg_of_le_neg (above (le_neg_of_le_neg le)), fun ge => neg_le_of_neg_le (below (neg_le_of_neg_le ge))⟩

theorem roundReads (s : Sign) {m : Nat} {e : Int} (enough : e ≤ target m e) {a : Accuracy} {x : ℚ}
    (approximates : Approximates m e a x) (small : x < 2 ^ (1000 : Int)) :
    ∃ r, Reads (roundWithAccuracy b64 s m e a) r ∧ Faithful (signed s x) r := by
  have faithful := faithfulSigned s (keptFaithful enough approximates)
  have high := targetBound enough (lt_of_le_of_lt approximates.least small)
  have low : -1074 ≤ target m e := by rw [targetMax]; omega
  have bounds := keptBounds m (target m e - e).toNat a
  refine ⟨_, ?_, faithful⟩
  rcases roundShape s enough a with ⟨none, shape⟩ | ⟨_, few, shape⟩ | ⟨carry, shape⟩
  · rw [shape, none, Nat.cast_zero, zero_mul]
    exact signedZero s
  · rw [shape]
    refine ⟨⟨few, low, by omega, ?_⟩, rfl⟩
    rcases quotientFull enough with large | flat
    · exact .inl (large.trans bounds.1)
    · exact .inr flat
  · rw [shape, carry]
    refine ⟨⟨by decide, by omega, by omega, .inl (Nat.le_refl _)⟩, congrArg (signed s) ?_⟩
    rw [zpow_add₀ (by norm_num), zpow_one]
    push_cast
    ring

theorem unpackSignComponents (s : Sign) (exponent : BitVec 11) (mantissa : BitVec 52) :
    Sign.ofBitVec (unpackSign (packComponents b64 s exponent mantissa)) = s := by
  unfold unpackSign packComponents BitVec.extractLsb
  rw [BitVec.extractLsb'_append_eq_of_le (by decide), BitVec.extractLsb'_append_eq_of_le (by decide)]
  cases s <;> rfl

theorem implicitBit (mantissa : BitVec 52) : (1#1 ++ mantissa).toNat = 2 ^ 52 + mantissa.toNat := by
  have few := mantissa.isLt
  rw [BitVec.toNat_append, ← Nat.shiftLeft_add_eq_or_of_lt few]
  rfl

theorem unpackNormal (s : Sign) {n m : Nat} (some_ : 0 < n) (finite : n < 2047) (normal : 2 ^ 52 ≤ m) (few : m < 2 ^ 53)
    (positive : 0 < m) : unpack b64 (packComponents b64 s (BitVec.ofNat 11 n) (BitVec.ofNat 52 m)) =
      .finite s m ((n : Int) - 1075) positive := by
  have exponent : (BitVec.ofNat 11 n).toNat = n := by rw [BitVec.toNat_ofNat, Nat.mod_eq_of_lt (by omega)]
  have notLast : BitVec.ofNat 11 n ≠ -1#11 := by
    intro same
    have numbers : (BitVec.ofNat 11 n).toNat = 2047 := congrArg BitVec.toNat same
    omega
  have notFirst : BitVec.ofNat 11 n ≠ 0#11 := by
    intro same
    have numbers : (BitVec.ofNat 11 n).toNat = 0 := congrArg BitVec.toNat same
    omega
  have mantissa : (1#1 ++ BitVec.ofNat 52 m).toNat = m := by
    rw [implicitBit, BitVec.toNat_ofNat]
    omega
  have exponentField : unpackExponent (packComponents b64 s (BitVec.ofNat 11 n) (BitVec.ofNat 52 m)) = BitVec.ofNat 11 n :=
    unpackExponent_packComponents
  have mantissaField : unpackMantissa (packComponents b64 s (BitVec.ofNat 11 n) (BitVec.ofNat 52 m)) = BitVec.ofNat 52 m :=
    unpackMantissa_packComponents
  delta UnpackedFloat.unpack
  dsimp only
  rw [if_neg (by rw [exponentField]; exact notLast), if_neg (by rw [exponentField]; exact notFirst)]
  exact (UnpackedFloat.finite.injEq ..).mpr
    ⟨unpackSignComponents .., by rw [mantissaField]; exact mantissa, by rw [exponentField, exponent]; rfl⟩

theorem unpackSubnormal (s : Sign) {m : Nat} (small : m < 2 ^ 52) (positive : 0 < m) :
    unpack b64 (packComponents b64 s 0#11 (BitVec.ofNat 52 m)) = .finite s m (-1074) positive := by
  have mantissa : (BitVec.ofNat 52 m).toNat = m := by rw [BitVec.toNat_ofNat, Nat.mod_eq_of_lt small]
  have some_ : BitVec.ofNat 52 m ≠ 0#52 := by
    intro same
    have numbers : (BitVec.ofNat 52 m).toNat = 0 := congrArg BitVec.toNat same
    omega
  have exponentField : unpackExponent (packComponents b64 s 0#11 (BitVec.ofNat 52 m)) = 0#11 :=
    unpackExponent_packComponents
  have mantissaField : unpackMantissa (packComponents b64 s 0#11 (BitVec.ofNat 52 m)) = BitVec.ofNat 52 m :=
    unpackMantissa_packComponents
  delta UnpackedFloat.unpack
  dsimp only
  rw [if_neg (by rw [exponentField]; decide), if_pos exponentField, dif_neg (by rw [mantissaField]; exact some_)]
  exact (UnpackedFloat.finite.injEq ..).mpr
    ⟨unpackSignComponents .., by rw [mantissaField]; exact mantissa, by rw [exponentField]; rfl⟩

theorem packFinite (s : Sign) {m : Nat} (e : Int) (positive : 0 < m) :
    UnpackedFloat.pack b64 (.finite s m e positive) =
      if 2 ^ 11 ≤ (e + 1023 + 52).toNat + 1 then packedInfinity b64 s
      else if m.log2 + 1 = 53 then packComponents b64 s (BitVec.ofNat 11 (e + 1023 + 52).toNat) (BitVec.ofNat 52 m)
      else packComponents b64 s 0#11 (BitVec.ofNat 52 m) := rfl

theorem unpackPackFinite (s : Sign) {m : Nat} {e : Int} (canonical : Canonical m e) (positive : 0 < m) :
    unpack b64 (UnpackedFloat.pack b64 (.finite s m e positive)) = .finite s m e positive := by
  obtain ⟨few, low, high, full⟩ := canonical
  have roomy : ¬ 2 ^ 11 ≤ (e + 1023 + 52).toNat + 1 := by omega
  by_cases normal : 2 ^ 52 ≤ m
  · have log : m.log2 + 1 = 53 := by
      rw [(Nat.log2_eq_iff (by omega)).mpr ⟨normal, few⟩]
    rw [packFinite, if_neg roomy, if_pos log, unpackNormal s (by omega) (by omega) normal few positive]
    congr 1
    omega
  · have flat : e = -1074 := by omega
    subst flat
    have log : m.log2 + 1 ≠ 53 := by
      have below := (Nat.log2_lt (by omega)).mpr (Nat.lt_of_not_le normal)
      omega
    rw [packFinite, if_neg roomy, if_neg log, unpackSubnormal s (by omega) positive]

theorem packReads {u : UnpackedFloat} {q : ℚ} (reads : Reads u q) : Reads (Float.Model.pack u).unpack q := by
  show Reads (unpack b64 (UnpackedFloat.pack b64 u)) q
  cases u with
  | zero s =>
    have zero : unpack b64 (UnpackedFloat.pack b64 (.zero s)) = .zero s := by cases s <;> rfl
    rw [zero]
    exact reads
  | finite s m e positive =>
    rw [unpackPackFinite s reads.1 positive]
    exact reads
  | infinity s => exact reads.elim
  | notANumber => exact reads.elim

theorem exponentLt {m n : Nat} {e f : Int} (few : m < 2 ^ 53) (above : Canonical n f) (low : -1074 ≤ e) (lt : e < f) :
    (m : ℚ) * 2 ^ e < n * 2 ^ f := by
  have large : 2 ^ 52 ≤ n := by
    rcases above.full with large | flat
    · exact large
    · omega
  have finer : (2 : ℚ) ^ (e + 1) ≤ 2 ^ f := zpow_le_zpow_right₀ (by norm_num) (by omega)
  calc (m : ℚ) * 2 ^ e < 2 ^ 53 * 2 ^ e := mul_lt_mul_of_pos_right (by exact_mod_cast few) (unitPos e)
    _ = 2 ^ 52 * 2 ^ (e + 1) := by rw [zpow_add₀ (by norm_num), zpow_one]; ring
    _ ≤ 2 ^ 52 * 2 ^ f := mul_le_mul_of_nonneg_left finer (by positivity)
    _ ≤ n * 2 ^ f := mul_le_mul_of_nonneg_right (by exact_mod_cast large) (unitPos f).le

theorem magnitudeCompare {m n : Nat} {e f : Int} (left : Canonical m e) (right : Canonical n f) :
    (compare e f).then (compare m n) = cmp ((m : ℚ) * 2 ^ e) (n * 2 ^ f) := by
  rcases lt_trichotomy e f with lt | same | gt
  · rw [compare_lt_iff_lt.mpr lt, (cmp_eq_lt_iff _ _).mpr (exponentLt left.few right left.low lt)]
    rfl
  · subst same
    rw [cmp_mul_pos_right (unitPos e), compare_eq_iff_eq.mpr rfl, Nat.strictMono_cast.cmp_map_eq, cmp_eq_compare]
    rfl
  · rw [compare_gt_iff_gt.mpr gt, (cmp_eq_gt_iff _ _).mpr (exponentLt right.few left right.low gt)]
    rfl

theorem magnitudePos {m : Nat} (positive : 0 < m) (e : Int) : (0 : ℚ) < m * 2 ^ e :=
  mul_pos (Nat.cast_pos.mpr positive) (unitPos e)

theorem compareReads {u v : UnpackedFloat} {p q : ℚ} (left : Reads u p) (right : Reads v q) :
    u.compare v = some (cmp p q) := by
  have below {x y : ℚ} (lt : x < y) : some Ordering.lt = some (cmp x y) := congrArg some ((cmp_eq_lt_iff x y).mpr lt).symm
  have above {x y : ℚ} (gt : y < x) : some Ordering.gt = some (cmp x y) := congrArg some ((cmp_eq_gt_iff x y).mpr gt).symm
  cases u with
  | infinity s => exact left.elim
  | notANumber => exact left.elim
  | zero s =>
    cases show p = 0 from left
    cases v with
    | infinity s => exact right.elim
    | notANumber => exact right.elim
    | zero s =>
      cases show q = 0 from right
      exact congrArg some ((cmp_eq_eq_iff _ _).mpr rfl).symm
    | finite s n f positive =>
      have here := magnitudePos positive f
      rw [right.2]
      cases s with
      | positive => exact below here
      | negative => exact above (neg_lt_zero.mpr here)
  | finite s m e positive =>
    have here := magnitudePos positive e
    rw [left.2]
    cases v with
    | infinity s => exact right.elim
    | notANumber => exact right.elim
    | zero _ =>
      cases show q = 0 from right
      cases s with
      | positive => exact above here
      | negative => exact below (neg_lt_zero.mpr here)
    | finite r n f positive' =>
      have there := magnitudePos positive' f
      rw [right.2]
      cases s with
      | positive =>
        cases r with
        | positive => exact congrArg some (magnitudeCompare left.1 right.1)
        | negative => exact above ((neg_lt_zero.mpr there).trans here)
      | negative =>
        cases r with
        | positive => exact below ((neg_lt_zero.mpr here).trans there)
        | negative =>
          refine congrArg some ?_
          rw [magnitudeCompare left.1 right.1, cmp_swap]
          have falling : StrictAnti (fun x : ℚ => -x) := fun _ _ lt => neg_lt_neg lt
          exact (falling.cmp_map_eq _ _).symm

end ArosKernel.Rounding
