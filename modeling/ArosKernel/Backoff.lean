import ArosKernel.Process

/-! The delays of restarts in a row. The multiplier is a power of two in 64 bits, cut
to 32: from the 33rd restart on it is zero, and from the 65th the largest 32-bit number. -/
namespace ArosKernel

@[simp] theorem Duration.minNanos (a b : Duration) : (a.min b).nanos = Min.min a.nanos b.nanos := by
  unfold Duration.min
  split
  · rename_i le
    exact (Nat.min_eq_left le).symm
  · rename_i gt
    exact (Nat.min_eq_right (Nat.le_of_not_le gt)).symm

theorem Duration.saturatingMulMin (d cap : Duration) (k : UInt32) :
    ((d.saturatingMul k).min cap).nanos = Min.min (d.nanos * k.toNat) cap.nanos := by
  rw [minNanos, saturatingMul]
  split
  · rfl
  · rename_i beyond
    have small := cap.fits
    have top : Duration.max.nanos = 2 ^ 64 * 1000000000 - 1 := rfl
    rw [top]
    omega

namespace Supervisor
namespace RestartTracker

def backoffs (t : RestartTracker) : List Instant → List Duration
  | [] => []
  | now :: rest =>
    match t.recordRestart now with
    | (.ok backoff, t') => backoff :: t'.backoffs rest
    | (.error _, t') => t'.backoffs rest

def delay (policy : RestartPolicy) (n : Nat) : Duration := currentBackoff ⟨policy, [], UInt32.ofNat n⟩

theorem backoffsDelay (times : List Instant) {t : RestartTracker} {n : Nat}
    (count : t.consecutiveFailures = UInt32.ofNat n) (i : Nat) {d : Duration} (granted : (t.backoffs times)[i]? = some d) :
    d = delay t.policy (n + i + 1) := by
  induction times generalizing t n i with
  | nil => contradiction
  | cons now rest ih =>
    by_cases room : t.hasRoom now = true
    · simp only [backoffs, recordRestart, room, if_true] at granted
      have next : t.consecutiveFailures + 1 = UInt32.ofNat (n + 1) := by rw [count, UInt32.ofNat_add]; rfl
      cases i with
      | zero =>
        cases granted
        unfold delay currentBackoff
        rw [next]
      | succ i =>
        rw [List.getElem?_cons_succ] at granted
        rw [ih next i granted]
        congr 1
        omega
    · simp only [backoffs, recordRestart, room, if_false, Bool.false_eq_true] at granted
      exact @ih { t with restartTimes := t.recent now } n count i granted

def multiplier (n : Nat) : UInt32 :=
  (saturatingPow2 (if 1 ≤ UInt32.ofNat n then UInt32.ofNat n - 1 else 0)).toUInt32

theorem delayNanos (policy : RestartPolicy) (n : Nat) :
    (delay policy n).nanos = Min.min (policy.backoffBase.nanos * (multiplier n).toNat) policy.backoffMax.nanos :=
  Duration.saturatingMulMin ..

theorem multiplierEarly : ∀ i < 32, (multiplier (i + 1)).toNat = 2 ^ i := by decide

theorem multiplierCut : (multiplier 33).toNat = 0 := by decide

structure Exponential (policy : RestartPolicy) (delays : List Duration) : Prop where
  each : ∀ (i : Nat) d, delays[i]? = some d → d.nanos = Min.min (policy.backoffBase.nanos * 2 ^ i) policy.backoffMax.nanos
  grows : delays.Pairwise (fun d d' => d.nanos ≤ d'.nanos)
  stays : delays.Pairwise (fun d d' => d = policy.backoffMax → d' = policy.backoffMax)

theorem doublingGrows (base cap : Nat) {i j : Nat} (le : i ≤ j) :
    Min.min (base * 2 ^ i) cap ≤ Min.min (base * 2 ^ j) cap := by
  have := Nat.mul_le_mul_left base (Nat.pow_le_pow_right (show 0 < 2 by decide) le)
  omega

theorem exponentialOfEach {policy : RestartPolicy} {delays : List Duration}
    (each : ∀ (i : Nat) d, delays[i]? = some d →
      d.nanos = Min.min (policy.backoffBase.nanos * 2 ^ i) policy.backoffMax.nanos) : Exponential policy delays := by
  refine ⟨each, ?_, ?_⟩
  · refine List.pairwise_iff_getElem.mpr (fun i j hi hj lt => ?_)
    rw [each i _ (List.getElem?_eq_getElem hi), each j _ (List.getElem?_eq_getElem hj)]
    exact doublingGrows _ _ (Nat.le_of_lt lt)
  · refine List.pairwise_iff_getElem.mpr (fun i j hi hj lt full => ?_)
    have early := each i _ (List.getElem?_eq_getElem hi)
    have late := each j _ (List.getElem?_eq_getElem hj)
    have grown := doublingGrows policy.backoffBase.nanos policy.backoffMax.nanos (Nat.le_of_lt lt)
    rw [full] at early
    have same : (delays[j]).nanos = policy.backoffMax.nanos := by omega
    cases ends : delays[j]
    cases cap : policy.backoffMax
    rw [ends, cap] at same
    congr

theorem backoffExactIff (t : RestartTracker) (times : List Instant) :
    Exponential t.policy (t.reset.backoffs times) ↔
      (t.reset.backoffs times).length ≤ 32 ∨ t.policy.backoffBase.nanos = 0 ∨ t.policy.backoffMax.nanos = 0 := by
  have delays : ∀ (i : Nat) d, (t.reset.backoffs times)[i]? = some d → d = delay t.policy (i + 1) := by
    intro i d granted
    have at_ := @backoffsDelay times t.reset 0 rfl i d granted
    rw [Nat.zero_add] at at_
    exact at_
  constructor
  · intro law
    by_contra fails
    simp only [not_or, Nat.not_le] at fails
    obtain ⟨many, base, cap⟩ := fails
    have granted := List.getElem?_eq_getElem many
    have wanted := law.each 32 _ granted
    rw [delays 32 _ granted, delayNanos, multiplierCut] at wanted
    have positive := Nat.mul_pos (Nat.pos_of_ne_zero base) (show 0 < 2 ^ 32 by decide)
    omega
  · intro holds
    refine exponentialOfEach (fun i d granted => ?_)
    rw [delays i d granted, delayNanos]
    rcases holds with few | base | cap
    · rw [multiplierEarly i (Nat.lt_of_lt_of_le (List.getElem?_eq_some_iff.mp granted).1 few)]
    · rw [base, Nat.zero_mul, Nat.zero_mul]
    · rw [cap, Nat.min_zero, Nat.min_zero]

-- A restart every hundred seconds: the window of the default policy never fills.
def hundreds : List Instant := (List.range 33).map (fun i => (i : Int) * 100000000000)

theorem backoffVanishes : ((new .default).reset.backoffs hundreds)[32]? = some (.ofSecs 0) ∧
    ¬ Exponential .default ((new .default).reset.backoffs hundreds) := by
  have last : ((new .default).reset.backoffs hundreds)[32]? = some (.ofSecs 0) := by decide +kernel
  refine ⟨last, fun law => ?_⟩
  exact absurd (law.each 32 _ last) (by decide +kernel)

end RestartTracker
end Supervisor
end ArosKernel
