import ArosKernel.CircuitBreaker
import Mathlib.Data.List.Pairwise

/-! The requests a breaker lets through while it is HalfOpen and no outcome has come
back. The probe count of the configuration limits the outcomes, not the requests. -/
namespace ArosKernel.Adapter
open Supervisor (Instant)

namespace CircuitBreaker

inductive Call where
  | recordSuccess (now : Instant)
  | recordFailure (now : Instant)
  | state (at_ : Readings)
  | allowsRequest (at_ : Readings)
  deriving DecidableEq, Repr

namespace Call

def times : Call → List Instant
  | .recordSuccess now | .recordFailure now => [now]
  | .state at_ | .allowsRequest at_ => [at_.now, at_.changedAt]

def isOutcome : Call → Bool
  | .recordSuccess _ | .recordFailure _ => true
  | .state _ | .allowsRequest _ => false

end Call

def serve (cb : CircuitBreaker) : Call → Bool × CircuitBreaker
  | .recordSuccess now => (false, cb.recordSuccess now)
  | .recordFailure now => (false, cb.recordFailure now)
  | .state at_ => (false, cb.poll at_)
  | .allowsRequest at_ => cb.allowsRequest at_

end CircuitBreaker

structure Probing where
  breaker : CircuitBreaker
  granted : Nat
  reported : Bool
  deriving DecidableEq, Repr

namespace Probing
open CircuitBreaker

def start (cb : CircuitBreaker) : Probing := ⟨cb, 0, false⟩

def step (s : Probing) (call : Call) : Probing :=
  let (granted, cb) := s.breaker.serve call
  if cb.state ≠ .halfOpen then ⟨cb, 0, false⟩
  else if s.breaker.state ≠ .halfOpen then ⟨cb, granted.toNat, false⟩
  else if s.reported || call.isOutcome then ⟨cb, s.granted, true⟩
  else ⟨cb, s.granted + granted.toNat, false⟩

def after (cb : CircuitBreaker) (calls : List Call) : Probing := calls.foldl step (start cb)

def Timely (made : Instant) (calls : List Call) : Prop := (made :: calls.flatMap Call.times).Pairwise (· ≤ ·)

def Limited (bound : Nat) (cb : CircuitBreaker) : Prop :=
  ∀ calls, Timely cb.lastStateChange calls → (after cb calls).granted ≤ bound

theorem grantsAll {cb : CircuitBreaker} (halfOpen : cb.state = .halfOpen) (at_ : Readings) (n k : Nat) :
    (List.replicate n (.allowsRequest at_)).foldl step ⟨cb, k, false⟩ = ⟨cb, k + n, false⟩ := by
  have kept : cb.allowsRequest at_ = (true, cb) := by simp [allowsRequest, poll, halfOpen]
  induction n generalizing k with
  | zero => rfl
  | succ n ih =>
    have one : step ⟨cb, k, false⟩ (.allowsRequest at_) = ⟨cb, k + 1, false⟩ := by
      simp [step, serve, kept, halfOpen, Call.isOutcome]
    rw [List.replicate_succ, List.foldl_cons, one, ih, Nat.add_right_comm]
    rfl

theorem trips (now : Instant) (n : Nat) {cb : CircuitBreaker} (closed : cb.state = .closed)
    (counter : cb.consecutiveFailures.toNat + n + 1 = cb.config.failuresToOpen) (k : Nat) :
    ∃ tripped, (List.replicate (n + 1) (.recordFailure now)).foldl step ⟨cb, k, false⟩ = start tripped ∧
      tripped.state = .open_ ∧ tripped.config = cb.config ∧ tripped.lastStateChange = now := by
  induction n generalizing cb k with
  | zero =>
    have limit : cb.consecutiveFailures.toNat + 0 + 1 = max 1 cb.config.failureThreshold.toNat := counter
    have reached : cb.config.failureThreshold ≤ cb.consecutiveFailures + 1 := (reaches rfl (by omega)).2.mpr counter
    have failed : cb.recordFailure now = cb.transition .open_ now :=
      (onClosed closed (.failure now)).trans (if_pos reached)
    exact ⟨cb.transition .open_ now, by simp [step, serve, failed, transition, start], rfl, rfl, rfl⟩
  | succ n ih =>
    have bound : cb.consecutiveFailures.toNat + (n + 1) + 1 = max 1 cb.config.failureThreshold.toNat := counter
    obtain ⟨grown, limit⟩ := reaches rfl (show cb.consecutiveFailures.toNat < max 1 cb.config.failureThreshold.toNat by omega)
    have early : ¬ cb.config.failureThreshold ≤ cb.consecutiveFailures + 1 := fun le => by
      have := limit.mp le
      omega
    have failed : cb.recordFailure now =
        { cb with consecutiveSuccesses := 0, consecutiveFailures := cb.consecutiveFailures + 1 } :=
      (onClosed closed (.failure now)).trans (if_neg early)
    have one : step ⟨cb, k, false⟩ (.recordFailure now) =
        start { cb with consecutiveSuccesses := 0, consecutiveFailures := cb.consecutiveFailures + 1 } := by
      simp [step, serve, failed, closed, start]
    rw [List.replicate_succ, List.foldl_cons, one]
    have more : (cb.consecutiveFailures + 1).toNat + n + 1 = cb.config.failuresToOpen := by omega
    exact @ih { cb with consecutiveSuccesses := 0, consecutiveFailures := cb.consecutiveFailures + 1 } closed more 0

theorem opensWide {cb : CircuitBreaker} (open_ : cb.state = .open_) {now : Instant}
    (due : cb.config.openDuration.nanos ≤ elapsed cb.lastStateChange now) (n : Nat) :
    ((List.replicate (n + 1) (.allowsRequest ⟨now, now⟩)).foldl step (start cb)).granted = n + 1 := by
  have polled : cb.allowsRequest ⟨now, now⟩ = (true, cb.transition .halfOpen now) := by
    simp [allowsRequest, poll, open_, due, transition]
  have one : step (start cb) (.allowsRequest ⟨now, now⟩) = ⟨cb.transition .halfOpen now, 1, false⟩ := by
    simp [step, start, serve, polled, open_, transition]
  rw [List.replicate_succ, List.foldl_cons, one, grantsAll rfl, Nat.add_comm]

theorem timelyAll {made now later : Instant} (first : made ≤ now) (next : now ≤ later) {before after : List Call}
    (early : ∀ t ∈ before.flatMap Call.times, t = now) (late : ∀ t ∈ after.flatMap Call.times, t = later) :
    Timely made (before ++ after) := by
  rw [Timely, List.flatMap_append, List.pairwise_cons, List.pairwise_append]
  refine ⟨fun t member => ?_, ?_, ?_, fun t member u member' => ?_⟩
  · rcases List.mem_append.mp member with old | new
    · exact (early t old).symm ▸ first
    · exact (late t new).symm ▸ Int.le_trans first next
  · exact List.pairwise_of_forall_mem_list (fun t old u old' => by rw [early t old, early u old'])
  · exact List.pairwise_of_forall_mem_list (fun t new u new' => by rw [late t new, late u new'])
  · rw [early t member, late u member']
    exact next

theorem recoveringUnlimited (config : CircuitBreakerConfig) (bound : Nat) (providerId : String) (now : Instant) :
    ¬ Limited bound (recovering providerId config now) := by
  intro limited
  have granted := limited ([] ++ List.replicate (bound + 1) (.allowsRequest ⟨now, now⟩))
    (timelyAll (Int.le_refl now) (Int.le_refl now) (by simp) (by simp [Call.times]))
  rw [List.nil_append, after, start, grantsAll rfl] at granted
  simp only at granted
  omega

theorem newUnlimited (config : CircuitBreakerConfig) (bound : Nat) (providerId : String) (now : Instant) :
    ¬ Limited bound (new providerId config now) := by
  intro limited
  have positive : 1 ≤ config.failuresToOpen := Nat.le_max_left ..
  obtain ⟨tripped, ran, open_, same, since⟩ := trips now (config.failuresToOpen - 1)
    (show (new providerId config now).state = .closed from rfl) (by
      show 0 + (config.failuresToOpen - 1) + 1 = config.failuresToOpen
      omega) 0
  have later : now ≤ now + (config.openDuration.nanos : Int) := Int.le_add_of_nonneg_right (Int.natCast_nonneg _)
  have due : tripped.config.openDuration.nanos ≤
      elapsed tripped.lastStateChange (now + (config.openDuration.nanos : Int)) := by
    rw [same, since]
    exact (elapsedReaches later _).mpr (Int.le_refl _)
  have granted := limited
    (List.replicate (config.failuresToOpen - 1 + 1) (.recordFailure now) ++ List.replicate (bound + 1)
      (.allowsRequest ⟨now + (config.openDuration.nanos : Int), now + (config.openDuration.nanos : Int)⟩))
    (timelyAll (Int.le_refl now) later (by simp [Call.times]) (by simp [Call.times]))
  rw [after, List.foldl_append, start, ran, opensWide open_ due] at granted
  omega

theorem probesUnlimited (config : CircuitBreakerConfig) (bound : Nat) (providerId : String) (now : Instant) :
    ¬ Limited bound (new providerId config now) ∧ ¬ Limited bound (recovering providerId config now) :=
  ⟨newUnlimited config bound providerId now, recoveringUnlimited config bound providerId now⟩

theorem defaultUnlimited : ¬ ∃ bound, ∀ providerId now, Limited bound (new providerId .default now) := by
  intro ⟨bound, limited⟩
  exact newUnlimited .default bound "anthropic" 0 (limited "anthropic" 0)

end Probing
end ArosKernel.Adapter
