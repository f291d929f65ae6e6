import ArosKernel.Duration
import Mathlib.Data.List.Basic

/-! Supervised processes and their restart trackers, `supervisor/process.rs`. A clock
reading is a number of nanoseconds, which may lie before the clock's origin. -/
namespace ArosKernel.Supervisor

inductive ProcessId where
  | init
  | kernel
  | loop0Meta
  | loop1Agentic
  | loop2Harness
  | modelAdapter
  | embeddingAdapter
  deriving DecidableEq, Repr

inductive ProcessState where
  | starting
  | running
  | stopping
  | stopped
  | failed
  | restarting
  deriving DecidableEq, Repr

def ProcessState.text : ProcessState → String
  | .starting => "Starting"
  | .running => "Running"
  | .stopping => "Stopping"
  | .stopped => "Stopped"
  | .failed => "Failed"
  | .restarting => "Restarting"

inductive SupervisorError where
  | maxRestartsExceeded (id : ProcessId)
  | processNotFound (id : ProcessId)
  | invalidTransition (id : ProcessId) (from_ to_ : String)
  | shuttingDown
  deriving DecidableEq, Repr

abbrev Instant := Int

structure RestartPolicy where
  maxRestarts : UInt32
  restartWindow : Duration
  backoffBase : Duration
  backoffMax : Duration
  deriving DecidableEq, Repr

def RestartPolicy.default : RestartPolicy :=
  { maxRestarts := 5, restartWindow := .ofSecs 300, backoffBase := .ofMillis 100, backoffMax := .ofSecs 30 }

structure RestartTracker where
  policy : RestartPolicy
  restartTimes : List Instant
  consecutiveFailures : UInt32
  deriving DecidableEq, Repr

-- `2u64.saturating_pow(exp)`.
def saturatingPow2 (exp : UInt32) : UInt64 :=
  if exp < 64 then UInt64.ofNat (2 ^ exp.toNat) else 0xFFFFFFFFFFFFFFFF

namespace RestartTracker

def new (policy : RestartPolicy) : RestartTracker := ⟨policy, [], 0⟩

def currentBackoff (t : RestartTracker) : Duration :=
  let exp := if 1 ≤ t.consecutiveFailures then t.consecutiveFailures - 1 else 0
  let multiplier := saturatingPow2 exp
  (t.policy.backoffBase.saturatingMul multiplier.toUInt32).min t.policy.backoffMax

def recent (t : RestartTracker) (now : Instant) : List Instant :=
  t.restartTimes.filter (fun r => now - t.policy.restartWindow.nanos ≤ r)

def hasRoom (t : RestartTracker) (now : Instant) : Bool :=
  !(t.policy.maxRestarts ≤ UInt32.ofNat (t.recent now).length)

def recordRestart (t : RestartTracker) (now : Instant) : Except SupervisorError Duration × RestartTracker :=
  if t.hasRoom now then
    let t' := { t with restartTimes := t.recent now ++ [now], consecutiveFailures := t.consecutiveFailures + 1 }
    (.ok t'.currentBackoff, t')
  else (.error (.maxRestartsExceeded .init), { t with restartTimes := t.recent now })

def reset (t : RestartTracker) : RestartTracker := { t with restartTimes := [], consecutiveFailures := 0 }

def restartCount (t : RestartTracker) : UInt32 := UInt32.ofNat t.restartTimes.length

@[simp] theorem recordRestartPolicy (t : RestartTracker) (now : Instant) : (t.recordRestart now).2.policy = t.policy := by
  unfold recordRestart
  split <;> rfl

/- A tracker keeps at most `max_restarts` times, so no length is ever truncated. -/
def Bounded (t : RestartTracker) : Prop := t.restartTimes.length ≤ t.policy.maxRestarts.toNat

theorem recentLength (t : RestartTracker) (now : Instant) : (t.recent now).length ≤ t.restartTimes.length :=
  List.length_filter_le ..

theorem Bounded.hasRoom {t : RestartTracker} (bounded : t.Bounded) (now : Instant) :
    t.hasRoom now = true ↔ (t.recent now).length < t.policy.maxRestarts.toNat := by
  have := t.recentLength now
  have := t.policy.maxRestarts.toNat_lt
  unfold Bounded at bounded
  simp only [RestartTracker.hasRoom, Bool.not_eq_true', decide_eq_false_iff_not, UInt32.le_iff_toNat_le,
    UInt32.toNat_ofNat']
  omega

theorem Bounded.restartCount {t : RestartTracker} (bounded : t.Bounded) : t.restartCount ≤ t.policy.maxRestarts := by
  have := t.policy.maxRestarts.toNat_lt
  unfold Bounded at bounded
  simp only [RestartTracker.restartCount, UInt32.le_iff_toNat_le, UInt32.toNat_ofNat']
  omega

theorem Bounded.recordRestart {t : RestartTracker} (bounded : t.Bounded) (now : Instant) :
    (t.recordRestart now).2.Bounded := by
  have length := t.recentLength now
  unfold RestartTracker.recordRestart
  split
  · rename_i room
    have := (bounded.hasRoom now).mp room
    simp only [Bounded, List.length_append, List.length_singleton]
    omega
  · exact Nat.le_trans length bounded

end RestartTracker
end ArosKernel.Supervisor
