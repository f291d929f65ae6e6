import ArosKernel.Episode
import ArosKernel.Process

/-! The circuit breaker of one provider, `adapter/circuit_breaker.rs`. Every reading of
the clock is an argument; `state` reads it once to compare and once to change. -/
namespace ArosKernel.Adapter
open Supervisor (Instant)

inductive CircuitState where
  | closed
  | halfOpen
  | open_
  deriving DecidableEq, Repr

structure CircuitBreakerConfig where
  failureThreshold : UInt32
  openDuration : Duration
  probeSuccessCount : UInt32
  deriving DecidableEq, Repr

def CircuitBreakerConfig.default : CircuitBreakerConfig :=
  { failureThreshold := 3, openDuration := .ofSecs 30, probeSuccessCount := 2 }

structure CircuitBreaker where
  providerId : String
  state : CircuitState
  config : CircuitBreakerConfig
  consecutiveFailures : UInt32
  consecutiveSuccesses : UInt32
  lastStateChange : Instant
  deriving DecidableEq, Repr

structure Readings where
  now : Instant
  changedAt : Instant
  deriving DecidableEq, Repr

-- `Instant::elapsed` in nanoseconds: zero, not negative, when the clock is behind.
def elapsed (since now : Instant) : Nat := Int.toNat (now - since)

theorem elapsedReaches {since now : Instant} (later : since ≤ now) (n : Nat) : n ≤ elapsed since now ↔ since + n ≤ now := by
  dsimp only [elapsed, Instant] at *
  omega

namespace CircuitBreaker

def new (providerId : String) (config : CircuitBreakerConfig) (now : Instant) : CircuitBreaker :=
  { providerId, state := .closed, config, consecutiveFailures := 0, consecutiveSuccesses := 0, lastStateChange := now }

def recovering (providerId : String) (config : CircuitBreakerConfig) (now : Instant) : CircuitBreaker :=
  { providerId, state := .halfOpen, config, consecutiveFailures := 0, consecutiveSuccesses := 0, lastStateChange := now }

def transition (cb : CircuitBreaker) (newState : CircuitState) (now : Instant) : CircuitBreaker :=
  { cb with state := newState, lastStateChange := now, consecutiveFailures := 0, consecutiveSuccesses := 0 }

/- The method `state`: what it answers is the field `state` of the breaker it leaves. -/
def poll (cb : CircuitBreaker) (at_ : Readings) : CircuitBreaker :=
  if cb.state = .open_ ∧ cb.config.openDuration.nanos ≤ elapsed cb.lastStateChange at_.now then
    cb.transition .halfOpen at_.changedAt
  else cb

def recordSuccess (cb : CircuitBreaker) (now : Instant) : CircuitBreaker :=
  let cb := { cb with consecutiveFailures := 0 }
  match cb.state with
  | .closed => cb
  | .halfOpen =>
    let cb := { cb with consecutiveSuccesses := cb.consecutiveSuccesses + 1 }
    if cb.config.probeSuccessCount ≤ cb.consecutiveSuccesses then cb.transition .closed now else cb
  | .open_ => cb

def recordFailure (cb : CircuitBreaker) (now : Instant) : CircuitBreaker :=
  let cb := { cb with consecutiveSuccesses := 0, consecutiveFailures := cb.consecutiveFailures + 1 }
  match cb.state with
  | .closed => if cb.config.failureThreshold ≤ cb.consecutiveFailures then cb.transition .open_ now else cb
  | .halfOpen => cb.transition .open_ now
  | .open_ => cb

def allowsRequest (cb : CircuitBreaker) (at_ : Readings) : Bool × CircuitBreaker :=
  let cb := cb.poll at_
  (match cb.state with
    | .closed | .halfOpen => true
    | .open_ => false, cb)

end CircuitBreaker

inductive Outcome where
  | success
  | failure
  deriving DecidableEq, Repr

inductive Event where
  | success (now : Instant)
  | failure (now : Instant)
  | poll (at_ : Readings)
  deriving DecidableEq, Repr

namespace Event

def outcome : Event → Option Outcome
  | .success _ => some .success
  | .failure _ => some .failure
  | .poll _ => none

def changedAt : Event → Instant
  | .success now | .failure now => now
  | .poll at_ => at_.changedAt

def times : Event → List Instant
  | .success now | .failure now => [now]
  | .poll at_ => [at_.now, at_.changedAt]

end Event

def outcomes (events : List Event) : List Outcome := events.filterMap Event.outcome

def failuresInARow (events : List Event) : Nat := ((outcomes events).reverse.takeWhile (· == .failure)).length

def successes (events : List Event) : Nat := (outcomes events).count .success

theorem failuresConcat (events : List Event) (e : Event) :
    failuresInARow (events ++ [e]) = match e.outcome with
      | some .success => 0
      | some .failure => failuresInARow events + 1
      | none => failuresInARow events := by
  unfold failuresInARow outcomes
  rw [List.filterMap_append, List.reverse_append]
  cases outcome : e.outcome with
  | none => simp [outcome]
  | some o => cases o <;> simp [outcome]

theorem successesConcat (events : List Event) (e : Event) :
    successes (events ++ [e]) = successes events + if e.outcome = some .success then 1 else 0 := by
  unfold successes outcomes
  rw [List.filterMap_append, List.count_append]
  cases outcome : e.outcome with
  | none => simp [outcome]
  | some o => cases o <;> simp [outcome]

-- A threshold of zero acts as one: the counter is compared after it has grown.
def CircuitBreakerConfig.failuresToOpen (config : CircuitBreakerConfig) : Nat := max 1 config.failureThreshold.toNat
def CircuitBreakerConfig.successesToClose (config : CircuitBreakerConfig) : Nat := max 1 config.probeSuccessCount.toNat

namespace CircuitBreaker

def on (cb : CircuitBreaker) : Event → CircuitBreaker
  | .success now => cb.recordSuccess now
  | .failure now => cb.recordFailure now
  | .poll at_ => cb.poll at_

theorem reaches {threshold counter : UInt32} {n : Nat} (counts : counter.toNat = n) (below : n < max 1 threshold.toNat) :
    (counter + 1).toNat = n + 1 ∧ (threshold ≤ counter + 1 ↔ n + 1 = max 1 threshold.toNat) := by
  have bound := threshold.toNat_lt
  have fits : (counter + 1).toNat = n + 1 := by
    rw [UInt32.toNat_add, counts]
    exact Nat.mod_eq_of_lt (by simp; omega)
  refine ⟨fits, ?_⟩
  rw [UInt32.le_iff_toNat_le, fits]
  omega

theorem onClosed {cb : CircuitBreaker} (closed : cb.state = .closed) (e : Event) :
    cb.on e = match e with
      | .success _ => { cb with consecutiveFailures := 0 }
      | .failure now =>
        if cb.config.failureThreshold ≤ cb.consecutiveFailures + 1 then cb.transition .open_ now
        else { cb with consecutiveSuccesses := 0, consecutiveFailures := cb.consecutiveFailures + 1 }
      | .poll _ => cb := by
  cases e with
  | success now => simp [on, recordSuccess, closed]
  | failure now => simp [on, recordFailure, closed, transition]
  | poll at_ => simp [on, poll, closed]

theorem onHalfOpen {cb : CircuitBreaker} (halfOpen : cb.state = .halfOpen) (e : Event) :
    cb.on e = match e with
      | .success now =>
        if cb.config.probeSuccessCount ≤ cb.consecutiveSuccesses + 1 then cb.transition .closed now
        else { cb with consecutiveFailures := 0, consecutiveSuccesses := cb.consecutiveSuccesses + 1 }
      | .failure now => cb.transition .open_ now
      | .poll _ => cb := by
  cases e with
  | success now => simp [on, recordSuccess, halfOpen, transition]
  | failure now => simp [on, recordFailure, halfOpen, transition]
  | poll at_ => simp [on, poll, halfOpen]

theorem onOpen {cb : CircuitBreaker} (open_ : cb.state = .open_) (e : Event) :
    cb.on e = match e with
      | .success _ => { cb with consecutiveFailures := 0 }
      | .failure _ => { cb with consecutiveSuccesses := 0, consecutiveFailures := cb.consecutiveFailures + 1 }
      | .poll at_ =>
        if cb.config.openDuration.nanos ≤ elapsed cb.lastStateChange at_.now then cb.transition .halfOpen at_.changedAt
        else cb := by
  cases e with
  | success now => simp [on, recordSuccess, open_]
  | failure now => simp [on, recordFailure, open_]
  | poll at_ => simp [on, poll, open_]

abbrev History := Episode CircuitBreaker Event

abbrev watch : History → Event → History := Episode.watch on CircuitBreaker.state

abbrev after (cb : CircuitBreaker) (events : List Event) : History := Episode.after on CircuitBreaker.state cb events

structure Counts (config : CircuitBreakerConfig) (h : History) : Prop where
  same : h.state.config = config
  closed : h.state.state = .closed → h.state.consecutiveFailures.toNat = failuresInARow h.since ∧
    failuresInARow h.since < config.failuresToOpen
  halfOpen : h.state.state = .halfOpen → h.state.consecutiveSuccesses.toNat = successes h.since ∧
    successes h.since < config.successesToClose
  tripped : h.state.state = .open_ → ∃ now, h.began = some (.failure now) ∧ h.state.lastStateChange = now

structure Follows (config : CircuitBreakerConfig) (h : History) (e : Event) (cb : CircuitBreaker) : Prop where
  closed : h.state.state = .closed → cb.state ≠ .halfOpen ∧
    (cb.state = .open_ ↔ (∃ now, e = .failure now) ∧ failuresInARow h.since + 1 = config.failuresToOpen)
  open_ : h.state.state = .open_ → cb.state ≠ .closed ∧
    (cb.state = .halfOpen ↔ ∃ tripped at_, h.began = some (.failure tripped) ∧ e = .poll at_ ∧
      config.openDuration.nanos ≤ elapsed tripped at_.now)
  halfOpen : h.state.state = .halfOpen → (cb.state = .open_ ↔ ∃ now, e = .failure now) ∧
    (cb.state = .closed ↔ (∃ now, e = .success now) ∧ successes h.since + 1 = config.successesToClose)

variable {config : CircuitBreakerConfig}

theorem countsNew (providerId : String) (now : Instant) : Counts config (.start (new providerId config now)) where
  same := rfl
  closed _ := ⟨rfl, Nat.lt_of_lt_of_le Nat.zero_lt_one (Nat.le_max_left ..)⟩
  halfOpen state := nomatch state
  tripped state := nomatch state

theorem countsRecovering (providerId : String) (now : Instant) :
    Counts config (.start (recovering providerId config now)) where
  same := rfl
  closed state := nomatch state
  halfOpen _ := ⟨rfl, Nat.lt_of_lt_of_le Nat.zero_lt_one (Nat.le_max_left ..)⟩
  tripped state := nomatch state

theorem countsTransition {cb : CircuitBreaker} (same : cb.config = config) (state : CircuitState) (e : Event)
    (trip : state = .open_ → ∃ now, e = .failure now ∧ now = e.changedAt) :
    Counts config ⟨cb.transition state e.changedAt, some e, []⟩ where
  same := same
  closed _ := ⟨rfl, Nat.lt_of_lt_of_le Nat.zero_lt_one (Nat.le_max_left ..)⟩
  halfOpen _ := ⟨rfl, Nat.lt_of_lt_of_le Nat.zero_lt_one (Nat.le_max_left ..)⟩
  tripped open_ := by
    obtain ⟨now, failure, at_⟩ := trip open_
    exact ⟨now, congrArg some failure, at_.symm⟩

theorem follows {h : History} (counts : Counts config h) (e : Event) : Follows config h e (h.state.on e) := by
  obtain ⟨same, closed, halfOpen, tripped⟩ := counts
  refine ⟨fun state => ?_, fun state => ?_, fun state => ?_⟩
  · obtain ⟨counter, below⟩ := closed state
    have limit := (reaches counter below).2
    rw [onClosed state]
    cases e with
    | success now => simp [state]
    | poll at_ => simp [state]
    | failure now =>
      simp only [same, limit]
      split
      · simp_all [transition, CircuitBreakerConfig.failuresToOpen]
      · simp_all [CircuitBreakerConfig.failuresToOpen]
  · obtain ⟨now, began, change⟩ := tripped state
    rw [onOpen state]
    cases e with
    | success now => simp [state]
    | failure now => simp [state]
    | poll at_ =>
      simp only [same, change, began]
      split
      · simp_all [transition]
      · simp_all
  · obtain ⟨counter, below⟩ := halfOpen state
    have limit := (reaches counter below).2
    rw [onHalfOpen state]
    cases e with
    | poll at_ => simp [state]
    | failure now => simp [transition]
    | success now =>
      simp only [same, limit]
      split
      · simp_all [transition, CircuitBreakerConfig.successesToClose]
      · simp_all [CircuitBreakerConfig.successesToClose]

theorem countsClosed {h : History} (state : h.state.state = .closed) (same : h.state.config = config)
    (counter : h.state.consecutiveFailures.toNat = failuresInARow h.since)
    (below : failuresInARow h.since < config.failuresToOpen) : Counts config h :=
  ⟨same, fun _ => ⟨counter, below⟩, fun other => by simp [state] at other, fun other => by simp [state] at other⟩

theorem countsHalfOpen {h : History} (state : h.state.state = .halfOpen) (same : h.state.config = config)
    (counter : h.state.consecutiveSuccesses.toNat = successes h.since)
    (below : successes h.since < config.successesToClose) : Counts config h :=
  ⟨same, fun other => by simp [state] at other, fun _ => ⟨counter, below⟩, fun other => by simp [state] at other⟩

theorem countsOpen {h : History} (state : h.state.state = .open_) (same : h.state.config = config)
    (tripped : ∃ now, h.began = some (.failure now) ∧ h.state.lastStateChange = now) : Counts config h :=
  ⟨same, fun other => by simp [state] at other, fun other => by simp [state] at other, fun _ => tripped⟩

theorem watchClosed {h : History} (counts : Counts config h) (state : h.state.state = .closed) (e : Event) :
    Counts config (watch h e) := by
  obtain ⟨same, closed, _, _⟩ := counts
  obtain ⟨counter, below⟩ := closed state
  obtain ⟨grown, limit⟩ := reaches counter below
  have step := onClosed state e
  cases e with
  | success now =>
    rw [watch, Episode.watchSame (by rw [step]), step]
    have zero : failuresInARow (h.since ++ [.success now]) = 0 := failuresConcat h.since (.success now)
    exact countsClosed state same zero.symm (zero ▸ Nat.zero_lt_of_lt below)
  | poll at_ =>
    rw [watch, Episode.watchSame (by rw [step]), step]
    have kept : failuresInARow (h.since ++ [.poll at_]) = failuresInARow h.since := failuresConcat h.since (.poll at_)
    exact countsClosed state same (kept ▸ counter) (kept ▸ below)
  | failure now =>
    have more : failuresInARow (h.since ++ [.failure now]) = failuresInARow h.since + 1 :=
      failuresConcat h.since (.failure now)
    by_cases reached : h.state.config.failureThreshold ≤ h.state.consecutiveFailures + 1
    · dsimp only at step
      rw [if_pos reached] at step
      rw [watch, Episode.watchChange (by rw [step, state]; simp [transition]), step]
      exact countsTransition same .open_ (.failure now) (fun _ => ⟨now, rfl, rfl⟩)
    · dsimp only at step
      rw [if_neg reached] at step
      rw [watch, Episode.watchSame (by rw [step]), step]
      rw [same, limit] at reached
      exact countsClosed state same (more ▸ grown) (more ▸ Nat.lt_of_le_of_ne below reached)

theorem watchHalfOpen {h : History} (counts : Counts config h) (state : h.state.state = .halfOpen) (e : Event) :
    Counts config (watch h e) := by
  obtain ⟨same, _, halfOpen, _⟩ := counts
  obtain ⟨counter, below⟩ := halfOpen state
  obtain ⟨grown, limit⟩ := reaches counter below
  have step := onHalfOpen state e
  cases e with
  | poll at_ =>
    rw [watch, Episode.watchSame (by rw [step]), step]
    have kept : successes (h.since ++ [.poll at_]) = successes h.since := successesConcat h.since (.poll at_)
    exact countsHalfOpen state same (kept ▸ counter) (kept ▸ below)
  | failure now =>
    rw [watch, Episode.watchChange (by rw [step, state]; simp [transition]), step]
    exact countsTransition same .open_ (.failure now) (fun _ => ⟨now, rfl, rfl⟩)
  | success now =>
    have more : successes (h.since ++ [.success now]) = successes h.since + 1 := successesConcat h.since (.success now)
    by_cases reached : h.state.config.probeSuccessCount ≤ h.state.consecutiveSuccesses + 1
    · dsimp only at step
      rw [if_pos reached] at step
      rw [watch, Episode.watchChange (by rw [step, state]; simp [transition]), step]
      exact countsTransition same .closed (.success now) (fun other => nomatch other)
    · dsimp only at step
      rw [if_neg reached] at step
      rw [watch, Episode.watchSame (by rw [step]), step]
      rw [same, limit] at reached
      exact countsHalfOpen state same (more ▸ grown) (more ▸ Nat.lt_of_le_of_ne below reached)

theorem watchOpen {h : History} (counts : Counts config h) (state : h.state.state = .open_) (e : Event) :
    Counts config (watch h e) := by
  obtain ⟨same, _, _, tripped⟩ := counts
  have trip := tripped state
  have step := onOpen state e
  cases e with
  | success now =>
    rw [watch, Episode.watchSame (by rw [step]), step]
    exact countsOpen state same trip
  | failure now =>
    rw [watch, Episode.watchSame (by rw [step]), step]
    exact countsOpen state same trip
  | poll at_ =>
    by_cases due : h.state.config.openDuration.nanos ≤ elapsed h.state.lastStateChange at_.now
    · dsimp only at step
      rw [if_pos due] at step
      rw [watch, Episode.watchChange (by rw [step, state]; simp [transition]), step]
      exact countsTransition same .halfOpen (.poll at_) (fun other => nomatch other)
    · dsimp only at step
      rw [if_neg due] at step
      rw [watch, Episode.watchSame (by rw [step]), step]
      exact countsOpen state same trip

theorem countsWatch (h : History) (e : Event) (counts : Counts config h) : Counts config (watch h e) := by
  cases state : h.state.state with
  | closed => exact watchClosed counts state e
  | halfOpen => exact watchHalfOpen counts state e
  | open_ => exact watchOpen counts state e

theorem countsAfter {cb : CircuitBreaker} (initial : Counts config (.start cb)) (events : List Event) :
    Counts config (cb.after events) :=
  Episode.afterInvariant initial countsWatch events

end CircuitBreaker
end ArosKernel.Adapter
