import ArosKernel.CircuitBreaker
import ArosKernel.HashMap
import ArosKernel.TaskEnvelope

/-! The provider registry of `adapter/provider.rs` and what each of its breakers has
seen: the calls that name the provider, and every health query. -/
namespace ArosKernel.Adapter
open Supervisor (Instant)
open Envelope (SecurityZone)

inductive QualityTier where
  | haiku
  | sonnet
  | opus
  deriving DecidableEq, Repr

structure ProviderCapabilities where
  maxContext : UInt64
  toolUse : Bool
  vision : Bool
  streaming : Bool
  maxQualityTier : QualityTier
  deriving DecidableEq, Repr

structure ProviderConfig where
  id : String
  endpoint : String
  models : List String
  fallbackRank : UInt32
  zoneAllowlist : List SecurityZone
  capabilities : ProviderCapabilities
  deriving DecidableEq, Repr

inductive AdapterStatus where
  | healthy
  | degraded
  | allProvidersDown
  deriving DecidableEq, Repr

structure ProviderHealth where
  providerId : String
  circuitState : CircuitState
  latencyAvgMs : UInt64
  deriving DecidableEq, Repr

structure AdapterHealth where
  providers : List ProviderHealth
  status : AdapterStatus
  deriving DecidableEq, Repr

structure ProviderRegistry where
  providers : List ProviderConfig
  circuitBreakers : HashMap String CircuitBreaker

namespace ProviderRegistry

def collect (providers : List ProviderConfig) (make : String → CircuitBreaker) : HashMap String CircuitBreaker :=
  providers.foldl (fun m p => m.insert p.id (make p.id)) ∅

def new (providers : List ProviderConfig) (cbConfig : CircuitBreakerConfig) (at_ : String → Instant) : ProviderRegistry :=
  ⟨providers, collect providers (fun id => .new id cbConfig (at_ id))⟩

def recovering (providers : List ProviderConfig) (cbConfig : CircuitBreakerConfig) (at_ : String → Instant) :
    ProviderRegistry :=
  ⟨providers, collect providers (fun id => .recovering id cbConfig (at_ id))⟩

def circuitBreaker (r : ProviderRegistry) (id : String) : Option CircuitBreaker := r.circuitBreakers.lookup id

def modify (r : ProviderRegistry) (id : String) (f : CircuitBreaker → CircuitBreaker) : ProviderRegistry :=
  { r with circuitBreakers := r.circuitBreakers.update id f }

def isAvailable (r : ProviderRegistry) (id : String) (at_ : Readings) : Bool × ProviderRegistry :=
  match r.circuitBreaker id with
  | some cb => ((cb.allowsRequest at_).1, r.modify id (fun cb => (cb.allowsRequest at_).2))
  | none => (false, r)

def recordSuccess (r : ProviderRegistry) (id : String) (now : Instant) : ProviderRegistry :=
  r.modify id (fun cb => cb.recordSuccess now)

def recordFailure (r : ProviderRegistry) (id : String) (now : Instant) : ProviderRegistry :=
  r.modify id (fun cb => cb.recordFailure now)

def health (r : ProviderRegistry) (order : HashMap.Order String CircuitBreaker) (at_ : String → Readings) :
    AdapterHealth × ProviderRegistry :=
  let providers := (order.entries r.circuitBreakers).map (fun (id, cb) => ProviderHealth.mk id (cb.poll (at_ id)).state 0)
  let status : AdapterStatus :=
    if providers.all (fun p => p.circuitState == .open_) then .allProvidersDown
    else if providers.any (fun p => p.circuitState == .open_) then .degraded
    else .healthy
  (⟨providers, status⟩, { r with circuitBreakers := r.circuitBreakers.updateAll order (fun id cb => cb.poll (at_ id)) })

inductive Call where
  | recordSuccess (id : String) (now : Instant)
  | recordFailure (id : String) (now : Instant)
  | isAvailable (id : String) (at_ : Readings)
  | health (order : HashMap.Order String CircuitBreaker) (at_ : String → Readings)

def apply (r : ProviderRegistry) : Call → ProviderRegistry
  | .recordSuccess id now => r.recordSuccess id now
  | .recordFailure id now => r.recordFailure id now
  | .isAvailable id at_ => (r.isAvailable id at_).2
  | .health order at_ => (r.health order at_).2

def run (r : ProviderRegistry) (calls : List Call) : ProviderRegistry := calls.foldl apply r

def Call.own (p : String) : Call → Option Event
  | .recordSuccess id now => if id = p then some (.success now) else none
  | .recordFailure id now => if id = p then some (.failure now) else none
  | .isAvailable id at_ => if id = p then some (.poll at_) else none
  | .health _ at_ => some (.poll (at_ p))

def own (p : String) (calls : List Call) : List Event := calls.filterMap (Call.own p)

def Ordered (p : String) (calls : List Call) : Prop := ((own p calls).flatMap Event.times).Pairwise (· ≤ ·)

theorem collectLookup (providers : List ProviderConfig) (make : String → CircuitBreaker) (p : String) :
    (collect providers make).lookup p = if p ∈ providers.map ProviderConfig.id then some (make p) else none := by
  have general : ∀ m : HashMap String CircuitBreaker,
      (providers.foldl (fun m p => m.insert p.id (make p.id)) m).lookup p =
        if p ∈ providers.map ProviderConfig.id then some (make p) else m.lookup p := by
    induction providers with
    | nil => simp
    | cons head rest ih =>
      intro m
      rw [List.foldl_cons, ih, HashMap.lookupInsert]
      by_cases same : p = head.id
      · subst p
        simp
      · simp [same]
  rw [collect, general, Finmap.lookup_empty]

theorem modifyBreaker (r : ProviderRegistry) (id p : String) (f : CircuitBreaker → CircuitBreaker) :
    (r.modify id f).circuitBreaker p = if p = id then (r.circuitBreaker p).map f else r.circuitBreaker p :=
  HashMap.lookupUpdate r.circuitBreakers p id f

theorem applyBreaker (r : ProviderRegistry) (call : Call) (p : String) :
    (r.apply call).circuitBreaker p =
      (r.circuitBreaker p).map (fun cb => ((call.own p).map cb.on).getD cb) := by
  cases call with
  | recordSuccess id now =>
    rw [apply, recordSuccess, modifyBreaker, Call.own]
    by_cases same : p = id
    · simp [same, CircuitBreaker.on]
    · simp [same, Ne.symm same]
  | recordFailure id now =>
    rw [apply, recordFailure, modifyBreaker, Call.own]
    by_cases same : p = id
    · simp [same, CircuitBreaker.on]
    · simp [same, Ne.symm same]
  | isAvailable id at_ =>
    rw [apply, isAvailable, Call.own]
    by_cases same : p = id
    · subst id
      cases found : r.circuitBreaker p with
      | none => simp [found]
      | some cb => simp [found, modifyBreaker, CircuitBreaker.on, CircuitBreaker.allowsRequest]
    · cases r.circuitBreaker id <;> simp [same, Ne.symm same, modifyBreaker]
  | health order at_ => exact HashMap.lookupUpdateAll order r.circuitBreakers (fun id cb => cb.poll (at_ id)) p

theorem runBreaker (r : ProviderRegistry) (calls : List Call) (p : String) :
    (r.run calls).circuitBreaker p = (r.circuitBreaker p).map (fun cb => (own p calls).foldl CircuitBreaker.on cb) := by
  induction calls generalizing r with
  | nil => simp [run, own]
  | cons call rest ih =>
    show ((r.apply call).run rest).circuitBreaker p = _
    rw [ih, applyBreaker, own, own, List.filterMap_cons, Option.map_map]
    cases call.own p <;> rfl

theorem healthLists (r : ProviderRegistry) (order : HashMap.Order String CircuitBreaker) (at_ : String → Readings)
    (row : ProviderHealth) : row ∈ (r.health order at_).1.providers ↔
      row.latencyAvgMs = 0 ∧ ∃ cb, (r.health order at_).2.circuitBreaker row.providerId = some cb ∧ cb.state = row.circuitState := by
  have left : (r.health order at_).2.circuitBreaker row.providerId =
      (r.circuitBreaker row.providerId).map (fun cb => cb.poll (at_ row.providerId)) :=
    HashMap.lookupUpdateAll order r.circuitBreakers (fun id cb => cb.poll (at_ id)) row.providerId
  rw [left]
  simp only [health, List.mem_map, Prod.exists, HashMap.Order.memEntries, Option.map_eq_some_iff]
  show (∃ id cb, r.circuitBreaker id = some cb ∧ _) ↔ _
  constructor
  · rintro ⟨id, cb, found, same⟩
    subst row
    exact ⟨rfl, _, ⟨cb, found, rfl⟩, rfl⟩
  · rintro ⟨latency, _, ⟨cb, found, polled⟩, state⟩
    refine ⟨row.providerId, cb, found, ?_⟩
    rw [polled, state, ← latency]

end ProviderRegistry

/- The rules of the three states against a whole history `h`, for a call that shows the
breaker the event `e` and leaves it as `cb`; times are absolute here. -/
structure Behaves (config : CircuitBreakerConfig) (h : CircuitBreaker.History) (e : Option Event) (cb : CircuitBreaker) :
    Prop where
  closed : h.state.state = .closed → cb.state ≠ .halfOpen ∧
    (cb.state = .open_ ↔ (∃ now, e = some (.failure now)) ∧ failuresInARow h.since + 1 = config.failuresToOpen)
  open_ : h.state.state = .open_ → cb.state ≠ .closed ∧
    (cb.state = .halfOpen ↔ ∃ tripped at_, h.began = some (.failure tripped) ∧ e = some (.poll at_) ∧
      tripped + config.openDuration.nanos ≤ at_.now)
  halfOpen : h.state.state = .halfOpen → (cb.state = .open_ ↔ ∃ now, e = some (.failure now)) ∧
    (cb.state = .closed ↔ (∃ now, e = some (.success now)) ∧ successes h.since + 1 = config.successesToClose)

namespace ProviderRegistry
open Episode (Marks)

variable {config : CircuitBreakerConfig}

theorem behavesUnseen (h : CircuitBreaker.History) : Behaves config h none h.state where
  closed state := by simp [state]
  open_ state := by simp [state]
  halfOpen state := by simp [state]

theorem behavesSeen {h : CircuitBreaker.History} {e : Event} {cb : CircuitBreaker}
    (follows : CircuitBreaker.Follows config h e cb)
    (later : ∀ tripped at_, h.began = some (.failure tripped) → e = .poll at_ → tripped ≤ at_.now) :
    Behaves config h (some e) cb where
  closed state := by simpa only [Option.some.injEq] using follows.closed state
  halfOpen state := by simpa only [Option.some.injEq] using follows.halfOpen state
  open_ state := by
    obtain ⟨notClosed, halfOpen⟩ := follows.open_ state
    refine ⟨notClosed, halfOpen.trans ?_⟩
    constructor
    · rintro ⟨tripped, at_, began, poll, due⟩
      exact ⟨tripped, at_, began, congrArg some poll, (elapsedReaches (later tripped at_ began poll) _).mp due⟩
    · rintro ⟨tripped, at_, began, poll, due⟩
      have poll := Option.some.inj poll
      exact ⟨tripped, at_, began, poll, (elapsedReaches (later tripped at_ began poll) _).mpr due⟩

def Begins (config : CircuitBreakerConfig) (p : String) (cb : CircuitBreaker) : Prop :=
  ∃ now, cb = .new p config now ∨ cb = .recovering p config now

theorem madeBreaker {providers : List ProviderConfig} {at_ : String → Instant} {r : ProviderRegistry}
    (made : r = .new providers config at_ ∨ r = .recovering providers config at_) (p : String) :
    (p ∈ providers.map ProviderConfig.id ∧ ∃ cb, r.circuitBreaker p = some cb ∧ Begins config p cb) ∨
    (p ∉ providers.map ProviderConfig.id ∧ r.circuitBreaker p = none) := by
  by_cases known : p ∈ providers.map ProviderConfig.id
  · refine .inl ⟨known, ?_⟩
    rcases made with new | recovering
    · exact ⟨_, by rw [new, circuitBreaker, ProviderRegistry.new, collectLookup, if_pos known], _, .inl rfl⟩
    · exact ⟨_, by rw [recovering, circuitBreaker, ProviderRegistry.recovering, collectLookup, if_pos known], _, .inr rfl⟩
  · refine .inr ⟨known, ?_⟩
    rcases made with new | recovering
    · rw [new, circuitBreaker, ProviderRegistry.new, collectLookup, if_neg known]
    · rw [recovering, circuitBreaker, ProviderRegistry.recovering, collectLookup, if_neg known]

theorem beginsCounts {p : String} {cb : CircuitBreaker} (begins : Begins config p cb) :
    CircuitBreaker.Counts config (.start cb) := by
  obtain ⟨now, new | recovering⟩ := begins
  · exact new ▸ CircuitBreaker.countsNew p now
  · exact recovering ▸ CircuitBreaker.countsRecovering p now

theorem tripBefore {p : String} {calls : List Call} {call : Call} (ordered : Ordered p (calls ++ [call]))
    {start : CircuitBreaker} {earlier : List Event} {h : CircuitBreaker.History}
    (marks : Marks CircuitBreaker.on CircuitBreaker.state start (own p calls) earlier h) {tripped : Instant} {at_ : Readings}
    (began : h.began = some (.failure tripped)) (seen : call.own p = some (.poll at_)) : tripped ≤ at_.now := by
  unfold Ordered own at ordered
  rw [List.filterMap_append, List.flatMap_append, List.pairwise_append] at ordered
  refine ordered.2.2 tripped ?_ at_.now ?_
  · refine List.mem_flatMap.mpr ⟨.failure tripped, ?_, List.mem_singleton_self tripped⟩
    show _ ∈ own p calls
    rw [← marks.whole, began]
    simp
  · simp [seen, Event.times]

theorem unavailableIff {h : CircuitBreaker.History} {r : ProviderRegistry} {p : String} {at_ : Readings}
    (found : r.circuitBreaker p = some h.state) (behaves : Behaves config h (some (.poll at_)) (h.state.poll at_)) :
    (r.isAvailable p at_).1 = false ↔ h.state.state = .open_ ∧
      ¬ ∃ tripped, h.began = some (.failure tripped) ∧ tripped + config.openDuration.nanos ≤ at_.now := by
  have answer : (r.isAvailable p at_).1 = false ↔ (h.state.poll at_).state = .open_ := by
    rw [isAvailable, found]
    cases state : (h.state.poll at_).state <;> simp [CircuitBreaker.allowsRequest, state]
  rw [answer]
  cases state : h.state.state with
  | closed =>
    have stays := CircuitBreaker.onClosed state (.poll at_)
    simp [show h.state.poll at_ = h.state from stays, state]
  | halfOpen =>
    have stays := CircuitBreaker.onHalfOpen state (.poll at_)
    simp [show h.state.poll at_ = h.state from stays, state]
  | open_ =>
    obtain ⟨notClosed, halfOpen⟩ := behaves.open_ state
    have due : (h.state.poll at_).state = .halfOpen ↔
        ∃ tripped, h.began = some (.failure tripped) ∧ tripped + config.openDuration.nanos ≤ at_.now := by
      simpa only [Option.some.injEq, Event.poll.injEq, exists_and_left, exists_eq_left'] using halfOpen
    rw [← due]
    cases polled : (h.state.poll at_).state with
    | closed => exact absurd polled notClosed
    | halfOpen => simp
    | open_ => simp

theorem runNext {r : ProviderRegistry} {calls : List Call} {p : String} {cb : CircuitBreaker}
    (here : (r.run calls).circuitBreaker p = some cb) (call : Call) :
    (r.run (calls ++ [call])).circuitBreaker p = some (((call.own p).map cb.on).getD cb) := by
  rw [run, List.foldl_append]
  show ((r.run calls).apply call).circuitBreaker p = _
  rw [applyBreaker, here, Option.map_some]

theorem behavesNext {p : String} {calls : List Call} {call : Call} (ordered : Ordered p (calls ++ [call]))
    {start : CircuitBreaker} {earlier : List Event} {h : CircuitBreaker.History}
    (marks : Marks CircuitBreaker.on CircuitBreaker.state start (own p calls) earlier h)
    (counts : CircuitBreaker.Counts config h) :
    Behaves config h (call.own p) (((call.own p).map h.state.on).getD h.state) := by
  cases seen : call.own p with
  | none => exact behavesUnseen _
  | some e =>
    refine behavesSeen (CircuitBreaker.follows counts e) (fun tripped at_ began poll => ?_)
    exact tripBefore ordered marks began (poll ▸ seen)

theorem deniedIff {h : CircuitBreaker.History} {r : ProviderRegistry} {p : String} {at_ : Readings}
    (counts : CircuitBreaker.Counts config h) (found : r.circuitBreaker p = some h.state)
    (behaves : Behaves config h (some (.poll at_)) (h.state.poll at_)) :
    (r.isAvailable p at_).1 = false ↔ h.state.state = .open_ ∧
      ∃ tripped, h.began = some (.failure tripped) ∧ at_.now < tripped + config.openDuration.nanos := by
  rw [unavailableIff found behaves]
  refine and_congr_right (fun open_ => ?_)
  obtain ⟨tripped, began, _⟩ := counts.tripped open_
  constructor
  · intro early
    exact ⟨tripped, began, Int.not_le.mp (fun due => early ⟨tripped, began, due⟩)⟩
  · rintro ⟨tripped, began, early⟩ ⟨other, same, due⟩
    rw [began] at same
    cases same
    exact Int.not_le.mpr early due

theorem breakersFollowHistory {providers : List ProviderConfig} {at_ : String → Instant} {r : ProviderRegistry}
    (made : r = .new providers config at_ ∨ r = .recovering providers config at_) (calls : List Call) (call : Call)
    (p : String) (ordered : Ordered p (calls ++ [call])) :
    (p ∉ providers.map ProviderConfig.id → (r.run calls).circuitBreaker p = none ∧
      ∀ at_, ((r.run calls).isAvailable p at_).1 = false) ∧
    (p ∈ providers.map ProviderConfig.id → ∃ start earlier h cb, Begins config p start ∧
      Marks CircuitBreaker.on CircuitBreaker.state start (own p calls) earlier h ∧
      h.state = (own p calls).foldl CircuitBreaker.on start ∧
      (r.run calls).circuitBreaker p = some h.state ∧ (r.run (calls ++ [call])).circuitBreaker p = some cb ∧
      Behaves config h (call.own p) cb ∧
      ∀ at_, call = .isAvailable p at_ → (((r.run calls).isAvailable p at_).1 = false ↔ h.state.state = .open_ ∧
        ∃ tripped, h.began = some (.failure tripped) ∧ at_.now < tripped + config.openDuration.nanos)) := by
  rcases madeBreaker made p with ⟨known, start, found, begins⟩ | ⟨unknown, missing⟩
  · refine ⟨fun unknown => absurd known unknown, fun _ => ?_⟩
    obtain ⟨earlier, marks⟩ := @Episode.afterMarks _ _ _ _ CircuitBreaker.on CircuitBreaker.state start (own p calls)
    have counts := CircuitBreaker.countsAfter (beginsCounts begins) (own p calls)
    have state : (start.after (own p calls)).state = (own p calls).foldl CircuitBreaker.on start := Episode.afterState ..
    have here : (r.run calls).circuitBreaker p = some (start.after (own p calls)).state := by
      rw [runBreaker, found, Option.map_some, state]
    have behaves := behavesNext ordered marks counts
    refine ⟨start, earlier, _, _, begins, marks, state, here, runNext here call, behaves, fun at_ poll => ?_⟩
    subst poll
    simp only [Call.own, if_true, Option.map_some, Option.getD_some] at behaves
    exact deniedIff counts here behaves
  · refine ⟨fun _ => ?_, fun known => absurd known unknown⟩
    have absent : (r.run calls).circuitBreaker p = none := by
      rw [runBreaker, missing]
      rfl
    exact ⟨absent, fun at_ => by rw [isAvailable, absent]⟩

instance (p : String) (calls : List Call) : Decidable (Ordered p calls) := by unfold Ordered; infer_instance

def provider (id : String) : ProviderConfig :=
  { id, endpoint := "https://" ++ id ++ ".example.com", models := ["model-1"], fallbackRank := 1, zoneAllowlist := [.green],
    capabilities := { maxContext := 100000, toolUse := true, vision := false, streaming := true, maxQualityTier := .opus } }

def fleet : ProviderRegistry := .new [provider "a", provider "b"] .default (fun _ => 0)

def outage : List Call :=
  [.recordFailure "a" 1, .recordFailure "b" 2, .recordFailure "a" 3, .recordFailure "a" 4, .recordSuccess "a" 5]

theorem breakersFollowHistoryOutage :
    ∃ start earlier h cb, Begins .default "a" start ∧
      Marks CircuitBreaker.on CircuitBreaker.state start (own "a" outage) earlier h ∧
      h.state = (own "a" outage).foldl CircuitBreaker.on start ∧
      (fleet.run outage).circuitBreaker "a" = some h.state ∧
      (fleet.run (outage ++ [.isAvailable "a" ⟨6, 6⟩])).circuitBreaker "a" = some cb ∧
      Behaves .default h (some (.poll ⟨6, 6⟩)) cb ∧
      ∀ at_, Call.isAvailable "a" ⟨6, 6⟩ = .isAvailable "a" at_ →
        (((fleet.run outage).isAvailable "a" at_).1 = false ↔ h.state.state = .open_ ∧
          ∃ tripped, h.began = some (.failure tripped) ∧
            at_.now < tripped + CircuitBreakerConfig.default.openDuration.nanos) :=
  (breakersFollowHistory (r := fleet) (.inl rfl) outage (.isAvailable "a" ⟨6, 6⟩) "a" (by decide)).2 (by decide)

end ProviderRegistry
end ArosKernel.Adapter
