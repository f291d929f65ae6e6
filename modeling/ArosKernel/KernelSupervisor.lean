import ArosKernel.HashMap
import ArosKernel.Process

/-! The supervisor of `supervisor/kernel.rs`. `update_state` has two sections under the
write lock; each takes its clock readings as arguments. The cached health is left out. -/
namespace ArosKernel.Supervisor

structure ChildHandle where
  id : ProcessId
  state : ProcessState
  restartTracker : RestartTracker
  startedAt : Instant
  pid : Option UInt32
  deriving DecidableEq, Repr

def ChildHandle.enter (h : ChildHandle) (state : ProcessState) : ChildHandle :=
  if state = .running then { h with state, restartTracker := h.restartTracker.reset } else { h with state }

def ChildHandle.restart (h : ChildHandle) (tracker : RestartTracker) (startedAt : Instant) : ChildHandle :=
  { h with restartTracker := tracker, state := .restarting, startedAt }

@[simp] theorem ChildHandle.enterState (h : ChildHandle) (state : ProcessState) : (h.enter state).state = state := by
  unfold enter
  split <;> rfl

@[simp] theorem ChildHandle.enterPolicy (h : ChildHandle) (state : ProcessState) :
    (h.enter state).restartTracker.policy = h.restartTracker.policy := by
  unfold enter
  split <;> rfl

structure KernelSupervisor where
  children : HashMap ProcessId ChildHandle
  deriving DecidableEq

-- The readings of `handle_failure`: in `record_restart`, and for `started_at`.
structure Readings where
  now : Instant
  startedAt : Instant
  deriving DecidableEq, Repr

abbrev Answer := Except SupervisorError Unit

namespace KernelSupervisor

def new : KernelSupervisor := ⟨∅⟩

def child (k : KernelSupervisor) (id : ProcessId) : Option ChildHandle := k.children.lookup id

def register (k : KernelSupervisor) (id : ProcessId) (policy : RestartPolicy) (now : Instant) : KernelSupervisor :=
  ⟨k.children.insert id
    { id, state := .starting, restartTracker := .new policy, startedAt := now, pid := none }⟩

def put (k : KernelSupervisor) (id : ProcessId) (handle : ChildHandle) : KernelSupervisor :=
  ⟨k.children.update id (fun _ => handle)⟩

def setState (k : KernelSupervisor) (id : ProcessId) (state : ProcessState) : Answer × KernelSupervisor :=
  match k.child id with
  | none => (.error (.processNotFound id), k)
  | some handle =>
    if handle.state = .stopped ∧ state = .running then
      (.error (.invalidTransition id handle.state.text state.text), k)
    else (.ok (), k.put id (handle.enter state))

def handleFailure (k : KernelSupervisor) (id : ProcessId) (at_ : Readings) : Answer × KernelSupervisor :=
  match k.child id with
  | none => (.error (.processNotFound id), k)
  | some handle =>
    match handle.restartTracker.recordRestart at_.now with
    | (.ok _, tracker) => (.ok (), k.put id (handle.restart tracker at_.startedAt))
    | (.error _, tracker) => (.error (.maxRestartsExceeded id), k.put id { handle with restartTracker := tracker })

def updateState (k : KernelSupervisor) (id : ProcessId) (state : ProcessState) (at_ : Readings) :
    Answer × KernelSupervisor :=
  match k.setState id state with
  | (.error e, k') => (.error e, k')
  | (.ok (), k') => if state = .failed then k'.handleFailure id at_ else (.ok (), k')

theorem childRegister (k : KernelSupervisor) (id j : ProcessId) (policy : RestartPolicy) (now : Instant) :
    (k.register id policy now).child j =
      if j = id then some { id, state := .starting, restartTracker := .new policy, startedAt := now, pid := none }
      else k.child j :=
  HashMap.lookupInsert k.children j id _

theorem childPut {k : KernelSupervisor} {id : ProcessId} {handle : ChildHandle} (found : k.child id = some handle)
    (handle' : ChildHandle) (j : ProcessId) :
    (k.put id handle').child j = if j = id then some handle' else k.child j := by
  unfold put child
  rw [HashMap.lookupUpdate]
  split
  · rename_i same
    subst j
    rw [show Finmap.lookup id k.children = some handle from found]
    rfl
  · rfl

theorem setStateCases (k : KernelSupervisor) (id : ProcessId) (state : ProcessState) :
    (k.child id = none ∧ k.setState id state = (.error (.processNotFound id), k)) ∨
    (∃ handle, k.child id = some handle ∧ handle.state = .stopped ∧ state = .running ∧
      k.setState id state = (.error (.invalidTransition id "Stopped" "Running"), k)) ∨
    (∃ handle k', k.child id = some handle ∧ ¬ (handle.state = .stopped ∧ state = .running) ∧
      k.setState id state = (.ok (), k') ∧
      ∀ j, k'.child j = if j = id then some (handle.enter state) else k.child j) := by
  unfold setState
  cases found : k.child id with
  | none => exact .inl ⟨rfl, rfl⟩
  | some handle =>
    dsimp only
    split
    · rename_i rejected
      exact .inr (.inl ⟨handle, rfl, rejected.1, rejected.2, by rw [rejected.1, rejected.2]; rfl⟩)
    · rename_i accepted
      exact .inr (.inr ⟨handle, _, rfl, accepted, rfl, childPut found _⟩)

theorem handleFailureCases (k : KernelSupervisor) (id : ProcessId) (at_ : Readings) :
    (k.child id = none ∧ k.handleFailure id at_ = (.error (.processNotFound id), k)) ∨
    (∃ handle k', k.child id = some handle ∧ handle.restartTracker.hasRoom at_.now = true ∧
      k.handleFailure id at_ = (.ok (), k') ∧ ∀ j, k'.child j = if j = id then
        some (handle.restart (handle.restartTracker.recordRestart at_.now).2 at_.startedAt) else k.child j) ∨
    (∃ handle k', k.child id = some handle ∧ handle.restartTracker.hasRoom at_.now = false ∧
      k.handleFailure id at_ = (.error (.maxRestartsExceeded id), k') ∧ ∀ j, k'.child j = if j = id then
        some { handle with restartTracker := (handle.restartTracker.recordRestart at_.now).2 } else k.child j) := by
  unfold handleFailure
  cases found : k.child id with
  | none => exact .inl ⟨rfl, rfl⟩
  | some handle =>
    cases room : handle.restartTracker.hasRoom at_.now with
    | true =>
      refine .inr (.inl ⟨handle, _, rfl, room, ?_, childPut found _⟩)
      simp [RestartTracker.recordRestart, room]
    | false =>
      refine .inr (.inr ⟨handle, _, rfl, room, ?_, childPut found _⟩)
      simp [RestartTracker.recordRestart, room]

theorem updateFailedCases (k : KernelSupervisor) (id : ProcessId) (at_ : Readings) :
    (k.child id = none ∧ k.updateState id .failed at_ = (.error (.processNotFound id), k)) ∨
    (∃ handle k', k.child id = some handle ∧ handle.restartTracker.hasRoom at_.now = true ∧
      k.updateState id .failed at_ = (.ok (), k') ∧ ∀ j, k'.child j = if j = id then
        some (handle.restart (handle.restartTracker.recordRestart at_.now).2 at_.startedAt) else k.child j) ∨
    (∃ handle k', k.child id = some handle ∧ handle.restartTracker.hasRoom at_.now = false ∧
      k.updateState id .failed at_ = (.error (.maxRestartsExceeded id), k') ∧ ∀ j, k'.child j = if j = id then
        some { handle with state := .failed, restartTracker := (handle.restartTracker.recordRestart at_.now).2 }
        else k.child j) := by
  unfold updateState
  rcases k.setStateCases id .failed with ⟨absent, set⟩ | ⟨_, _, _, impossible, _⟩ | ⟨handle, k', found, _, set, child⟩
  · exact .inl ⟨absent, by rw [set]⟩
  · cases impossible
  · have here : k'.child id = some { handle with state := .failed } := by rw [child, if_pos rfl]; rfl
    have other : ∀ j, ¬ j = id → k'.child j = k.child j := fun j different => by rw [child, if_neg different]
    rcases k'.handleFailureCases id at_ with ⟨absent, _⟩ | ⟨handle', k'', found', room, done, last⟩ |
      ⟨handle', k'', found', room, done, last⟩
    · rw [here] at absent
      cases absent
    · rw [here] at found'
      cases found'
      refine .inr (.inl ⟨handle, k'', found, room, by rw [set]; exact done, fun j => ?_⟩)
      rw [last j]
      split
      · rfl
      · rename_i different
        exact other j different
    · rw [here] at found'
      cases found'
      refine .inr (.inr ⟨handle, k'', found, room, by rw [set]; exact done, fun j => ?_⟩)
      rw [last j]
      split
      · rfl
      · rename_i different
        exact other j different

section Known
variable {k : KernelSupervisor} {id : ProcessId} {handle : ChildHandle}

theorem setAccepted (found : k.child id = some handle) {state : ProcessState}
    (legal : ¬ (handle.state = .stopped ∧ state = .running)) : ∃ k', k.setState id state = (.ok (), k') ∧
      ∀ j, k'.child j = if j = id then some (handle.enter state) else k.child j := by
  rcases k.setStateCases id state with ⟨absent, _⟩ | ⟨_, same, stopped, running, _⟩ | ⟨_, k', same, _, done⟩
  · rw [found] at absent
    cases absent
  · rw [found] at same
    cases same
    exact absurd ⟨stopped, running⟩ legal
  · rw [found] at same
    cases same
    exact ⟨k', done⟩

theorem setRejected (found : k.child id = some handle) (stopped : handle.state = .stopped) :
    k.setState id .running = (.error (.invalidTransition id "Stopped" "Running"), k) := by
  simp [setState, found, stopped, ProcessState.text]

theorem updateGranted (found : k.child id = some handle) {at_ : Readings}
    (room : handle.restartTracker.hasRoom at_.now = true) : ∃ k', k.updateState id .failed at_ = (.ok (), k') ∧
      ∀ j, k'.child j = if j = id then
        some (handle.restart (handle.restartTracker.recordRestart at_.now).2 at_.startedAt) else k.child j := by
  rcases k.updateFailedCases id at_ with ⟨absent, _⟩ | ⟨_, k', same, _, done⟩ | ⟨_, _, same, full, _⟩
  · rw [found] at absent
    cases absent
  · rw [found] at same
    cases same
    exact ⟨k', done⟩
  · rw [found] at same
    cases same
    rw [room] at full
    cases full

theorem updateRefused (found : k.child id = some handle) {at_ : Readings}
    (full : handle.restartTracker.hasRoom at_.now = false) :
    ∃ k', k.updateState id .failed at_ = (.error (.maxRestartsExceeded id), k') ∧ ∀ j, k'.child j = if j = id then
      some { handle with state := .failed, restartTracker := (handle.restartTracker.recordRestart at_.now).2 }
      else k.child j := by
  rcases k.updateFailedCases id at_ with ⟨absent, _⟩ | ⟨_, _, same, room, _⟩ | ⟨_, k', same, _, done⟩
  · rw [found] at absent
    cases absent
  · rw [found] at same
    cases same
    rw [full] at room
    cases room
  · rw [found] at same
    cases same
    exact ⟨k', done⟩

theorem updateUnknown (absent : k.child id = none) (state : ProcessState) (at_ : Readings) :
    k.updateState id state at_ = (.error (.processNotFound id), k) := by
  simp [updateState, setState, absent]

end Known

theorem updateOther (k : KernelSupervisor) (id : ProcessId) {state : ProcessState} (other : state ≠ .failed)
    (at_ : Readings) : k.updateState id state at_ = k.setState id state := by
  unfold updateState
  rcases k.setState id state with ⟨_ | _, _⟩
  · rfl
  · exact if_neg other

theorem setElsewhere (k : KernelSupervisor) (id : ProcessId) (state : ProcessState) {j : ProcessId} (different : j ≠ id) :
    (k.setState id state).2.child j = k.child j := by
  rcases k.setStateCases id state with ⟨_, set⟩ | ⟨_, _, _, _, set⟩ | ⟨_, _, _, _, set, child⟩
  · rw [set]
  · rw [set]
  · rw [set]; exact (child j).trans (if_neg different)

theorem handleFailureElsewhere (k : KernelSupervisor) (id : ProcessId) (at_ : Readings) {j : ProcessId}
    (different : j ≠ id) : (k.handleFailure id at_).2.child j = k.child j := by
  rcases k.handleFailureCases id at_ with ⟨_, done⟩ | ⟨_, _, _, _, done, child⟩ | ⟨_, _, _, _, done, child⟩
  · rw [done]
  · rw [done]; exact (child j).trans (if_neg different)
  · rw [done]; exact (child j).trans (if_neg different)

theorem updateElsewhere (k : KernelSupervisor) (id : ProcessId) (state : ProcessState) (at_ : Readings) {j : ProcessId}
    (different : j ≠ id) : (k.updateState id state at_).2.child j = k.child j := by
  have kept := k.setElsewhere id state different
  unfold updateState
  generalize k.setState id state = first at kept ⊢
  rcases first with ⟨_ | _, k'⟩
  · exact kept
  · dsimp only at kept ⊢
    split
    · exact (k'.handleFailureElsewhere id at_ different).trans kept
    · exact kept

theorem setError {k : KernelSupervisor} {id : ProcessId} {state : ProcessState} {e : SupervisorError}
    (refused : (k.setState id state).1 = .error e) : (k.setState id state).2 = k := by
  rcases k.setStateCases id state with ⟨_, set⟩ | ⟨_, _, _, _, set⟩ | ⟨_, _, _, _, set, _⟩
  · rw [set]
  · rw [set]
  · rw [set] at refused
    cases refused

theorem setOk {k : KernelSupervisor} {id : ProcessId} {state : ProcessState} (accepted : (k.setState id state).1 = .ok ()) :
    ((k.setState id state).2.child id).map ChildHandle.state = some state := by
  rcases k.setStateCases id state with ⟨_, set⟩ | ⟨_, _, _, _, set⟩ | ⟨handle, _, _, _, set, child⟩
  · rw [set] at accepted
    cases accepted
  · rw [set] at accepted
    cases accepted
  · rw [set, child, if_pos rfl, Option.map_some, ChildHandle.enterState]

end KernelSupervisor
end ArosKernel.Supervisor
