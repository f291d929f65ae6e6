import ArosKernel.KernelSupervisor
import ArosKernel.SlidingWindow
import ArosKernel.Transition

/-! Sequential runs of the supervisor against their own history. The policy of a process
and the restarts it was granted are read off the calls and their answers alone; the
tracker, which forgets, must agree with them. -/
namespace ArosKernel.Supervisor
open Transition SlidingWindow KernelSupervisor

inductive Call where
  | register (id : ProcessId) (policy : RestartPolicy) (now : Instant)
  | update (id : ProcessId) (state : ProcessState) (at_ : Readings)
  deriving DecidableEq, Repr

structure Record where
  call : Call
  answer : Answer

abbrev History := List Record

def policyOf (id : ProcessId) : History → Option RestartPolicy
  | [] => none
  | ⟨.register j policy _, _⟩ :: rest => if j = id then some policy else policyOf id rest
  | ⟨.update .., _⟩ :: rest => policyOf id rest

-- The grants of `id` since it was last registered or reported Running, oldest first.
def grants (id : ProcessId) : History → List Instant
  | [] => []
  | ⟨.register j _ _, _⟩ :: rest => if j = id then [] else grants id rest
  | ⟨.update _ _ _, .error _⟩ :: rest => grants id rest
  | ⟨.update j state at_, .ok _⟩ :: rest =>
    if j = id then
      if state = .running then []
      else if state = .failed then grants id rest ++ [at_.now]
      else grants id rest
    else grants id rest

structure Session where
  kernel : KernelSupervisor
  clock : Instant
  history : History

namespace Session

def start (clock : Instant) : Session := ⟨.new, clock, []⟩

def step (s : Session) : Call → Option Session
  | .register id policy now =>
    if s.clock ≤ now then
      some ⟨s.kernel.register id policy now, now, ⟨.register id policy now, .ok ()⟩ :: s.history⟩
    else none
  | .update id state at_ =>
    if s.clock ≤ at_.now ∧ at_.now ≤ at_.startedAt then
      let (answer, kernel) := s.kernel.updateState id state at_
      some ⟨kernel, at_.startedAt, ⟨.update id state at_, answer⟩ :: s.history⟩
    else none

end Session

def inWindow (policy : RestartPolicy) (from_ : Instant) (log : List Instant) : List Instant :=
  log.filter (fun t => from_ ≤ t ∧ t ≤ from_ + policy.restartWindow.nanos)

theorem afterCutoff {clock from_ g width : Int} (inside : clock ≤ from_ + width) (member : from_ ≤ g) :
    clock - width ≤ g := by omega

/- A window that holds the new grant starts after the cutoff, so the old grants in it
were all counted. -/
theorem sparsePush {policy : RestartPolicy} {clock from_ : Instant} {log : List Instant} {most : Nat}
    (few : (since (clock - policy.restartWindow.nanos) log).length < most)
    (sparse : (inWindow policy from_ log).length ≤ most) : (inWindow policy from_ (log ++ [clock])).length ≤ most := by
  have split : inWindow policy from_ (log ++ [clock]) = inWindow policy from_ log ++ inWindow policy from_ [clock] :=
    List.filter_append ..
  rw [split, List.length_append]
  by_cases inside : from_ ≤ clock ∧ clock ≤ from_ + policy.restartWindow.nanos
  · have counted : (inWindow policy from_ log).length ≤ (since (clock - policy.restartWindow.nanos) log).length := by
      refine (List.monotone_filter_right log (fun g member => ?_)).length_le
      rw [decide_eq_true_eq] at member ⊢
      exact afterCutoff inside.2 member.1
    have one : inWindow policy from_ [clock] = [clock] := by simp [inWindow, inside]
    rw [one, List.length_singleton]
    omega
  · have none : inWindow policy from_ [clock] = [] := by
      rw [inWindow, List.filter_singleton, decide_eq_false inside]
      rfl
    rw [none, List.length_nil]
    exact sparse

structure Represents (clock : Instant) (t : RestartTracker) (log : List Instant) : Prop where
  bounded : t.Bounded
  agrees : Agrees (clock - t.policy.restartWindow.nanos) t.restartTimes log
  past : ∀ g ∈ log, g ≤ clock
  sparse : ∀ from_, (inWindow t.policy from_ log).length ≤ t.policy.maxRestarts.toNat

namespace Represents
variable {clock : Instant} {t : RestartTracker} {log : List Instant}

theorem fresh (clock : Instant) {t : RestartTracker} (empty : t.restartTimes = []) : Represents clock t [] where
  bounded := by simp [RestartTracker.Bounded, empty]
  agrees := by rw [empty]; exact .refl _ []
  past := by simp
  sparse := by simp [inWindow]

theorem later (represents : Represents clock t log) {clock' : Instant} (le : clock ≤ clock') :
    Represents clock' t log where
  bounded := represents.bounded
  agrees := represents.agrees.later (Int.sub_le_sub_right le _)
  past g member := (represents.past g member).trans le
  sparse := represents.sparse

theorem recent (represents : Represents clock t log) : t.recent clock =
    since (clock - t.policy.restartWindow.nanos) log := represents.agrees _ le_rfl

theorem hasRoom (represents : Represents clock t log) : t.hasRoom clock = true ↔
    (since (clock - t.policy.restartWindow.nanos) log).length < t.policy.maxRestarts.toNat := by
  rw [represents.bounded.hasRoom, represents.recent]

theorem refused (represents : Represents clock t log) (full : t.hasRoom clock = false) :
    Represents clock (t.recordRestart clock).2 log := by
  have bounded := represents.bounded.recordRestart clock
  simp only [RestartTracker.recordRestart, full, Bool.false_eq_true, if_false] at bounded ⊢
  exact ⟨bounded, represents.agrees.prune, represents.past, represents.sparse⟩

theorem granted (represents : Represents clock t log) (room : t.hasRoom clock = true) :
    Represents clock (t.recordRestart clock).2 (log ++ [clock]) := by
  have bounded := represents.bounded.recordRestart clock
  have few := represents.hasRoom.mp room
  simp only [RestartTracker.recordRestart, room, if_true] at bounded ⊢
  refine ⟨bounded, represents.agrees.prune.push clock, fun g member => ?_, fun from_ =>
    sparsePush few (represents.sparse from_)⟩
  rcases List.mem_append.mp member with old | new
  · exact represents.past g old
  · rw [List.mem_singleton.mp new]

end Represents
namespace Session

structure Sound (s : Session) (id : ProcessId) : Prop where
  policy : (s.kernel.child id).map (fun h => h.restartTracker.policy) = policyOf id s.history
  tracker : ∀ h, s.kernel.child id = some h → Represents s.clock h.restartTracker (grants id s.history)

theorem startSound (clock : Instant) (id : ProcessId) : Sound (start clock) id := by
  have none : (start clock).kernel.child id = none := Finmap.lookup_empty id
  exact ⟨by rw [none]; rfl, fun h found => by rw [none] at found; cases found⟩

theorem grantsElsewhere {id j : ProcessId} (different : id ≠ j) (state : ProcessState) (at_ : Readings) (answer : Answer)
    (rest : History) : grants id (⟨.update j state at_, answer⟩ :: rest) = grants id rest := by
  cases answer with
  | error e => rfl
  | ok _ => exact if_neg different.symm

theorem Sound.register {s : Session} {id : ProcessId} (sound : s.Sound id) (j : ProcessId) (policy : RestartPolicy)
    {now : Instant} (later : s.clock ≤ now) :
    Sound ⟨s.kernel.register j policy now, now, ⟨.register j policy now, .ok ()⟩ :: s.history⟩ id := by
  by_cases same : id = j
  · subst j
    refine ⟨by simp [childRegister, policyOf, RestartTracker.new], fun h found => ?_⟩
    simp only [childRegister, if_true, Option.some.injEq] at found
    subst found
    simpa [grants] using Represents.fresh now rfl
  · have apart : ¬ j = id := fun h => same h.symm
    refine ⟨by simpa [childRegister, same, policyOf, apart] using sound.policy, fun h found => ?_⟩
    simp only [childRegister, same, if_false] at found
    simpa [grants, apart] using (sound.tracker h found).later later

theorem updateHere {s : Session} {id : ProcessId} (sound : s.Sound id) (state : ProcessState) {at_ : Readings}
    (later : s.clock ≤ at_.now) :
    ((s.kernel.updateState id state at_).2.child id).map (fun h => h.restartTracker.policy) = policyOf id s.history ∧
    ∀ h, (s.kernel.updateState id state at_).2.child id = some h → Represents at_.now h.restartTracker
      (grants id (⟨.update id state at_, (s.kernel.updateState id state at_).1⟩ :: s.history)) := by
  have old : ∀ h, s.kernel.child id = some h → Represents at_.now h.restartTracker (grants id s.history) :=
    fun h found => (sound.tracker h found).later later
  have policy := sound.policy
  by_cases failed : state = .failed
  · subst state
    rcases s.kernel.updateFailedCases id at_ with ⟨absent, done⟩ | ⟨handle, k, found, room, done, child⟩ |
      ⟨handle, k, found, full, done, child⟩
    · rw [done]
      exact ⟨policy, old⟩
    · rw [done]
      rw [found] at policy
      refine ⟨by simpa [child, ChildHandle.restart] using policy, fun h now => ?_⟩
      simp only [child, if_true, Option.some.injEq] at now
      subst now
      simpa [grants, ChildHandle.restart] using (old handle found).granted room
    · rw [done]
      rw [found] at policy
      refine ⟨by simpa [child] using policy, fun h now => ?_⟩
      simp only [child, if_true, Option.some.injEq] at now
      subst now
      exact (old handle found).refused full
  · rw [s.kernel.updateOther id failed]
    rcases s.kernel.setStateCases id state with ⟨absent, set⟩ | ⟨_, _, _, _, set⟩ | ⟨handle, k, found, _, set, child⟩
    · rw [set]
      exact ⟨policy, old⟩
    · rw [set]
      exact ⟨policy, old⟩
    · rw [set]
      rw [found] at policy
      refine ⟨by simpa [child] using policy, fun h now => ?_⟩
      simp only [child, if_true, Option.some.injEq] at now
      subst now
      by_cases running : state = .running
      · subst state
        simpa [grants] using Represents.fresh at_.now rfl
      · simpa [grants, running, failed, ChildHandle.enter] using old handle found

theorem stepSound (s : Session) (call : Call) (t : Session) (sound : ∀ id, s.Sound id) (next : step s call = some t)
    (id : ProcessId) : t.Sound id := by
  cases call with
  | register j policy now =>
    simp only [step] at next
    split at next
    · rename_i later
      cases next
      exact (sound id).register j policy later
    · contradiction
  | update j state at_ =>
    simp only [step] at next
    split at next
    · rename_i readings
      cases next
      by_cases same : id = j
      · subst j
        obtain ⟨policy, tracker⟩ := updateHere (sound id) state readings.1
        exact ⟨policy, fun h found => (tracker h found).later readings.2⟩
      · have kept := s.kernel.updateElsewhere j state at_ same
        refine ⟨by dsimp only; rw [kept]; exact (sound id).policy, fun h found => ?_⟩
        dsimp only at found ⊢
        rw [kept] at found
        rw [grantsElsewhere same]
        exact ((sound id).tracker h found).later (readings.1.trans readings.2)
    · contradiction

theorem reachableSound {clock : Instant} {s : Session} (reached : Reachable step (start clock) s) (id : ProcessId) :
    s.Sound id :=
  reachableInvariant (fun s call t sound next id => stepSound s call t sound next id) (startSound clock) reached id

end Session

structure RestartsExact (s : Session) (id : ProcessId) : Prop where
  unknown : policyOf id s.history = none → ∀ state at_,
    s.kernel.updateState id state at_ = (.error (.processNotFound id), s.kernel)
  granted : ∀ policy (at_ : Readings), policyOf id s.history = some policy → s.clock ≤ at_.now →
    (since (at_.now - policy.restartWindow.nanos) (grants id s.history)).length < policy.maxRestarts.toNat →
    (s.kernel.updateState id .failed at_).1 = .ok () ∧
      ((s.kernel.updateState id .failed at_).2.child id).map ChildHandle.state = some .restarting
  refused : ∀ policy (at_ : Readings), policyOf id s.history = some policy → s.clock ≤ at_.now →
    policy.maxRestarts.toNat ≤ (since (at_.now - policy.restartWindow.nanos) (grants id s.history)).length →
    (s.kernel.updateState id .failed at_).1 = .error (.maxRestartsExceeded id) ∧
      ((s.kernel.updateState id .failed at_).2.child id).map ChildHandle.state = some .failed
  sparse : ∀ policy, policyOf id s.history = some policy → ∀ from_,
    (inWindow policy from_ (grants id s.history)).length ≤ policy.maxRestarts.toNat
  count : ∀ h, s.kernel.child id = some h →
    policyOf id s.history = some h.restartTracker.policy ∧
      h.restartTracker.restartCount ≤ h.restartTracker.policy.maxRestarts
  rejected : ∀ h at_, s.kernel.child id = some h → h.state = .stopped →
    s.kernel.updateState id .running at_ = (.error (.invalidTransition id "Stopped" "Running"), s.kernel)
  elsewhere : ∀ j, j ≠ id → (∀ state at_, (s.kernel.updateState id state at_).2.child j = s.kernel.child j) ∧
    ∀ policy now, (s.kernel.register id policy now).child j = s.kernel.child j

namespace Session

theorem Sound.handle {s : Session} {id : ProcessId} (sound : s.Sound id) {policy : RestartPolicy}
    (known : policyOf id s.history = some policy) :
    ∃ h, s.kernel.child id = some h ∧ h.restartTracker.policy = policy := by
  rw [← sound.policy] at known
  exact Option.map_eq_some_iff.mp known

theorem restartsExact {clock : Instant} {s : Session} (reached : Reachable step (start clock) s) (id : ProcessId) :
    RestartsExact s id := by
  have sound := reachableSound reached id
  refine ⟨fun none state at_ => ?_, fun policy at_ known later few => ?_, fun policy at_ known later many => ?_,
    fun policy known from_ => ?_, fun h found => ?_, fun h at_ found stopped => ?_, fun j different => ?_⟩
  · rw [← sound.policy, Option.map_eq_none_iff] at none
    exact updateUnknown none state at_
  · obtain ⟨h, found, same⟩ := sound.handle known
    subst policy
    have room := ((sound.tracker h found).later later).hasRoom.mpr few
    obtain ⟨k, done, child⟩ := updateGranted found room
    rw [done]
    exact ⟨rfl, by rw [child, if_pos rfl]; rfl⟩
  · obtain ⟨h, found, same⟩ := sound.handle known
    subst policy
    have full : h.restartTracker.hasRoom at_.now = false := by
      rw [← Bool.not_eq_true, ((sound.tracker h found).later later).hasRoom]
      exact Nat.not_lt.mpr many
    obtain ⟨k, done, child⟩ := updateRefused found full
    rw [done]
    exact ⟨rfl, by rw [child, if_pos rfl]; rfl⟩
  · obtain ⟨h, found, same⟩ := sound.handle known
    exact same ▸ (sound.tracker h found).sparse from_
  · have policy := sound.policy
    rw [found] at policy
    exact ⟨policy.symm, (sound.tracker h found).bounded.restartCount⟩
  · rw [s.kernel.updateOther id (show ProcessState.running ≠ .failed by decide)]
    exact setRejected found stopped
  · exact ⟨fun state at_ => s.kernel.updateElsewhere id state at_ different, fun policy now => by
      rw [childRegister, if_neg different]⟩

def tight : RestartPolicy := { RestartPolicy.default with maxRestarts := 1, restartWindow := .ofSecs 60 }

def crashLoop : List Call :=
  [.register .modelAdapter tight 0, .update .modelAdapter .running ⟨1, 1⟩, .update .modelAdapter .failed ⟨2, 3⟩,
    .update .modelAdapter .failed ⟨4, 5⟩]

theorem restartsExactCrashLoop :
    RestartsExact ((run step (start 0) crashLoop).getD (start 0)) .modelAdapter :=
  restartsExact (reachableEnd (by decide +kernel)) .modelAdapter

def sinceRunning (id : ProcessId) : History → List Instant
  | [] => []
  | ⟨.register .., _⟩ :: rest => sinceRunning id rest
  | ⟨.update _ _ _, .error _⟩ :: rest => sinceRunning id rest
  | ⟨.update j state at_, .ok _⟩ :: rest =>
    if j = id then
      if state = .running then []
      else if state = .failed then sinceRunning id rest ++ [at_.now]
      else sinceRunning id rest
    else sinceRunning id rest

def reregistered : List Call :=
  [.register .modelAdapter tight 0, .update .modelAdapter .running ⟨1, 1⟩, .update .modelAdapter .failed ⟨2, 2⟩,
    .register .modelAdapter tight 3, .update .modelAdapter .failed ⟨4, 4⟩]

theorem windowOverflowsReregistered :
    ∃ s, run step (start 0) reregistered = some s ∧ policyOf .modelAdapter s.history = some tight ∧
      (s.kernel.updateState .modelAdapter .running ⟨5, 5⟩).1 = .ok () ∧
      tight.maxRestarts.toNat < (inWindow tight 2 (sinceRunning .modelAdapter s.history)).length := by
  have facts : (run step (start 0) reregistered).map (fun s => (policyOf .modelAdapter s.history,
      (s.kernel.updateState .modelAdapter .running ⟨5, 5⟩).1, sinceRunning .modelAdapter s.history)) =
      some (some tight, .ok (), [2, 4]) := by decide +kernel
  obtain ⟨s, ran, same⟩ := Option.map_eq_some_iff.mp facts
  simp only [Prod.mk.injEq] at same
  exact ⟨s, ran, same.1, same.2.1, by rw [same.2.2]; decide⟩

end Session
end ArosKernel.Supervisor
