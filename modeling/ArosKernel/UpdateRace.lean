import ArosKernel.KernelSupervisor
import ArosKernel.Ledger
import ArosKernel.Transition
import Mathlib.Data.List.Permutation

/-! Concurrent `update_state` calls. A Failed report sets the state in one section and
applies the restart policy in another; what other calls do between the two decides
whether the whole can be told as a sequence of calls. -/
namespace ArosKernel.Supervisor
open Transition KernelSupervisor

structure Report where
  id : ProcessId
  state : ProcessState
  readings : Readings
  deriving DecidableEq, Repr

structure Returned where
  report : Report
  answer : Answer

/- `settled` is the state that the calls which have returned left to each process; the
first section of a Failed report does not touch it. -/
structure Race where
  kernel : KernelSupervisor
  inFlight : List ProcessId
  log : List Returned
  settled : ProcessId → Option ProcessState

inductive Section where
  | report (id : ProcessId) (state : ProcessState) (readings : Readings)
  | finish (call : Nat) (readings : Readings)
  deriving DecidableEq, Repr

def Answer.settles (old : Option ProcessState) : Answer → Option ProcessState
  | .ok _ => some .restarting
  | .error (.maxRestartsExceeded _) => some .failed
  | .error _ => old

namespace Race

def start (k : KernelSupervisor) : Race := ⟨k, [], [], fun id => (k.child id).map ChildHandle.state⟩

def step (s : Race) : Section → Option Race
  | .report id state readings =>
    match s.kernel.setState id state with
    | (.error e, kernel) => some { s with kernel, log := s.log ++ [⟨⟨id, state, readings⟩, .error e⟩] }
    | (.ok (), kernel) =>
      if state = .failed then some { s with kernel, inFlight := s.inFlight ++ [id] }
      else some { s with kernel, log := s.log ++ [⟨⟨id, state, readings⟩, .ok ()⟩],
                         settled := Function.update s.settled id (some state) }
  | .finish i readings => do
    let id ← s.inFlight[i]?
    let (answer, kernel) := s.kernel.handleFailure id readings
    some ⟨kernel, s.inFlight.eraseIdx i, s.log ++ [⟨⟨id, .failed, readings⟩, answer⟩],
      Function.update s.settled id (answer.settles (s.settled id))⟩

/- No Running report passes because a Failed report in flight has overwritten Stopped,
and no report comes to its second section with the budget spent after another call has
moved the process out of Failed. -/
def Undisturbed (s : Race) : Section → Prop
  | .report id state _ => state = .running → s.settled id = some .stopped →
      (s.kernel.child id).map ChildHandle.state = some .stopped
  | .finish i readings => ∀ id ∈ s.inFlight[i]?, ∀ h ∈ s.kernel.child id,
      h.state = .failed ∨ h.restartTracker.hasRoom readings.now = true

instance (s : Race) : (part : Section) → Decidable (Undisturbed s part)
  | .report id state _ => inferInstanceAs (Decidable (state = .running → s.settled id = some .stopped →
      (s.kernel.child id).map ChildHandle.state = some .stopped))
  | .finish i readings => inferInstanceAs (Decidable (∀ id ∈ s.inFlight[i]?, ∀ h ∈ s.kernel.child id,
      h.state = .failed ∨ h.restartTracker.hasRoom readings.now = true))

end Race

def replay (k : KernelSupervisor) : List Report → List Answer × KernelSupervisor
  | [] => ([], k)
  | r :: rest =>
    let (answer, k') := k.updateState r.id r.state r.readings
    let (answers, last) := replay k' rest
    (answer :: answers, last)

theorem replayAppend (k : KernelSupervisor) (first second : List Report) :
    replay k (first ++ second) =
      ((replay k first).1 ++ (replay (replay k first).2 second).1, (replay (replay k first).2 second).2) := by
  induction first generalizing k with
  | nil => rfl
  | cons r rest ih => simp only [List.cons_append, replay, ih]

theorem replaySnoc (k : KernelSupervisor) (reports : List Report) (r : Report) :
    replay k (reports ++ [r]) =
      ((replay k reports).1 ++ [((replay k reports).2.updateState r.id r.state r.readings).1],
        ((replay k reports).2.updateState r.id r.state r.readings).2) :=
  replayAppend k reports [r]

theorem replayLength (k : KernelSupervisor) (reports : List Report) : (replay k reports).1.length = reports.length := by
  induction reports generalizing k with
  | nil => rfl
  | cons r rest ih => exact congrArg (· + 1) (ih _)

theorem replayElsewhere (k : KernelSupervisor) {id : ProcessId} {reports : List Report}
    (other : ∀ r ∈ reports, r.id ≠ id) : (replay k reports).2.child id = k.child id := by
  induction reports generalizing k with
  | nil => rfl
  | cons r rest ih =>
    have later := ih (k.updateState r.id r.state r.readings).2
      (fun r' member => other r' (List.mem_cons_of_mem r member))
    exact later.trans (k.updateElsewhere r.id r.state r.readings (other r List.mem_cons_self).symm)

theorem refusedFails {k : KernelSupervisor} {r : Report} {id : ProcessId}
    (refused : (k.updateState r.id r.state r.readings).1 = .error (.maxRestartsExceeded id)) :
    ((k.updateState r.id r.state r.readings).2.child id).map ChildHandle.state = some .failed := by
  by_cases failed : r.state = .failed
  · rw [failed] at refused ⊢
    rcases k.updateFailedCases r.id r.readings with ⟨_, done⟩ | ⟨_, _, _, _, done, _⟩ | ⟨_, _, _, _, done, child⟩
    · rw [done] at refused
      cases refused
    · rw [done] at refused
      cases refused
    · rw [done] at refused ⊢
      cases refused
      rw [child, if_pos rfl]
      rfl
  · rw [k.updateOther r.id failed] at refused
    rcases k.setStateCases r.id r.state with ⟨_, set⟩ | ⟨_, _, _, _, set⟩ | ⟨_, _, _, _, set, _⟩
    · rw [set] at refused
      cases refused
    · rw [set] at refused
      cases refused
    · rw [set] at refused
      cases refused

def ChildHandle.fail (h : ChildHandle) : ChildHandle := { h with state := .failed }

/- In `k` a process is as in `q`, or under the first section of a failure. -/
def Under (k q : KernelSupervisor) (id : ProcessId) : Prop :=
  k.child id = q.child id ∨ k.child id = (q.child id).map ChildHandle.fail

namespace Under
variable {k q : KernelSupervisor} {id : ProcessId}

theorem absent (under : Under k q id) (none_ : k.child id = none) : q.child id = none := by
  rcases under with same | same
  · exact same ▸ none_
  · rw [none_] at same
    exact Option.map_eq_none_iff.mp same.symm

theorem present (under : Under k q id) {h : ChildHandle} (found : k.child id = some h) :
    ∃ g, q.child id = some g ∧ (h = g ∨ h = g.fail) := by
  rcases under with same | same
  · exact ⟨h, same ▸ found, .inl rfl⟩
  · rw [found] at same
    obtain ⟨g, here, fail⟩ := Option.map_eq_some_iff.mp same.symm
    exact ⟨g, here, .inr fail.symm⟩

theorem setState (under : Under k q id) {state : ProcessState} (legal : state = .running →
      (q.child id).map ChildHandle.state = some .stopped → (k.child id).map ChildHandle.state = some .stopped) :
    (k.setState id state).1 = (q.setState id state).1 ∧
      (k.setState id state).2.child id = (q.setState id state).2.child id := by
  rcases k.setStateCases id state with ⟨none_, set⟩ | ⟨h, found, stopped, running, set⟩ |
    ⟨h, k', found, accepted, set, child⟩
  · have none' := under.absent none_
    have set' : q.setState id state = (.error (.processNotFound id), q) := by simp [KernelSupervisor.setState, none']
    rw [set, set']
    exact ⟨rfl, none_.trans none'.symm⟩
  · obtain ⟨g, here, equal | fail⟩ := under.present found
    · subst h running
      rw [set, setRejected here stopped]
      exact ⟨rfl, found.trans here.symm⟩
    · simp [fail, ChildHandle.fail] at stopped
  · obtain ⟨g, here, either⟩ := under.present found
    have enter : h.enter state = g.enter state := by
      rcases either with equal | fail
      · rw [equal]
      · subst fail
        unfold ChildHandle.enter ChildHandle.fail
        split <;> rfl
    have accepted' : ¬ (g.state = .stopped ∧ state = .running) := by
      rintro ⟨stopped, running⟩
      have still := legal running (by rw [here, Option.map_some, stopped])
      rw [found, Option.map_some] at still
      exact accepted ⟨Option.some.inj still, running⟩
    obtain ⟨q', set', child'⟩ := setAccepted here accepted'
    rw [set, set']
    exact ⟨rfl, by rw [child, if_pos rfl, child', if_pos rfl, enter]⟩

theorem handleFailure (under : Under k q id) {readings : Readings}
    (calm : ∀ h ∈ k.child id, h.state = .failed ∨ h.restartTracker.hasRoom readings.now = true) :
    (k.handleFailure id readings).1 = (q.updateState id .failed readings).1 ∧
      (k.handleFailure id readings).2.child id = (q.updateState id .failed readings).2.child id := by
  rcases k.handleFailureCases id readings with ⟨none_, done⟩ | ⟨h, k', found, room, done, child⟩ |
    ⟨h, k', found, full, done, child⟩
  · have none' := under.absent none_
    rw [done, updateUnknown none']
    exact ⟨rfl, none_.trans none'.symm⟩
  · obtain ⟨g, here, either⟩ := under.present found
    have tracker : h.restartTracker = g.restartTracker := by rcases either with rfl | rfl <;> rfl
    have restart : ∀ t at_, h.restart t at_ = g.restart t at_ := by rcases either with rfl | rfl <;> exact fun _ _ => rfl
    obtain ⟨q', done', child'⟩ := updateGranted here (tracker ▸ room)
    rw [done, done']
    exact ⟨rfl, by rw [child, if_pos rfl, child', if_pos rfl, tracker, restart]⟩
  · obtain ⟨g, here, either⟩ := under.present found
    have fail : h = g.fail := by
      rcases either with equal | fail
      · rcases calm h found with failed | room
        · rw [← equal, ChildHandle.fail, ← failed]
        · rw [full] at room
          cases room
      · exact fail
    subst fail
    obtain ⟨q', done', child'⟩ := updateRefused here (show g.restartTracker.hasRoom readings.now = false from full)
    rw [done, done']
    exact ⟨rfl, by rw [child, if_pos rfl, child', if_pos rfl]; rfl⟩

end Under

theorem settlesFailed (q : KernelSupervisor) (id : ProcessId) (readings : Readings) :
    (q.updateState id .failed readings).1.settles ((q.child id).map ChildHandle.state) =
      ((q.updateState id .failed readings).2.child id).map ChildHandle.state := by
  rcases q.updateFailedCases id readings with ⟨_, done⟩ | ⟨_, _, _, _, done, child⟩ | ⟨_, _, _, _, done, child⟩
  · rw [done]
    rfl
  · rw [done, child, if_pos rfl]
    rfl
  · rw [done, child, if_pos rfl]
    rfl

structure Shadows (s : Race) (q : KernelSupervisor) : Prop where
  under : ∀ id, Under s.kernel q id
  landed : ∀ id, id ∉ s.inFlight → s.kernel.child id = q.child id
  settled : ∀ id, s.settled id = (q.child id).map ChildHandle.state

namespace Shadows
variable {s : Race} {q : KernelSupervisor}

theorem ofChild {s' : Race} {q' : KernelSupervisor} (id : ProcessId) (child : s'.kernel.child id = q'.child id)
    (settled : s'.settled id = (q'.child id).map ChildHandle.state) (shadows : Shadows s q)
    (child' : ∀ j, j ≠ id → s'.kernel.child j = s.kernel.child j) (seq : ∀ j, j ≠ id → q'.child j = q.child j)
    (settled' : ∀ j, j ≠ id → s'.settled j = s.settled j) (flying : ∀ j, j ≠ id → j ∈ s.inFlight → j ∈ s'.inFlight) :
    Shadows s' q' := by
  refine ⟨fun j => ?_, fun j landed => ?_, fun j => ?_⟩ <;> by_cases same : j = id
  · exact .inl (same ▸ child)
  · rw [Under, child' j same, seq j same]
    exact shadows.under j
  · exact same ▸ child
  · rw [child' j same, seq j same]
    exact shadows.landed j (fun member => landed (flying j same member))
  · exact same ▸ settled
  · rw [settled' j same, seq j same, shadows.settled j]

theorem reportOther (shadows : Shadows s q) {id : ProcessId} {state : ProcessState} (other : state ≠ .failed)
    {readings : Readings} {t : Race} (calm : s.Undisturbed (.report id state readings))
    (next : s.step (.report id state readings) = some t) :
    ∃ answer, t.log = s.log ++ [⟨⟨id, state, readings⟩, answer⟩] ∧
      (q.updateState id state readings).1 = answer ∧ Shadows t (q.updateState id state readings).2 := by
  have legal := fun running stopped => calm running ((shadows.settled id).trans stopped)
  obtain ⟨answer, child⟩ := (shadows.under id).setState legal
  have kept := fun j => @setElsewhere s.kernel id state j
  have kept' := fun j => @setElsewhere q id state j
  rw [q.updateOther id other readings]
  simp only [Race.step] at next
  rcases set : s.kernel.setState id state with ⟨e | _, kernel⟩
  · simp only [set, Option.some.injEq] at next answer child kept
    subst next
    refine ⟨.error e, rfl, answer.symm, ofChild id child ?_ shadows kept kept' (fun _ _ => rfl) (fun _ _ member => member)⟩
    rw [setError answer.symm]
    exact shadows.settled id
  · simp only [set, other, if_false, Option.some.injEq] at next answer child kept
    subst next
    refine ⟨.ok (), rfl, answer.symm, ofChild id child ?_ shadows kept kept'
      (fun j different => Function.update_of_ne different ..) (fun _ _ member => member)⟩
    rw [setOk answer.symm]
    exact Function.update_self ..

theorem reportFailed (shadows : Shadows s q) {id : ProcessId} {readings : Readings} {t : Race}
    (next : s.step (.report id .failed readings) = some t) :
    (t.log = s.log ∧ Shadows t q) ∨
    (∃ answer, t.log = s.log ++ [⟨⟨id, .failed, readings⟩, answer⟩] ∧
      (q.updateState id .failed readings).1 = answer ∧ Shadows t (q.updateState id .failed readings).2) := by
  simp only [Race.step] at next
  rcases s.kernel.setStateCases id .failed with ⟨none_, set⟩ | ⟨_, _, _, impossible, _⟩ | ⟨h, k, found, _, set, child⟩
  · simp only [set, Option.some.injEq] at next
    subst next
    rw [updateUnknown ((shadows.under id).absent none_)]
    exact .inr ⟨_, rfl, rfl, ⟨shadows.under, shadows.landed, shadows.settled⟩⟩
  · cases impossible
  · simp only [set, if_true, Option.some.injEq] at next
    subst next
    refine .inl ⟨rfl, fun j => ?_, fun j landed => ?_, shadows.settled⟩
    · by_cases same : j = id
      · subst j
        obtain ⟨g, here, either⟩ := (shadows.under id).present found
        refine .inr ?_
        rw [child, if_pos rfl, here]
        rcases either with rfl | rfl <;> rfl
      · rw [Under, child, if_neg same]
        exact shadows.under j
    · rw [List.mem_append, List.mem_singleton, not_or] at landed
      rw [child, if_neg landed.2]
      exact shadows.landed j landed.1

theorem finish (shadows : Shadows s q) {i : Nat} {readings : Readings} {t : Race}
    (calm : s.Undisturbed (.finish i readings)) (next : s.step (.finish i readings) = some t) :
    ∃ id answer, t.log = s.log ++ [⟨⟨id, .failed, readings⟩, answer⟩] ∧
      (q.updateState id .failed readings).1 = answer ∧ Shadows t (q.updateState id .failed readings).2 := by
  simp only [Race.step, Option.bind_eq_bind, Option.bind_eq_some_iff] at next
  obtain ⟨id, at_, last⟩ := next
  cases last
  obtain ⟨answer, child⟩ := (shadows.under id).handleFailure (calm id at_)
  refine ⟨id, _, rfl, answer.symm, ofChild id child ?_ shadows (fun _ => s.kernel.handleFailureElsewhere id readings)
    (fun _ => q.updateElsewhere id .failed readings) (fun j different => Function.update_of_ne different ..) ?_⟩
  · rw [← settlesFailed, ← answer, ← shadows.settled id]
    exact Function.update_self ..
  · intro j different member
    have split := (Ledger.closePerm at_).mem_iff.mpr member
    exact (List.mem_cons.mp split).resolve_left different

end Shadows

structure Explained (k : KernelSupervisor) (s : Race) : Prop where
  answers : (replay k (s.log.map Returned.report)).1 = s.log.map Returned.answer
  final : ∀ id, id ∉ s.inFlight → s.kernel.child id = (replay k (s.log.map Returned.report)).2.child id
  refused : ∀ before r after id, s.log = before ++ r :: after → r.answer = .error (.maxRestartsExceeded id) →
    (∀ later ∈ after, later.report.id ≠ id) → id ∉ s.inFlight →
    (s.kernel.child id).map ChildHandle.state = some .failed

namespace Race

structure Sound (k : KernelSupervisor) (s : Race) : Prop where
  answers : (replay k (s.log.map Returned.report)).1 = s.log.map Returned.answer
  shadows : Shadows s (replay k (s.log.map Returned.report)).2

variable {k : KernelSupervisor}

theorem startSound : Sound k (start k) := ⟨rfl, fun _ => .inl rfl, fun _ _ => rfl, fun _ => rfl⟩

theorem Sound.returned {s t : Race} {r : Report} {answer : Answer} (sound : Sound k s)
    (log : t.log = s.log ++ [⟨r, answer⟩])
    (same : ((replay k (s.log.map Returned.report)).2.updateState r.id r.state r.readings).1 = answer)
    (shadows : Shadows t ((replay k (s.log.map Returned.report)).2.updateState r.id r.state r.readings).2) :
    Sound k t := by
  have told : t.log.map Returned.report = s.log.map Returned.report ++ [r] := by rw [log, List.map_append]; rfl
  constructor
  · rw [told, replaySnoc, log, List.map_append, ← sound.answers]
    exact congrArg (fun a => _ ++ [a]) same
  · rw [told, replaySnoc]
    exact shadows

theorem stepSound (s : Race) (part : Section) (t : Race) (sound : Sound k s) (calm : s.Undisturbed part)
    (next : s.step part = some t) : Sound k t := by
  cases part with
  | report id state readings =>
    by_cases failed : state = .failed
    · subst state
      rcases sound.shadows.reportFailed next with ⟨log, shadows⟩ | ⟨answer, log, same, shadows⟩
      · exact ⟨log ▸ sound.answers, log ▸ shadows⟩
      · exact sound.returned log same shadows
    · obtain ⟨answer, log, same, shadows⟩ := sound.shadows.reportOther failed calm next
      exact sound.returned log same shadows
  | finish i readings =>
    obtain ⟨id, answer, log, same, shadows⟩ := sound.shadows.finish calm next
    exact sound.returned log same shadows

theorem Sound.explained {s : Race} (sound : Sound k s) : Explained k s := by
  refine ⟨sound.answers, sound.shadows.landed, fun before r after id split refused others landed => ?_⟩
  have answers := sound.answers
  rw [sound.shadows.landed id landed]
  rw [split, List.map_append, List.map_cons, replayAppend] at answers ⊢
  have lengths : (replay k (before.map Returned.report)).1.length = (before.map Returned.answer).length := by
    rw [replayLength, List.length_map, List.length_map]
  have here := (List.append_inj (answers.trans (List.map_append ..)) lengths).2
  have head := (List.cons.inj here).1
  rw [refused] at head
  have told : ∀ report ∈ after.map Returned.report, report.id ≠ id := by
    intro report member
    obtain ⟨later, at_, rfl⟩ := List.mem_map.mp member
    exact others later at_
  have failed := refusedFails head
  rw [← replayElsewhere _ told] at failed
  exact failed

theorem updatesExplained (k : KernelSupervisor) {sections : List Section}
    (undisturbed : Meets step Undisturbed (start k) sections) : Always step (Explained k) (start k) sections :=
  alwaysOfMeets stepSound (fun _ sound => sound.explained) startSound undisturbed

def oneRestart : KernelSupervisor :=
  KernelSupervisor.new.register .modelAdapter { RestartPolicy.default with maxRestarts := 1 } 0

def recovers : List Section :=
  [.report .modelAdapter .failed ⟨0, 0⟩, .report .modelAdapter .running ⟨0, 0⟩, .finish 0 ⟨1, 1⟩,
    .report .modelAdapter .failed ⟨0, 0⟩, .finish 0 ⟨2, 2⟩]

theorem updatesExplainedRecovers : Always step (Explained oneRestart) (start oneRestart) recovers :=
  updatesExplained oneRestart (by decide +kernel)

def overtaken : List Section :=
  [.report .modelAdapter .failed ⟨0, 0⟩, .report .modelAdapter .failed ⟨0, 0⟩, .finish 1 ⟨1, 1⟩, .finish 0 ⟨2, 2⟩]

theorem updatesTearOvertaken :
    ∃ s, run step (start oneRestart) overtaken = some s ∧ s.inFlight = [] ∧
      s.log.map Returned.answer = [.ok (), .error (.maxRestartsExceeded .modelAdapter)] ∧
      (s.kernel.child .modelAdapter).map ChildHandle.state = some .restarting ∧
      ∀ told : List Returned,
        (told.map fun r => (r.report.id, r.report.state, r.answer)).Perm
          (s.log.map fun r => (r.report.id, r.report.state, r.answer)) →
        (replay oneRestart (told.map Returned.report)).1 = told.map Returned.answer →
        ((replay oneRestart (told.map Returned.report)).2.child .modelAdapter).map ChildHandle.state ≠
          (s.kernel.child .modelAdapter).map ChildHandle.state := by
  have facts : (run step (start oneRestart) overtaken).map (fun s => (s.inFlight,
      s.log.map (fun r => (r.report.id, r.report.state, r.answer)),
      (s.kernel.child .modelAdapter).map ChildHandle.state)) =
      some ([], [(.modelAdapter, .failed, .ok ()),
        (.modelAdapter, .failed, .error (.maxRestartsExceeded .modelAdapter))], some .restarting) := by rfl
  obtain ⟨s, ran, same⟩ := Option.map_eq_some_iff.mp facts
  simp only [Prod.mk.injEq] at same
  obtain ⟨flying, log, state⟩ := same
  refine ⟨s, ran, flying, ?_, state, fun told shuffled answers => ?_⟩
  · have answers := congrArg (List.map fun x => x.2.2) log
    rwa [List.map_map] at answers
  · rw [log] at shuffled
    rw [state]
    rcases List.perm_pair.mp shuffled with granted | refused
    · obtain ⟨a, b, rfl⟩ := List.length_eq_two.mp (by simpa using congrArg List.length granted)
      simp only [List.map_cons, List.map_nil, List.cons.injEq, Prod.mk.injEq, and_true] at granted
      obtain ⟨_, _, _, second⟩ := granted
      simp only [replay, List.map_cons, List.map_nil, List.cons.injEq, and_true] at answers ⊢
      rw [refusedFails (answers.2.trans second)]
      decide
    · obtain ⟨a, b, rfl⟩ := List.length_eq_two.mp (by simpa using congrArg List.length refused)
      simp only [List.map_cons, List.map_nil, List.cons.injEq, Prod.mk.injEq, and_true] at refused
      obtain ⟨⟨id, failed, first⟩, _⟩ := refused
      have fresh : (oneRestart.updateState .modelAdapter .failed a.report.readings).1 = .ok () := by
        have here : ∃ h, oneRestart.child .modelAdapter = some h ∧
            h.restartTracker.hasRoom a.report.readings.now = true := ⟨_, by rw [oneRestart, childRegister, if_pos rfl], rfl⟩
        obtain ⟨h, found, room⟩ := here
        obtain ⟨_, done, _⟩ := updateGranted found room
        rw [done]
      simp only [replay, List.map_cons, List.map_nil, List.cons.injEq, and_true] at answers
      rw [id, failed, fresh, first] at answers
      cases answers.1

end Race
end ArosKernel.Supervisor
