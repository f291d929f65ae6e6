import ArosKernel.DepthFirst
import ArosKernel.Dependency
import Mathlib.Data.List.Basic

/-! Kahn's queue over arbitrary vertices, where `needs v` may list a vertex twice.
A vertex starts with the length of its list and loses one for each vertex that leaves
the queue and is listed, however often. A repeated need is therefore never paid. -/
namespace ArosKernel.Kahn
open Relation DepthFirst Dependency
variable {α : Type} [DecidableEq α] (needs : α → List α)

-- One pass over the vertices after `u` left the queue; `none` would be an underflow.
def release (u : α) : List α → (α → Nat) × List α → Option ((α → Nat) × List α)
  | [], s => some s
  | v :: rest, (degree, queue) =>
    if u ∈ needs v then
      if degree v = 0 then none
      else
        let degree' := Function.update degree v (degree v - 1)
        release u rest (degree', if degree' v = 0 then queue ++ [v] else queue)
    else release u rest (degree, queue)

def drain (vertices : List α) : Nat → List α → (α → Nat) → List α → Option (List α)
  | 0, _, _, _ => none
  | _ + 1, [], _, sorted => some sorted
  | fuel + 1, u :: queue, degree, sorted => do
    let (degree', queue') ← release needs u vertices (degree, queue)
    drain vertices fuel queue' degree' (sorted ++ [u])

/- A vertex that was popped or waits has nothing left to wait for, and every other
one still waits for something. -/
structure Inv (vertices : List α) (queue : List α) (degree : α → Nat) (sorted : List α) : Prop where
  nodup : (sorted ++ queue).Nodup
  ready : ∀ v, v ∈ sorted ++ queue ↔ v ∈ vertices ∧ degree v = 0
  count : ∀ v ∈ vertices, degree v + sorted.countP (· ∈ needs v) = (needs v).length
  before : ∀ earlier v later, sorted = earlier ++ v :: later → ∀ d ∈ needs v, d ∈ earlier

variable {needs}

theorem releaseSpec {u : α} {pass : List α} (distinct : pass.Nodup) {degree : α → Nat}
    (positive : ∀ v ∈ pass, u ∈ needs v → degree v ≠ 0) (queue : List α) :
    release needs u pass (degree, queue) =
      some (fun v => if v ∈ pass ∧ u ∈ needs v then degree v - 1 else degree v,
        queue ++ pass.filter (fun v => decide (u ∈ needs v ∧ degree v = 1))) := by
  induction pass generalizing degree queue with
  | nil => simp [release]
  | cons v rest ih =>
    obtain ⟨absent, distinct⟩ := List.nodup_cons.mp distinct
    by_cases needed : u ∈ needs v
    · have owed := positive v List.mem_cons_self needed
      have later : ∀ w ∈ rest, w ≠ v := fun w member same => absent (same ▸ member)
      have restPositive : ∀ w ∈ rest, u ∈ needs w → Function.update degree v (degree v - 1) w ≠ 0 := by
        intro w member lists
        rw [Function.update_of_ne (later w member)]
        exact positive w (List.mem_cons_of_mem _ member) lists
      simp only [release, needed, owed, if_true, if_false, ih distinct restPositive, Option.some.injEq,
        Prod.mk.injEq]
      constructor
      · funext w
        by_cases same : w = v
        · subst w
          simp [absent, needed]
        · simp [same]
      · have tail : rest.filter (fun w => decide (u ∈ needs w ∧ Function.update degree v (degree v - 1) w = 1)) =
            rest.filter (fun w => decide (u ∈ needs w ∧ degree w = 1)) := by
          refine List.filter_congr (fun w member => ?_)
          rw [Function.update_of_ne (later w member)]
        rw [tail, Function.update_self, List.filter_cons]
        by_cases last : degree v = 1
        · simp [last, needed]
        · have waits : degree v - 1 ≠ 0 := by omega
          simp [last, waits]
    · have skip := ih distinct (fun w member => positive w (List.mem_cons_of_mem _ member)) queue
      simp only [release, needed, if_false, skip, Option.some.injEq, Prod.mk.injEq]
      constructor
      · funext w
        by_cases same : w = v
        · subst w
          simp [needed]
        · simp [same]
      · simp [needed]

/- Listed vertices are paid once each: the bill is settled exactly by a list without
repetition whose members are all sorted. -/
theorem countFull {sorted l : List α} (distinct : sorted.Nodup) :
    sorted.countP (· ∈ l) = l.length ↔ l.Nodup ∧ ∀ d ∈ l, d ∈ sorted := by
  have part : (sorted.filter (· ∈ l)).Subperm l :=
    List.subperm_of_subset (distinct.filter _) (fun d member => by simpa using (List.mem_filter.mp member).2)
  rw [List.countP_eq_length_filter]
  constructor
  · intro full
    have perm := part.perm_of_length_le (by omega)
    refine ⟨perm.nodup_iff.mp (distinct.filter _), fun d member => ?_⟩
    exact (List.mem_filter.mp (perm.mem_iff.mpr member)).1
  · intro ⟨unique, inside⟩
    have whole : l.Subperm (sorted.filter (· ∈ l)) :=
      List.subperm_of_subset unique (fun d member => List.mem_filter.mpr ⟨inside d member, by simpa using member⟩)
    exact Nat.le_antisymm part.length_le whole.length_le

theorem countLe {sorted : List α} (distinct : sorted.Nodup) (l : List α) : sorted.countP (· ∈ l) ≤ l.length := by
  rw [List.countP_eq_length_filter]
  refine (List.subperm_of_subset (distinct.filter _) (fun d member => ?_)).length_le
  simpa using (List.mem_filter.mp member).2

namespace Inv
variable {vertices queue sorted : List α} {degree : α → Nat}

theorem sortedNodup (inv : Inv needs vertices queue degree sorted) : sorted.Nodup :=
  (List.nodup_append.mp inv.nodup).1

theorem lengthLe (inv : Inv needs vertices queue degree sorted) : sorted.length + queue.length ≤ vertices.length := by
  rw [← List.length_append]
  exact (List.subperm_of_subset inv.nodup (fun v member => ((inv.ready v).mp member).1)).length_le

theorem start {vertices queue : List α} (unique : queue.Nodup)
    (zero : ∀ v, v ∈ queue ↔ v ∈ vertices ∧ (needs v).length = 0) :
    Inv needs vertices queue (fun v => (needs v).length) [] where
  nodup := unique
  ready := zero
  count v member := by simp
  before earlier v later split := by simp at split

theorem positive {u : α} (inv : Inv needs vertices (u :: queue) degree sorted) {v : α} (member : v ∈ vertices)
    (needed : u ∈ needs v) : degree v ≠ 0 := by
  have fresh : (sorted ++ [u]).Nodup := by
    have nodup := inv.nodup
    rw [← List.singleton_append, ← List.append_assoc] at nodup
    exact (List.nodup_append.mp nodup).1
  have paid := countLe fresh (needs v)
  have bill := inv.count v member
  simp only [List.countP_append, List.countP_cons, needed, decide_true, List.countP_nil, if_true] at paid
  omega

theorem popBefore {u : α} (inv : Inv needs vertices (u :: queue) degree sorted) {earlier later : List α} {v : α}
    (split : sorted ++ [u] = earlier ++ v :: later) {d : α} (lists : d ∈ needs v) : d ∈ earlier := by
  have free := (inv.ready u).mp (by simp)
  rcases List.eq_nil_or_concat later with last | ⟨init, w, ends⟩
  · subst later
    have same := List.append_inj' (show sorted ++ [u] = earlier ++ [v] from split) rfl
    have here : u = v := List.singleton_inj.mp same.2
    subst here
    rw [← same.1]
    have bill := inv.count u free.1
    rw [free.2, Nat.zero_add] at bill
    exact ((countFull inv.sortedNodup).mp bill).2 d lists
  · subst later
    have same : sorted = earlier ++ v :: init :=
      (List.append_inj' (show sorted ++ [u] = (earlier ++ v :: init) ++ [w] by simpa using split) rfl).1
    exact inv.before earlier v init same d lists

theorem popped {u : α} (inv : Inv needs vertices (u :: queue) degree sorted) (v : α) :
    v ∈ (sorted ++ [u]) ++ queue ↔ v ∈ vertices ∧ degree v = 0 := by
  rw [← inv.ready v]
  simp

theorem popNodup {u : α} (distinct : vertices.Nodup) (inv : Inv needs vertices (u :: queue) degree sorted) :
    ((sorted ++ [u]) ++ (queue ++ vertices.filter (fun v => decide (u ∈ needs v ∧ degree v = 1)))).Nodup := by
  have nodup := inv.nodup
  rw [← List.singleton_append, ← List.append_assoc] at nodup
  rw [← List.append_assoc]
  refine List.nodup_append.mpr ⟨nodup, distinct.filter _, fun a before b new same => ?_⟩
  subst same
  have zero := ((inv.popped a).mp before).2
  simp only [List.mem_filter, decide_eq_true_eq] at new
  omega

theorem popReady {u : α} (inv : Inv needs vertices (u :: queue) degree sorted) (v : α) :
    v ∈ (sorted ++ [u]) ++ (queue ++ vertices.filter (fun v => decide (u ∈ needs v ∧ degree v = 1))) ↔
      v ∈ vertices ∧ (if v ∈ vertices ∧ u ∈ needs v then degree v - 1 else degree v) = 0 := by
  rw [← List.append_assoc, List.mem_append, inv.popped v, List.mem_filter]
  simp only [decide_eq_true_eq]
  by_cases needed : u ∈ needs v
  · have waits : v ∈ vertices → degree v ≠ 0 := fun member => inv.positive member needed
    simp only [needed, and_true, true_and]
    constructor
    · intro either
      rcases either with ⟨member, zero⟩ | ⟨member, one⟩
      · exact absurd zero (waits member)
      · rw [if_pos member]
        exact ⟨member, by omega⟩
    · intro ⟨member, zero⟩
      rw [if_pos member] at zero
      have := waits member
      exact .inr ⟨member, by omega⟩
  · simp [needed]

theorem popCount {u : α} (inv : Inv needs vertices (u :: queue) degree sorted) {v : α} (member : v ∈ vertices) :
    (if v ∈ vertices ∧ u ∈ needs v then degree v - 1 else degree v) + (sorted ++ [u]).countP (· ∈ needs v) =
      (needs v).length := by
  have bill := inv.count v member
  by_cases needed : u ∈ needs v
  · have waits := inv.positive member needed
    simp only [member, needed, and_self, if_true, List.countP_append, List.countP_cons, decide_true, List.countP_nil]
    omega
  · simpa [needed] using bill

theorem pop {u : α} (distinct : vertices.Nodup) (inv : Inv needs vertices (u :: queue) degree sorted) :
    ∃ degree' queue', release needs u vertices (degree, queue) = some (degree', queue') ∧
      Inv needs vertices queue' degree' (sorted ++ [u]) := by
  refine ⟨_, _, releaseSpec distinct (fun v member => inv.positive member) queue, ?_⟩
  exact ⟨inv.popNodup distinct, inv.popReady, fun v member => inv.popCount member,
    fun earlier v later split d lists => inv.popBefore split lists⟩

theorem drained (distinct : vertices.Nodup) (fuel : Nat) (inv : Inv needs vertices queue degree sorted)
    (enough : vertices.length + 1 ≤ fuel + sorted.length) :
    ∃ final degree', drain needs vertices fuel queue degree sorted = some final ∧
      Inv needs vertices [] degree' final := by
  induction fuel generalizing queue degree sorted with
  | zero =>
    have := inv.lengthLe
    omega
  | succ fuel ih =>
    cases queue with
    | nil => exact ⟨sorted, degree, rfl, inv⟩
    | cons u queue =>
      obtain ⟨degree', queue', released, next⟩ := inv.pop distinct
      obtain ⟨final, last, ran, done⟩ := ih next (by rw [List.length_append, List.length_singleton]; omega)
      exact ⟨final, last, by simp [drain, released, ran], done⟩

theorem indexBefore (inv : Inv needs vertices queue degree sorted) {a b : α} (here : a ∈ sorted) (listed : b ∈ needs a) :
    sorted.idxOf b < sorted.idxOf a := by
  obtain ⟨front, back, split⟩ := List.append_of_mem here
  have first : b ∈ front := inv.before front a back split b listed
  have apart : a ∉ front := by
    have nodup := inv.sortedNodup
    rw [split] at nodup
    exact fun member => (List.nodup_append.mp nodup).2.2 a member a List.mem_cons_self rfl
  rw [split, List.idxOf_append_of_mem first, List.idxOf_append_of_notMem apart]
  have := List.idxOf_lt_length_of_mem first
  omega

theorem sortedReady (inv : Inv needs vertices [] degree sorted) (v : α) : v ∈ sorted ↔ v ∈ vertices ∧ degree v = 0 := by
  rw [← inv.ready v, List.append_nil]

theorem sortedSubperm (inv : Inv needs vertices [] degree sorted) : sorted.Subperm vertices :=
  List.subperm_of_subset inv.sortedNodup (fun v member => ((inv.sortedReady v).mp member).1)

theorem acyclicOfSorted (inside : ∀ a b, b ∈ needs a → a ∈ vertices) (inv : Inv needs vertices [] degree sorted)
    (perm : sorted.Perm vertices) : ¬ Cyclic needs := by
  have earlier : ∀ a b, Edge needs a b → sorted.idxOf b < sorted.idxOf a :=
    fun a b edge => inv.indexBefore (perm.mem_iff.mpr (inside a b edge)) edge
  have ranked : ∀ a b, TransGen (Edge needs) a b → sorted.idxOf b < sorted.idxOf a := by
    intro a b path
    induction path with
    | single edge => exact earlier _ _ edge
    | tail _ edge ih => exact (earlier _ _ edge).trans ih
  rintro ⟨a, cycle⟩
  exact Nat.lt_irrefl _ (ranked a a cycle)

theorem listsOnceOfSorted (inv : Inv needs vertices [] degree sorted) (perm : sorted.Perm vertices) :
    ∀ v ∈ vertices, (needs v).Nodup := by
  intro v member
  have bill := inv.count v member
  rw [((inv.sortedReady v).mp (perm.mem_iff.mpr member)).2, Nat.zero_add] at bill
  exact ((countFull inv.sortedNodup).mp bill).1

theorem sortedOfAcyclic (inside : ∀ a b, b ∈ needs a → a ∈ vertices ∧ b ∈ vertices)
    (inv : Inv needs vertices [] degree sorted) (acyclic : ¬ Cyclic needs) (unique : ∀ v ∈ vertices, (needs v).Nodup) :
    ∀ v, v ∈ vertices → v ∈ sorted := by
  have founded : WellFounded (fun b a => Edge needs a b) :=
    wellFoundedOfAcyclic (S := vertices.toFinset)
      (fun a b edge => ⟨List.mem_toFinset.mpr (inside a b edge).1, List.mem_toFinset.mpr (inside a b edge).2⟩)
      (fun a cycle => acyclic ⟨a, cycle⟩)
  intro v
  induction v using founded.induction with
  | h v ih =>
    intro member
    have paid := (countFull inv.sortedNodup).mpr ⟨unique v member, fun d lists => ih d lists (inside v d lists).2⟩
    have bill := inv.count v member
    exact (inv.sortedReady v).mpr ⟨member, by omega⟩

theorem sortedAll (distinct : vertices.Nodup) (inside : ∀ a b, b ∈ needs a → a ∈ vertices ∧ b ∈ vertices)
    (inv : Inv needs vertices [] degree sorted) :
    sorted.length = vertices.length ↔ ¬ Cyclic needs ∧ ∀ v ∈ vertices, (needs v).Nodup := by
  constructor
  · intro full
    have perm := inv.sortedSubperm.perm_of_length_le (by omega)
    exact ⟨inv.acyclicOfSorted (fun a b edge => (inside a b edge).1) perm, inv.listsOnceOfSorted perm⟩
  · intro ⟨acyclic, unique⟩
    have all := inv.sortedOfAcyclic inside acyclic unique
    exact Nat.le_antisymm inv.sortedSubperm.length_le (List.subperm_of_subset distinct all).length_le

end Inv
end ArosKernel.Kahn
