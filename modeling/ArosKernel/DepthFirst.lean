import Mathlib.Data.Finset.Card
import Mathlib.Logic.Relation

/-! Depth-first cycle search over an arbitrary successor function. One pair of
mark sets is threaded through the whole search: `visited` only grows, `stack`
holds the path to the current vertex. Fuel bounds the depth of the recursion;
the number of unvisited vertices is always enough of it. -/
namespace ArosKernel.DepthFirst
open Relation

structure Marks (α : Type) where
  visited : Finset α
  stack : Finset α

variable {α : Type} [DecidableEq α]

def Marks.empty : Marks α := ⟨∅, ∅⟩
def Marks.enter (m : Marks α) (v : α) : Marks α := ⟨insert v m.visited, insert v m.stack⟩
def Marks.leave (m : Marks α) (v : α) : Marks α := ⟨m.visited, m.stack.erase v⟩

def scan (visit : α → Marks α → Option (Bool × Marks α)) : List α → Marks α → Option (Bool × Marks α)
  | [], m => some (false, m)
  | d :: rest, m =>
    if d ∉ m.visited then do
      let (found, m') ← visit d m
      if found then some (true, m') else scan visit rest m'
    else if d ∈ m.stack then some (true, m)
    else scan visit rest m

def search (succ : α → List α) : Nat → α → Marks α → Option (Bool × Marks α)
  | 0, _, _ => none
  | fuel + 1, v, m => do
    let (found, m') ← scan (search succ fuel) (succ v) (m.enter v)
    if found then some (true, m') else some (false, m'.leave v)

def sweep (succ : α → List α) (fuel : Nat) : List α → Marks α → Option Bool
  | [], _ => some false
  | root :: rest, m =>
    if root ∉ m.visited then do
      let (found, m') ← search succ fuel root m
      if found then some true else sweep succ fuel rest m'
    else sweep succ fuel rest m

section Correctness
variable (succ : α → List α)

def Edge (a b : α) : Prop := b ∈ succ a

def Cyclic : Prop := ∃ a, TransGen (Edge succ) a a

def Marks.finished (m : Marks α) : Finset α := m.visited \ m.stack

/- What the marks mean between two steps. A finished vertex was left again, so
its successors were all visited and none of them was on the stack. -/
structure Sound (m : Marks α) : Prop where
  stacked : m.stack ⊆ m.visited
  closed : ∀ u ∈ m.finished, ∀ w ∈ succ u, w ∈ m.finished
  acyclic : ∀ u ∈ m.finished, ¬ TransGen (Edge succ) u u

structure Extends (m m' : Marks α) : Prop where
  sound : Sound succ m'
  stack : m'.stack = m.stack
  visited : m.visited ⊆ m'.visited

structure Answers (m : Marks α) (targets : List α) (r : Bool × Marks α) : Prop where
  found : r.1 = true → Cyclic succ
  clear : r.1 = false → Extends succ m r.2 ∧ ∀ d ∈ targets, d ∈ r.2.finished

structure Ready (V : Finset α) (fuel : Nat) (v : α) (m : Marks α) : Prop where
  sound : Sound succ m
  inside : v ∈ V
  fresh : v ∉ m.visited
  path : ∀ s ∈ m.stack, ReflTransGen (Edge succ) s v
  fuel : (V \ m.visited).card ≤ fuel

variable {succ}

theorem finishedOf {m : Marks α} {v : α} : v ∈ m.finished ↔ v ∈ m.visited ∧ v ∉ m.stack :=
  Finset.mem_sdiff

theorem soundEmpty : Sound succ Marks.empty where
  stacked := Finset.Subset.refl _
  closed := by simp [Marks.finished, Marks.empty]
  acyclic := by simp [Marks.finished, Marks.empty]

theorem Extends.refl {m : Marks α} (sound : Sound succ m) : Extends succ m m :=
  ⟨sound, rfl, Finset.Subset.refl _⟩

theorem Extends.trans {a b c : Marks α} (first : Extends succ a b) (second : Extends succ b c) :
    Extends succ a c :=
  ⟨second.sound, second.stack.trans first.stack, first.visited.trans second.visited⟩

theorem Extends.finished {a b : Marks α} (h : Extends succ a b) : a.finished ⊆ b.finished := by
  intro u member
  rw [finishedOf] at member ⊢
  exact ⟨h.visited member.1, h.stack ▸ member.2⟩

theorem enterFinished {m : Marks α} {v : α} (fresh : v ∉ m.visited) :
    (m.enter v).finished = m.finished := by
  refine Finset.ext (fun u => ?_)
  simp only [finishedOf, Marks.enter, Finset.mem_insert]
  constructor
  · intro ⟨member, off⟩
    rcases member with same | seen
    · exact absurd (.inl same) off
    · exact ⟨seen, fun on => off (.inr on)⟩
  · intro ⟨seen, off⟩
    refine ⟨.inr seen, fun member => ?_⟩
    rcases member with same | on
    · exact fresh (same ▸ seen)
    · exact off on

theorem soundEnter {m : Marks α} {v : α} (sound : Sound succ m) (fresh : v ∉ m.visited) :
    Sound succ (m.enter v) where
  stacked := Finset.insert_subset_insert v sound.stacked
  closed := by rw [enterFinished fresh]; exact sound.closed
  acyclic := by rw [enterFinished fresh]; exact sound.acyclic

omit [DecidableEq α] in
theorem reachesClosed {s : Finset α} (closed : ∀ u ∈ s, ∀ w ∈ succ u, w ∈ s) {u w : α}
    (member : u ∈ s) (path : ReflTransGen (Edge succ) u w) : w ∈ s := by
  induction path with
  | refl => exact member
  | tail _ edge ih => exact closed _ ih _ edge

theorem leaveFinished {m : Marks α} {v : α} (seen : v ∈ m.visited) :
    (m.leave v).finished = insert v m.finished := by
  refine Finset.ext (fun u => ?_)
  simp only [finishedOf, Marks.leave, Finset.mem_erase, Finset.mem_insert]
  by_cases same : u = v
  · simp [same, seen]
  · simp [same]

/- Leaving a vertex whose successors are all finished: a cycle through it would
have to come back from the finished vertices, which reach only each other. -/
theorem soundLeave {m : Marks α} {v : α} (sound : Sound succ m) (on : v ∈ m.stack)
    (done : ∀ w ∈ succ v, w ∈ m.finished) : Sound succ (m.leave v) := by
  have finished := leaveFinished (sound.stacked on)
  have open_ : v ∉ m.finished := fun h => (finishedOf.mp h).2 on
  refine ⟨(Finset.erase_subset v m.stack).trans sound.stacked, ?_, ?_⟩
  · intro u member w edge
    rw [finished, Finset.mem_insert] at member ⊢
    rcases member with same | inside
    · exact .inr (done w (same ▸ edge))
    · exact .inr (sound.closed u inside w edge)
  · intro u member cycle
    rw [finished, Finset.mem_insert] at member
    rcases member with same | inside
    · subst u
      obtain ⟨w, edge, back⟩ := TransGen.head'_iff.mp cycle
      exact open_ (reachesClosed sound.closed (done w edge) back)
    · exact sound.acyclic u inside cycle

theorem scanAnswers {V : Finset α} {fuel : Nat} {visit : α → Marks α → Option (Bool × Marks α)}
    (visits : ∀ d m, Ready succ V fuel d m →
      ∃ r, visit d m = some r ∧ Answers succ m [d] r)
    {v : α} (ds : List α) {m : Marks α} (sound : Sound succ m)
    (path : ∀ s ∈ m.stack, ReflTransGen (Edge succ) s v) (edges : ∀ d ∈ ds, Edge succ v d)
    (inside : ∀ d ∈ ds, d ∈ V) (enough : (V \ m.visited).card ≤ fuel) :
    ∃ r, scan visit ds m = some r ∧ Answers succ m ds r := by
  induction ds generalizing m with
  | nil => exact ⟨_, rfl, by simp, fun _ => ⟨.refl sound, by simp⟩⟩
  | cons d rest ih =>
    have edge : Edge succ v d := edges d List.mem_cons_self
    have later (m' : Marks α) (grown : Extends succ m m') (done : d ∈ m'.finished) :
        ∃ r, scan visit rest m' = some r ∧ Answers succ m (d :: rest) r := by
      have shrink : (V \ m'.visited).card ≤ fuel :=
        (Finset.card_le_card (Finset.sdiff_subset_sdiff (Finset.Subset.refl V) grown.visited)).trans enough
      obtain ⟨r, ran, answers⟩ := ih grown.sound (grown.stack ▸ path)
        (fun x h => edges x (List.mem_cons_of_mem _ h)) (fun x h => inside x (List.mem_cons_of_mem _ h)) shrink
      refine ⟨r, ran, answers.found, fun no => ?_⟩
      obtain ⟨grown', all⟩ := answers.clear no
      refine ⟨grown.trans grown', fun x member => ?_⟩
      rcases List.mem_cons.mp member with rfl | tail
      · exact grown'.finished done
      · exact all x tail
    by_cases seen : d ∈ m.visited
    · by_cases on : d ∈ m.stack
      · -- the edge to a vertex of the stack closes the path from it to `v`
        exact ⟨(true, m), by simp [scan, seen, on],
          fun _ => ⟨d, TransGen.tail' (path d on) edge⟩, by simp⟩
      · obtain ⟨r, ran, answers⟩ := later m (.refl sound) (finishedOf.mpr ⟨seen, on⟩)
        exact ⟨r, by simp [scan, seen, on, ran], answers⟩
    · have ready : Ready succ V fuel d m :=
        ⟨sound, inside d List.mem_cons_self, seen, fun s h => (path s h).tail edge, enough⟩
      obtain ⟨⟨found, m'⟩, ran, answers⟩ := visits d m ready
      cases found with
      | true => exact ⟨(true, m'), by simp [scan, seen, ran], answers.found, by simp⟩
      | false =>
        obtain ⟨grown, done⟩ := answers.clear rfl
        obtain ⟨r, ran', answers'⟩ := later m' grown (done d List.mem_cons_self)
        exact ⟨r, by simp [scan, seen, ran, ran'], answers'⟩

theorem searchAnswers {V : Finset α} (closed : ∀ u ∈ V, ∀ w ∈ succ u, w ∈ V) (fuel : Nat) {v : α}
    {m : Marks α} (ready : Ready succ V fuel v m) :
    ∃ r, search succ fuel v m = some r ∧ Answers succ m [v] r := by
  induction fuel generalizing v m with
  | zero =>
    have empty := Finset.card_eq_zero.mp (Nat.le_zero.mp ready.fuel)
    have member : v ∈ V \ m.visited := Finset.mem_sdiff.mpr ⟨ready.inside, ready.fresh⟩
    simp [empty] at member
  | succ fuel ih =>
    have less : (V \ (m.enter v).visited).card ≤ fuel := by
      have strict : V \ (m.enter v).visited ⊂ V \ m.visited := by
        refine (Finset.ssubset_iff_of_subset ?_).mpr ⟨v, ?_, ?_⟩
        · exact Finset.sdiff_subset_sdiff (Finset.Subset.refl V) (Finset.subset_insert v m.visited)
        · exact Finset.mem_sdiff.mpr ⟨ready.inside, ready.fresh⟩
        · simp [Marks.enter]
      have := Finset.card_lt_card strict
      have := ready.fuel
      omega
    have path : ∀ s ∈ (m.enter v).stack, ReflTransGen (Edge succ) s v := by
      intro s member
      rcases Finset.mem_insert.mp member with rfl | on
      · exact .refl
      · exact ready.path s on
    obtain ⟨⟨found, m'⟩, ran, answers⟩ := scanAnswers (fun d m h => ih h) (succ v)
      (soundEnter ready.sound ready.fresh) path (fun d h => h) (closed v ready.inside) less
    cases found with
    | true => exact ⟨(true, m'), by simp [search, ran], answers.found, by simp⟩
    | false =>
      obtain ⟨grown, done⟩ := answers.clear rfl
      have on : v ∈ m'.stack := by rw [grown.stack]; exact Finset.mem_insert_self v m.stack
      have seen : v ∈ m'.visited := grown.sound.stacked on
      have off : v ∉ m.stack := fun h => ready.fresh (ready.sound.stacked h)
      refine ⟨(false, m'.leave v), by simp [search, ran], by simp, fun _ => ⟨⟨?_, ?_, ?_⟩, ?_⟩⟩
      · exact soundLeave grown.sound on done
      · show m'.stack.erase v = m.stack
        rw [grown.stack]
        exact Finset.erase_insert off
      · exact (Finset.subset_insert v m.visited).trans grown.visited
      · simp [leaveFinished seen]

theorem sweepExact {V : Finset α} (closed : ∀ u ∈ V, ∀ w ∈ succ u, w ∈ V) {fuel : Nat}
    (enough : V.card ≤ fuel) (roots : List α) (inside : ∀ v ∈ roots, v ∈ V) {m : Marks α}
    (sound : Sound succ m) (idle : m.stack = ∅) :
    ∃ found, sweep succ fuel roots m = some found ∧
      (found = true → Cyclic succ) ∧ (found = false → ∃ m', Extends succ m m' ∧ ∀ v ∈ roots, v ∈ m'.finished) := by
  induction roots generalizing m with
  | nil => exact ⟨false, rfl, by simp, fun _ => ⟨m, .refl sound, by simp⟩⟩
  | cons root rest ih =>
    have tail : ∀ v ∈ rest, v ∈ V := fun v h => inside v (List.mem_cons_of_mem _ h)
    have later (m' : Marks α) (grown : Extends succ m m') (done : root ∈ m'.finished) :
        ∃ found, sweep succ fuel rest m' = some found ∧ (found = true → Cyclic succ) ∧
          (found = false → ∃ m', Extends succ m m' ∧ ∀ v ∈ root :: rest, v ∈ m'.finished) := by
      obtain ⟨found, ran, yes, no⟩ := ih tail grown.sound (grown.stack.trans idle)
      refine ⟨found, ran, yes, fun clear => ?_⟩
      obtain ⟨m'', grown', all⟩ := no clear
      refine ⟨m'', grown.trans grown', fun x member => ?_⟩
      rcases List.mem_cons.mp member with rfl | tail
      · exact grown'.finished done
      · exact all x tail
    by_cases seen : root ∈ m.visited
    · obtain ⟨found, ran, answers⟩ := later m (.refl sound) (finishedOf.mpr ⟨seen, by simp [idle]⟩)
      exact ⟨found, by simp [sweep, seen, ran], answers⟩
    · have ready : Ready succ V fuel root m :=
        ⟨sound, inside root List.mem_cons_self, seen, by simp [idle],
          (Finset.card_le_card Finset.sdiff_subset).trans enough⟩
      obtain ⟨⟨found, m'⟩, ran, answers⟩ := searchAnswers closed fuel ready
      cases found with
      | true => exact ⟨true, by simp [sweep, seen, ran], answers.found, by simp⟩
      | false =>
        obtain ⟨grown, done⟩ := answers.clear rfl
        obtain ⟨found, ran', answers'⟩ := later m' grown (done root List.mem_cons_self)
        exact ⟨found, by simp [sweep, seen, ran, ran'], answers'⟩

theorem sweepDecides {V : Finset α} (closed : ∀ u ∈ V, ∀ w ∈ succ u, w ∈ V)
    (sources : ∀ u w, Edge succ u w → u ∈ V) {fuel : Nat} (enough : V.card ≤ fuel) {roots : List α}
    (all : ∀ v, v ∈ roots ↔ v ∈ V) :
    ∃ found, sweep succ fuel roots Marks.empty = some found ∧ (found = true ↔ Cyclic succ) := by
  obtain ⟨found, ran, yes, no⟩ :=
    sweepExact closed enough roots (fun v h => (all v).mp h) soundEmpty rfl
  refine ⟨found, ran, yes, ?_⟩
  intro ⟨a, cycle⟩
  by_contra clear
  obtain ⟨m, grown, done⟩ := no (by simpa using clear)
  obtain ⟨w, edge, _⟩ := TransGen.head'_iff.mp cycle
  exact grown.sound.acyclic a (done a ((all a).mpr (sources a w edge))) cycle

end Correctness
end ArosKernel.DepthFirst
