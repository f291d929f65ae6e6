import Mathlib.Data.List.Sort

/-! The first of the least. A stable sort puts at its head the element of least key that
stands first in the list. -/
namespace ArosKernel.Choice
variable {α κ : Type} [LinearOrder κ] (key : α → κ)

def sortByKey (l : List α) : List α := l.mergeSort (fun a b => key a ≤ key b)

structure FirstLeast (l : List α) (a : α) (before after : List α) : Prop where
  split : l = before ++ a :: after
  less : ∀ b ∈ before, key a < key b
  least : ∀ b ∈ after, key a ≤ key b

theorem keyTrans (a b c : α) (first : decide (key a ≤ key b) = true) (second : decide (key b ≤ key c) = true) :
    decide (key a ≤ key c) = true :=
  decide_eq_true (le_trans (of_decide_eq_true first) (of_decide_eq_true second))

theorem keyTotal (a b : α) : (decide (key a ≤ key b) || decide (key b ≤ key a)) = true := by
  simpa using le_total (key a) (key b)

theorem sortedPairs (l : List α) : (sortByKey key l).Pairwise (fun a b => key a ≤ key b) :=
  (List.pairwise_mergeSort (keyTrans key) (keyTotal key) l).imp of_decide_eq_true

theorem memSortByKey {l : List α} {a : α} : a ∈ sortByKey key l ↔ a ∈ l := List.mem_mergeSort

variable {key}

theorem headFirstLeast {l : List α} {a : α} (head : (sortByKey key l).head? = some a) :
    ∃ before after, FirstLeast key l a before after := by
  induction l with
  | nil => simp [sortByKey] at head
  | cons x rest ih =>
    obtain ⟨smaller, larger, whole, part, below⟩ := List.mergeSort_cons (keyTrans key) (keyTotal key) x rest
    have whole : sortByKey key (x :: rest) = smaller ++ x :: larger := whole
    have part : sortByKey key rest = smaller ++ larger := part
    cases smaller with
    | nil =>
      rw [whole] at head
      cases head
      refine ⟨[], rest, rfl, by simp, fun b member => ?_⟩
      have sorted := sortedPairs key (a :: rest)
      rw [whole] at sorted
      refine List.rel_of_pairwise_cons sorted ?_
      rw [← memSortByKey key, part] at member
      exact member
    | cons y smaller =>
      rw [whole] at head
      cases head
      obtain ⟨before, after, split, less, least⟩ := ih (by rw [part]; rfl)
      refine ⟨x :: before, after, by rw [split]; rfl, List.forall_mem_cons.mpr ⟨?_, less⟩, least⟩
      simpa using below a List.mem_cons_self

theorem firstLeastFilter {p : α → Bool} {l before after : List α} {a : α}
    (first : FirstLeast key (l.filter p) a before after) : p a = true ∧ ∃ earlier later, l = earlier ++ a :: later ∧
      (∀ b ∈ earlier, p b = true → key a < key b) ∧ ∀ b ∈ later, p b = true → key a ≤ key b := by
  obtain ⟨front, back, whole, early, late⟩ := List.filter_eq_append_iff.mp first.split
  obtain ⟨skipped, later, tail, none_, chosen, rest⟩ := List.filter_eq_cons_iff.mp late
  refine ⟨chosen, front ++ skipped, later, by rw [whole, tail, List.append_assoc], fun b member passes => ?_,
    fun b member passes => ?_⟩
  · rcases List.mem_append.mp member with inFront | inSkipped
    · exact first.less b (early ▸ List.mem_filter.mpr ⟨inFront, passes⟩)
    · exact absurd passes (none_ b inSkipped)
  · exact first.least b (rest ▸ List.mem_filter.mpr ⟨member, passes⟩)

theorem firstLeastMap {β : Type} {f : β → α} {l : List β} {a : α} {before after : List α}
    (first : FirstLeast key (l.map f) a before after) :
    ∃ b before' after', a = f b ∧ FirstLeast (fun b => key (f b)) l b before' after' := by
  obtain ⟨front, back, whole, early, late⟩ := List.map_eq_append_iff.mp first.split
  obtain ⟨b, rest, back_, here, tail⟩ := List.map_eq_cons_iff.mp late
  refine ⟨b, front, rest, here.symm, by rw [whole, back_], fun c member => ?_, fun c member => ?_⟩
  · rw [here]
    exact first.less (f c) (early ▸ List.mem_map_of_mem member)
  · rw [here]
    exact first.least (f c) (tail ▸ List.mem_map_of_mem member)

end ArosKernel.Choice
