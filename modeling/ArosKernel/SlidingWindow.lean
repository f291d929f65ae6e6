import Mathlib.Data.List.Basic
import Mathlib.Order.Lattice

/-! A log that forgets what lies before a moving cutoff. What is kept and the full log
agree from the cutoff on, so a count over a recent window can be read off either. -/
namespace ArosKernel.SlidingWindow
variable {α : Type} [LinearOrder α]

def since (cutoff : α) (log : List α) : List α := log.filter (fun x => cutoff ≤ x)

def Agrees (cutoff : α) (kept log : List α) : Prop := ∀ c, cutoff ≤ c → since c kept = since c log

theorem sinceSince {c cutoff : α} (later : cutoff ≤ c) (log : List α) : since c (since cutoff log) = since c log := by
  unfold since
  rw [List.filter_filter]
  refine List.filter_congr (fun x _ => ?_)
  by_cases recent : c ≤ x
  · simp [recent, later.trans recent]
  · simp [recent]

theorem sinceAppend (c : α) (log more : List α) : since c (log ++ more) = since c log ++ since c more :=
  List.filter_append ..

namespace Agrees
variable {cutoff : α} {kept log : List α}

theorem refl (cutoff : α) (log : List α) : Agrees cutoff log log := fun _ _ => rfl

theorem later {cutoff' : α} (agrees : Agrees cutoff kept log) (le : cutoff ≤ cutoff') : Agrees cutoff' kept log :=
  fun c after => agrees c (le.trans after)

theorem prune (agrees : Agrees cutoff kept log) : Agrees cutoff (since cutoff kept) log :=
  fun c after => (sinceSince after kept).trans (agrees c after)

theorem push (agrees : Agrees cutoff kept log) (x : α) : Agrees cutoff (kept ++ [x]) (log ++ [x]) := by
  intro c after
  rw [sinceAppend, sinceAppend, agrees c after]

end Agrees
end ArosKernel.SlidingWindow
