import Mathlib.Data.List.Induction

/-! Runs of a total machine cut into episodes. An episode is the stretch of a run since
the phase of its state last changed, with the input that changed it. -/
namespace ArosKernel

structure Episode (σ ι : Type) where
  state : σ
  began : Option ι
  since : List ι

namespace Episode
variable {σ ι κ : Type} [DecidableEq κ]

def start (s : σ) : Episode σ ι := ⟨s, none, []⟩

variable (next : σ → ι → σ) (phase : σ → κ)

def watch (e : Episode σ ι) (i : ι) : Episode σ ι :=
  let s := next e.state i
  if phase s = phase e.state then ⟨s, e.began, e.since ++ [i]⟩ else ⟨s, some i, []⟩

def after (s : σ) (inputs : List ι) : Episode σ ι := inputs.foldl (watch next phase) (start s)

variable {next phase}

theorem watchSame {e : Episode σ ι} {i : ι} (same : phase (next e.state i) = phase e.state) :
    watch next phase e i = ⟨next e.state i, e.began, e.since ++ [i]⟩ := if_pos same

theorem watchChange {e : Episode σ ι} {i : ι} (change : phase (next e.state i) ≠ phase e.state) :
    watch next phase e i = ⟨next e.state i, some i, []⟩ := if_neg change

theorem watchState (e : Episode σ ι) (i : ι) : (watch next phase e i).state = next e.state i := by
  by_cases same : phase (next e.state i) = phase e.state
  · rw [watchSame same]
  · rw [watchChange same]

theorem afterConcat (s : σ) (inputs : List ι) (i : ι) :
    after next phase s (inputs ++ [i]) = watch next phase (after next phase s inputs) i := by
  rw [after, List.foldl_append]
  rfl

theorem afterState (s : σ) (inputs : List ι) : (after next phase s inputs).state = inputs.foldl next s := by
  induction inputs using List.reverseRecOn with
  | nil => rfl
  | append_singleton inputs i ih => rw [afterConcat, watchState, ih, List.foldl_append, List.foldl_cons, List.foldl_nil]

theorem afterInvariant {Inv : Episode σ ι → Prop} {s : σ} (initial : Inv (start s))
    (kept : ∀ e i, Inv e → Inv (watch next phase e i)) (inputs : List ι) : Inv (after next phase s inputs) := by
  induction inputs using List.reverseRecOn with
  | nil => exact initial
  | append_singleton inputs i ih =>
    rw [afterConcat]
    exact kept _ i ih

structure Marks (next : σ → ι → σ) (phase : σ → κ) (s : σ) (inputs before : List ι) (e : Episode σ ι) : Prop where
  whole : before ++ e.began.toList ++ e.since = inputs
  first : e.began = none → before = []
  change : ∀ i, e.began = some i → phase (before.foldl next s) ≠ phase e.state
  constant : ∀ part, part <+: e.since → phase ((before ++ e.began.toList ++ part).foldl next s) = phase e.state

theorem afterMarks (s : σ) (inputs : List ι) :
    ∃ before, Marks next phase s inputs before (after next phase s inputs) := by
  induction inputs using List.reverseRecOn with
  | nil =>
    refine ⟨[], ⟨rfl, fun _ => rfl, fun _ began => (nomatch began), fun part prefix_ => ?_⟩⟩
    rw [List.prefix_nil.mp prefix_]
    rfl
  | append_singleton inputs i ih =>
    have state : (after next phase s inputs).state = inputs.foldl next s := afterState s inputs
    have stepped : (inputs ++ [i]).foldl next s = next (inputs.foldl next s) i := by
      rw [List.foldl_append, List.foldl_cons, List.foldl_nil]
    obtain ⟨before, whole, first, change, constant⟩ := ih
    rw [afterConcat]
    generalize after next phase s inputs = e at *
    by_cases same : phase (next e.state i) = phase e.state
    · rw [watchSame same]
      refine ⟨before, ⟨by rw [← whole, List.append_assoc _ e.since], first,
        fun j began => same ▸ change j began, fun part prefix_ => ?_⟩⟩
      rcases List.prefix_concat_iff.mp prefix_ with all | inside
      · rw [all, ← List.append_assoc, whole, stepped, state]
      · exact (constant part inside).trans same.symm
    · rw [watchChange same]
      refine ⟨inputs, ⟨by simp, fun none_ => (nomatch none_), fun _ _ => ?_, fun part prefix_ => ?_⟩⟩
      · rw [← state]
        exact Ne.symm same
      · rw [List.prefix_nil.mp prefix_, List.append_nil, Option.toList_some, stepped, state]

end Episode
end ArosKernel
