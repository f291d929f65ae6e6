import Mathlib.Logic.Basic

/-! Deterministic machines over labelled inputs. A step that answers `none` is not
possible in that state, and a list of inputs is a run when every step is possible.
Nondeterminism (scheduling, clocks, map order) is part of the input. -/
namespace ArosKernel.Transition
variable {σ ι : Type} (step : σ → ι → Option σ)

def run : σ → List ι → Option σ
  | s, [] => some s
  | s, i :: rest => (step s i).bind (fun t => run t rest)

def Reachable (start s : σ) : Prop := ∃ inputs, run step start inputs = some s

def Always (P : σ → Prop) : σ → List ι → Prop
  | s, [] => P s
  | s, i :: rest => P s ∧ ∀ t ∈ step s i, Always P t rest

-- `C` holds between every state of the run and the input taken in it.
def Meets (C : σ → ι → Prop) : σ → List ι → Prop
  | _, [] => True
  | s, i :: rest => C s i ∧ ∀ t ∈ step s i, Meets C t rest

variable {step}

theorem runCons {s : σ} {i : ι} {rest : List ι} {last : σ} :
    run step s (i :: rest) = some last ↔ ∃ t, step s i = some t ∧ run step t rest = some last := by
  simp [run, Option.bind_eq_some_iff]

theorem reachableEnd {start : σ} {inputs : List ι} (possible : (run step start inputs).isSome) :
    Reachable step start ((run step start inputs).getD start) := by
  obtain ⟨s, ran⟩ := Option.isSome_iff_exists.mp possible
  exact ⟨inputs, by rw [ran]; rfl⟩

theorem reachableInvariant {Inv : σ → Prop} (kept : ∀ s i t, Inv s → step s i = some t → Inv t)
    {start s : σ} (initial : Inv start) (reached : Reachable step start s) : Inv s := by
  obtain ⟨inputs, ran⟩ := reached
  induction inputs generalizing start with
  | nil => cases ran; exact initial
  | cons i rest ih =>
    obtain ⟨t, next, ran⟩ := runCons.mp ran
    exact ih (kept start i t initial next) ran

theorem alwaysOfMeets {Inv P : σ → Prop} {C : σ → ι → Prop}
    (kept : ∀ s i t, Inv s → C s i → step s i = some t → Inv t) (enough : ∀ s, Inv s → P s)
    {s : σ} {inputs : List ι} (initial : Inv s) (meets : Meets step C s inputs) : Always step P s inputs := by
  induction inputs generalizing s with
  | nil => exact enough s initial
  | cons i rest ih =>
    refine ⟨enough s initial, fun t next => ?_⟩
    exact ih (kept s i t initial meets.1 next) (meets.2 t next)

theorem alwaysHead {P : σ → Prop} {s : σ} {inputs : List ι} (always : Always step P s inputs) : P s := by
  cases inputs with
  | nil => exact always
  | cons i rest => exact always.1

/- Where a step that breaks the condition shows at once, the condition is exact. -/
theorem alwaysIffMeets {Inv P : σ → Prop} {C : σ → ι → Prop}
    (kept : ∀ s i t, Inv s → C s i → step s i = some t → Inv t) (enough : ∀ s, Inv s → P s)
    (shows : ∀ s i, Inv s → (∀ t ∈ step s i, P t) → C s i) {s : σ} {inputs : List ι} (initial : Inv s) :
    Always step P s inputs ↔ Meets step C s inputs := by
  constructor
  · intro always
    induction inputs generalizing s with
    | nil => trivial
    | cons i rest ih =>
      have met := shows s i initial (fun t next => alwaysHead (always.2 t next))
      exact ⟨met, fun t next => ih (kept s i t initial met next) (always.2 t next)⟩
  · exact alwaysOfMeets kept enough initial

theorem runConcat (s : σ) (first second : List ι) :
    run step s (first ++ second) = (run step s first).bind (fun t => run step t second) := by
  induction first generalizing s with
  | nil => rfl
  | cons i rest ih => simp only [List.cons_append, run, ih, Option.bind_assoc]

/- One machine follows another: each step of the first is a run of the second, of any length. -/
theorem reachableSimulated {τ κ : Type} {other : τ → κ → Option τ} {Like : σ → τ → Prop}
    (follows : ∀ s i t a, Like s a → step s i = some t → ∃ inputs b, run other a inputs = some b ∧ Like t b)
    {start s : σ} {first : τ} (initial : Like start first) (reached : Reachable step start s) :
    ∃ a, Reachable other first a ∧ Like s a := by
  have kept : ∀ s i t, (∃ a, Reachable other first a ∧ Like s a) → step s i = some t →
      ∃ b, Reachable other first b ∧ Like t b := by
    intro s i t known next
    obtain ⟨a, ⟨before, ran⟩, like⟩ := known
    obtain ⟨inputs, b, more, like'⟩ := follows s i t a like next
    refine ⟨b, ⟨before ++ inputs, ?_⟩, like'⟩
    rw [runConcat, ran]
    exact more
  exact reachableInvariant kept ⟨first, ⟨[], rfl⟩, initial⟩ reached

theorem alwaysIff {P : σ → Prop} {s : σ} {inputs : List ι} :
    Always step P s inputs ↔ ∀ taken, taken <+: inputs → ∀ t, run step s taken = some t → P t := by
  induction inputs generalizing s with
  | nil =>
    constructor
    · intro here taken inside t ran
      rw [List.prefix_nil.mp inside] at ran
      cases ran
      exact here
    · exact fun all => all [] (List.prefix_refl []) s rfl
  | cons i rest ih =>
    constructor
    · intro always taken inside t ran
      cases taken with
      | nil =>
        cases ran
        exact always.1
      | cons j taken =>
        obtain ⟨same, later⟩ := List.cons_prefix_cons.mp inside
        subst same
        obtain ⟨u, next, ran⟩ := runCons.mp ran
        exact ih.mp (always.2 u next) taken later t ran
    · intro all
      refine ⟨all [] List.nil_prefix s rfl, fun u next => ih.mpr (fun taken inside t ran => ?_)⟩
      exact all (i :: taken) (List.cons_prefix_cons.mpr ⟨rfl, inside⟩) t (runCons.mpr ⟨u, next, ran⟩)

theorem meetsIff {C : σ → ι → Prop} {s : σ} {inputs : List ι} : Meets step C s inputs ↔
    ∀ taken i, taken ++ [i] <+: inputs → ∀ t, run step s taken = some t → C t i := by
  induction inputs generalizing s with
  | nil => exact iff_of_true trivial (fun taken i inside => by simp at inside)
  | cons i rest ih =>
    constructor
    · intro meets taken j inside t ran
      cases taken with
      | nil =>
        cases ran
        exact (List.cons_prefix_cons.mp inside).1 ▸ meets.1
      | cons k taken =>
        obtain ⟨same, later⟩ := List.cons_prefix_cons.mp inside
        subst same
        obtain ⟨u, next, ran⟩ := runCons.mp ran
        exact ih.mp (meets.2 u next) taken j later t ran
    · intro all
      refine ⟨all [] i (List.cons_prefix_cons.mpr ⟨rfl, List.nil_prefix⟩) s rfl,
        fun u next => ih.mpr (fun taken j inside t ran => ?_)⟩
      exact all (i :: taken) j (List.cons_prefix_cons.mpr ⟨rfl, inside⟩) t (runCons.mpr ⟨u, next, ran⟩)

theorem meetsConcat {C : σ → ι → Prop} {s : σ} {first second : List ι} (meets : Meets step C s first)
    (later : ∀ t, run step s first = some t → Meets step C t second) : Meets step C s (first ++ second) := by
  induction first generalizing s with
  | nil => exact later s rfl
  | cons i rest ih =>
    exact ⟨meets.1, fun u next => ih (meets.2 u next) (fun t ran => later t (runCons.mpr ⟨u, next, ran⟩))⟩

/-! A machine with the states it has gone through. What an input says of the past can be
asked of it. -/

structure Trail (σ : Type) where
  now : σ
  past : List σ

def Trail.states (t : Trail σ) : List σ := t.now :: t.past

def trailStep (step : σ → ι → Option σ) (Fair : Trail σ → ι → Prop) [∀ t i, Decidable (Fair t i)] (t : Trail σ)
    (i : ι) : Option (Trail σ) :=
  if Fair t i then (step t.now i).map (fun s => ⟨s, t.states⟩) else none

theorem trailStepSome {Fair : Trail σ → ι → Prop} [∀ t i, Decidable (Fair t i)] {t u : Trail σ} {i : ι}
    (next : trailStep step Fair t i = some u) : Fair t i ∧ step t.now i = some u.now ∧ u.past = t.states := by
  simp only [trailStep, Option.ite_none_right_eq_some, Option.map_eq_some_iff] at next
  obtain ⟨fair, s, moved, same⟩ := next
  subst same
  exact ⟨fair, moved, rfl⟩

theorem trailReachable {Fair : Trail σ → ι → Prop} [∀ t i, Decidable (Fair t i)] {start : σ} {t : Trail σ}
    (reached : Reachable (trailStep step Fair) ⟨start, []⟩ t) : Reachable step start t.now := by
  have follows : ∀ t i u, Reachable step start (Trail.now t) → trailStep step Fair t i = some u →
      Reachable step start u.now := by
    intro t i u ⟨inputs, ran⟩ next
    refine ⟨inputs ++ [i], ?_⟩
    rw [runConcat, ran]
    exact runCons.mpr ⟨u.now, (trailStepSome next).2.1, rfl⟩
  exact reachableInvariant follows ⟨[], rfl⟩ reached

instance decidableAlways {P : σ → Prop} [DecidablePred P] : (s : σ) → (inputs : List ι) →
    Decidable (Always step P s inputs)
  | s, [] => inferInstanceAs (Decidable (P s))
  | s, i :: rest =>
    match next : step s i with
    | none => decidable_of_iff (P s) (by simp [Always, next])
    | some t =>
      have : Decidable (Always step P t rest) := decidableAlways t rest
      decidable_of_iff (P s ∧ Always step P t rest) (by simp [Always, next])

instance decidableMeets {C : σ → ι → Prop} [∀ s i, Decidable (C s i)] : (s : σ) → (inputs : List ι) →
    Decidable (Meets step C s inputs)
  | _, [] => isTrue trivial
  | s, i :: rest =>
    match next : step s i with
    | none => decidable_of_iff (C s i) (by simp [Meets, next])
    | some t =>
      have : Decidable (Meets step C t rest) := decidableMeets t rest
      decidable_of_iff (C s i ∧ Meets step C t rest) (by simp [Meets, next])

end ArosKernel.Transition
