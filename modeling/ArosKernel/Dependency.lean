import Mathlib.Order.WellFoundedSet
import Mathlib.Logic.Relation

/-! What a dependency graph owes to its tasks. A vertex succeeds when it and all
it transitively needs are present and good; a scheduler that settles a vertex as
soon as its needs are met computes exactly this, on an acyclic finite graph. -/
namespace ArosKernel.Dependency
open Relation
variable {α : Type}

theorem wellFoundedOfAcyclic {R : α → α → Prop} {S : Finset α} (inside : ∀ a b, R a b → a ∈ S ∧ b ∈ S)
    (acyclic : ∀ a, ¬ TransGen R a a) : WellFounded (fun b a => R a b) := by
  have strict : IsStrictOrder α (fun b a => TransGen R a b) :=
    { irrefl := acyclic, trans := fun _ _ _ first second => second.trans first }
  have founded : (S : Set α).WellFoundedOn (fun b a => TransGen R a b) := S.finite_toSet.wellFoundedOn
  refine ⟨fun a => ?_⟩
  by_cases member : a ∈ S
  · refine founded.induction member (P := Acc (fun b a => R a b)) (fun a _ ih => ⟨a, fun b edge => ?_⟩)
    exact ih b (inside a b edge).2 (.single edge)
  · exact ⟨a, fun b edge => absurd (inside a b edge).1 member⟩

variable (needs : α → α → Prop) (good : α → Prop)

def Succeeds (a : α) : Prop := ∀ b, ReflTransGen needs a b → good b

def NeedsMet (a : α) : Prop := ∀ b, TransGen needs a b → good b

variable {needs good}

theorem needsMetIff {a : α} : NeedsMet needs good a ↔ ∀ b, needs a b → Succeeds needs good b := by
  constructor
  · intro met b edge c path
    exact met c (TransGen.head' edge path)
  · intro each c path
    obtain ⟨b, edge, rest⟩ := TransGen.head'_iff.mp path
    exact each b edge c rest

theorem succeedsIff {a : α} : Succeeds needs good a ↔ good a ∧ NeedsMet needs good a := by
  constructor
  · intro all
    exact ⟨all a .refl, fun b path => all b path.to_reflTransGen⟩
  · intro ⟨self, met⟩ b path
    rcases reflTransGen_iff_eq_or_transGen.mp path with same | path
    · exact same ▸ self
    · exact met b path

/- Soundness needs no order: a settled vertex hands its obligation on to its needs. -/
theorem settledSucceeds {settled : α → Prop}
    (sound : ∀ a, settled a → good a ∧ ∀ b, needs a b → settled b) {a : α} (here : settled a) :
    Succeeds needs good a := by
  intro b path
  have there : settled b := by
    induction path with
    | refl => exact here
    | tail _ edge ih => exact (sound _ ih).2 _ edge
  exact (sound b there).1

theorem succeedsSettled {settled : α → Prop} (founded : WellFounded (fun b a => needs a b ∧ good b))
    (complete : ∀ a, good a → (∀ b, needs a b → settled b) → settled a) {a : α}
    (succeeds : Succeeds needs good a) : settled a := by
  induction a using founded.induction with
  | h a ih =>
    obtain ⟨self, met⟩ := succeedsIff.mp succeeds
    refine complete a self (fun b edge => ?_)
    have later := needsMetIff.mp met b edge
    exact ih b ⟨edge, (succeedsIff.mp later).1⟩ later

end ArosKernel.Dependency
