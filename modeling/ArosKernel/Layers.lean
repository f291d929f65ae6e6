import Mathlib.Data.Finset.Card
import Mathlib.Data.List.Chain
import Mathlib.Data.Nat.Find
import Mathlib.Logic.Relation

/-! Layers of a dependency relation. A vertex lies in the layer given by the longest
chain of needs that starts at it, and a scheduler that settles everything it can in
each round settles one layer a round. -/
namespace ArosKernel.Layers
open Relation
variable {α : Type} (needs : α → α → Prop)

structure ChainFrom (a : α) (chain : List α) : Prop where
  starts : chain.head? = some a
  linked : chain.IsChain needs

def Within (k : Nat) (a : α) : Prop := ∀ chain, ChainFrom needs a chain → chain.length ≤ k

structure LongestChain (a : α) (k : Nat) : Prop where
  reached : ∃ chain, ChainFrom needs a chain ∧ chain.length = k
  within : Within needs k a

structure LongestOf (S : α → Prop) (k : Nat) : Prop where
  reached : k = 0 ∨ ∃ a, S a ∧ LongestChain needs a k
  within : ∀ a, S a → Within needs k a

variable {needs}

theorem chainFromSelf (a : α) : ChainFrom needs a [a] := ⟨rfl, .singleton a⟩

theorem ChainFrom.cons {a b : α} {chain : List α} (tail : ChainFrom needs b chain) (edge : needs a b) :
    ChainFrom needs a (a :: chain) := by
  refine ⟨rfl, tail.linked.cons (fun c first => ?_)⟩
  rw [tail.starts] at first
  cases Option.mem_some_iff.mp first
  exact edge

theorem notWithinZero (a : α) : ¬ Within needs 0 a := fun within => absurd (within [a] (chainFromSelf a)) (by simp)

theorem withinSucc {k : Nat} {a : α} : Within needs (k + 1) a ↔ ∀ b, needs a b → Within needs k b := by
  constructor
  · intro within b edge chain tail
    have longer := within _ (tail.cons edge)
    rw [List.length_cons] at longer
    omega
  · intro each chain chained
    rcases chain with _ | ⟨c, _ | ⟨b, rest⟩⟩
    · simp
    · simp
    · cases Option.some.inj chained.starts
      have tail := each b (List.isChain_cons_cons.mp chained.linked).1 (b :: rest) ⟨rfl, chained.linked.tail⟩
      rw [List.length_cons]
      omega

theorem Within.mono {k m : Nat} {a : α} (within : Within needs k a) (most : k ≤ m) : Within needs m a :=
  fun chain chained => (within chain chained).trans most

theorem longestSucc {k : Nat} {a : α} : LongestChain needs a (k + 1) ↔ Within needs (k + 1) a ∧ ¬ Within needs k a := by
  constructor
  · intro ⟨⟨chain, chained, long⟩, within⟩
    refine ⟨within, fun less => ?_⟩
    have := less chain chained
    omega
  · intro ⟨within, more⟩
    unfold Within at more
    push Not at more
    obtain ⟨chain, chained, long⟩ := more
    have := within chain chained
    exact ⟨⟨chain, chained, by omega⟩, within⟩

theorem Within.ofEmptyLayer {S : α → Prop} (closed : ∀ a b, S a → needs a b → S b) {k : Nat}
    (empty : ∀ a, S a → ¬ LongestChain needs a (k + 1)) {m : Nat} {a : α} (member : S a)
    (within : Within needs (k + m) a) : Within needs k a := by
  induction m generalizing a with
  | zero => exact within
  | succ m ih =>
    have next : Within needs (k + 1) a :=
      withinSucc.mpr (fun b edge => ih (closed a b member edge) (withinSucc.mp within b edge))
    by_contra more
    exact empty a member (longestSucc.mpr ⟨next, more⟩)

theorem LongestOf.layer {S : α → Prop} (closed : ∀ a b, S a → needs a b → S b) {longest : Nat}
    (most : LongestOf needs S longest) {k : Nat} (below : k < longest) : ∃ a, S a ∧ LongestChain needs a (k + 1) := by
  by_contra none
  push Not at none
  rcases most.reached with zero | ⟨a, member, ⟨chain, chained, long⟩, within⟩
  · omega
  · obtain ⟨m, sum⟩ := Nat.le.dest below.le
    have less := Within.ofEmptyLayer closed none member (sum ▸ within) chain chained
    omega

theorem chainInside {S : Finset α} (inside : ∀ a b, a ∈ S → needs a b → b ∈ S) {chain : List α} {a : α}
    (member : a ∈ S) (chained : ChainFrom needs a chain) : ∀ c ∈ chain, c ∈ S := by
  induction chain generalizing a with
  | nil => simp
  | cons c rest ih =>
    cases Option.some.inj chained.starts
    refine List.forall_mem_cons.mpr ⟨member, ?_⟩
    cases rest with
    | nil => simp
    | cons d rest =>
      exact ih (inside c d member (List.isChain_cons_cons.mp chained.linked).1) ⟨rfl, chained.linked.tail⟩

theorem chainNodup (acyclic : ∀ a, ¬ TransGen needs a a) {chain : List α} (linked : chain.IsChain needs) :
    chain.Nodup := by
  have strict : chain.IsChain (TransGen needs) := linked.imp (fun _ _ edge => .single edge)
  refine (List.isChain_iff_pairwise.mp strict).imp (fun path same => ?_)
  subst same
  exact acyclic _ path

theorem longestExists {S : Finset α} (inside : ∀ a b, a ∈ S → needs a b → b ∈ S)
    (acyclic : ∀ a, ¬ TransGen needs a a) : ∃ longest, LongestOf needs (· ∈ S) longest := by
  classical
  have bounded : ∃ k, ∀ a, a ∈ S → Within needs k a := by
    refine ⟨S.card, fun a member chain chained => ?_⟩
    rw [← List.toFinset_card_of_nodup (chainNodup acyclic chained.linked)]
    exact Finset.card_le_card (fun c listed => chainInside inside member chained c (List.mem_toFinset.mp listed))
  refine ⟨Nat.find bounded, ?_, Nat.find_spec bounded⟩
  cases least : Nat.find bounded with
  | zero => exact .inl rfl
  | succ k =>
    have fewer := Nat.find_min bounded (m := k) (by omega)
    push Not at fewer
    obtain ⟨a, member, more⟩ := fewer
    have within := Nat.find_spec bounded a member
    rw [least] at within
    exact .inr ⟨a, member, longestSucc.mpr ⟨within, more⟩⟩

end ArosKernel.Layers
