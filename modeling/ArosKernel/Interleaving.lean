import ArosKernel.Transition
import Mathlib.Data.List.Induction

/-! Parties that work on one shared state in sections. A section reads the state as it is
and says which acts follow; sections of others run between those of a party. The log keeps
every act with its author, and the state is the replay of the log. -/
namespace ArosKernel.Interleaving
open Transition

structure System (σ α φ ι : Type) where
  perform : σ → α → σ
  advance : ι → σ → φ → Option (φ × List α)
  outside : α → Bool
  fresh : φ → Bool

structure World (σ α φ : Type) where
  shared : σ
  parties : List φ
  log : List (Option Nat × α)

inductive Move (α φ ι : Type) where
  | outside (act : α)
  | enter (party : φ)
  | advance (party : Nat) (choice : ι)

variable {σ α φ ι : Type}

def World.start (s : σ) : World σ α φ := ⟨s, [], []⟩

def own (i : Nat) (log : List (Option Nat × α)) : List α := (log.filter (fun e => e.1 = some i)).map Prod.snd

theorem ownConcat (i : Nat) (first second : List (Option Nat × α)) :
    own i (first ++ second) = own i first ++ own i second := by
  rw [own, List.filter_append, List.map_append, own, own]

theorem ownSelf (i : Nat) (acts : List α) : own i (acts.map (fun a => (some i, a))) = acts := by
  rw [own, List.filter_eq_self.mpr (by simp), List.map_map]
  exact List.map_id acts

theorem ownOther {i : Nat} {log : List (Option Nat × α)} (others : ∀ e ∈ log, e.1 ≠ some i) : own i log = [] := by
  rw [own, List.filter_eq_nil_iff.mpr (fun e member => by simpa using others e member), List.map_nil]

namespace System
variable (S : System σ α φ ι)

def replay (s : σ) (log : List (Option Nat × α)) : σ := log.foldl (fun s e => S.perform s e.2) s

def step (w : World σ α φ) : Move α φ ι → Option (World σ α φ)
  | .outside act =>
    if S.outside act then some { w with shared := S.perform w.shared act, log := w.log ++ [(none, act)] } else none
  | .enter party => if S.fresh party then some { w with parties := w.parties ++ [party] } else none
  | .advance i choice => do
    let party ← w.parties[i]?
    let (party', acts) ← S.advance choice w.shared party
    some ⟨acts.foldl S.perform w.shared, w.parties.set i party', w.log ++ acts.map (fun a => (some i, a))⟩

/- What one section has to keep, so that every run keeps it: a property of each party with
its own acts, and one of the shared state with the log. -/
structure Keeps (Mine : φ → List α → Prop) (Ours : σ → List (Option Nat × α) → Prop) : Prop where
  enter : ∀ party, S.fresh party = true → Mine party []
  outside : ∀ s log act, Ours s log → S.outside act = true → Ours (S.perform s act) (log ++ [(none, act)])
  mine : ∀ choice s party party' acts before, Mine party before → S.advance choice s party = some (party', acts) →
    Mine party' (before ++ acts)
  ours : ∀ choice s log party party' acts before i, Ours s log → Mine party before →
    S.advance choice s party = some (party', acts) →
    Ours (acts.foldl S.perform s) (log ++ acts.map (fun a => (some i, a)))

structure Sound (Mine : φ → List α → Prop) (Ours : σ → List (Option Nat × α) → Prop) (start : σ) (w : World σ α φ) :
    Prop where
  replays : w.shared = S.replay start w.log
  authors : ∀ e ∈ w.log, ∀ i, e.1 = some i → i < w.parties.length
  mine : ∀ i party, w.parties[i]? = some party → Mine party (own i w.log)
  ours : Ours w.shared w.log

variable {S} {Mine : φ → List α → Prop} {Ours : σ → List (Option Nat × α) → Prop}

theorem replayConcat (s : σ) (first second : List (Option Nat × α)) :
    S.replay s (first ++ second) = S.replay (S.replay s first) second := List.foldl_append ..

theorem replayActs (s : σ) (i : Nat) (acts : List α) :
    S.replay s (acts.map (fun a => (some i, a))) = acts.foldl S.perform s := List.foldl_map ..

theorem Keeps.start (s : σ) (initial : Ours s []) : S.Sound Mine Ours s (World.start s) :=
  ⟨rfl, by simp [World.start], by simp [World.start], initial⟩

theorem Keeps.outsideStep (keeps : S.Keeps Mine Ours) {start : σ} {w : World σ α φ} (sound : S.Sound Mine Ours start w)
    {act : α} (allowed : S.outside act = true) :
    S.Sound Mine Ours start { w with shared := S.perform w.shared act, log := w.log ++ [(none, act)] } := by
  obtain ⟨replays, authors, mine, ours⟩ := sound
  refine ⟨?_, fun e member i author => ?_, fun i party at_ => ?_, keeps.outside _ _ _ ours allowed⟩
  · rw [replayConcat, ← replays]
    rfl
  · rcases List.mem_append.mp member with old | new
    · exact authors e old i author
    · rw [List.mem_singleton.mp new] at author
      cases author
  · have others : own i [(none, act)] = [] := ownOther (by simp)
    rw [ownConcat, others, List.append_nil]
    exact mine i party at_

theorem Keeps.enterStep (keeps : S.Keeps Mine Ours) {start : σ} {w : World σ α φ} (sound : S.Sound Mine Ours start w)
    {party : φ} (fresh : S.fresh party = true) :
    S.Sound Mine Ours start { w with parties := w.parties ++ [party] } := by
  obtain ⟨replays, authors, mine, ours⟩ := sound
  refine ⟨replays, fun e member i author => ?_, fun i q at_ => ?_, ours⟩
  · rw [List.length_append]
    exact Nat.lt_add_right _ (authors e member i author)
  · by_cases old : i < w.parties.length
    · rw [List.getElem?_append_left old] at at_
      exact mine i q at_
    · have silent : own i w.log = [] := ownOther (fun e member author => old (authors e member i author))
      rw [List.getElem?_append_right (Nat.not_lt.mp old), List.getElem?_singleton] at at_
      split at at_
      · cases at_
        rw [silent]
        exact keeps.enter party fresh
      · contradiction

theorem Keeps.advanceStep (keeps : S.Keeps Mine Ours) {start : σ} {w : World σ α φ} (sound : S.Sound Mine Ours start w)
    {i : Nat} {choice : ι} {party party' : φ} {acts : List α} (here : w.parties[i]? = some party)
    (advanced : S.advance choice w.shared party = some (party', acts)) :
    S.Sound Mine Ours start
      ⟨acts.foldl S.perform w.shared, w.parties.set i party', w.log ++ acts.map (fun a => (some i, a))⟩ := by
  obtain ⟨replays, authors, mine, ours⟩ := sound
  have before := mine i party here
  refine ⟨?_, fun e member j author => ?_, fun j q at_ => ?_, keeps.ours _ _ _ _ _ _ _ i ours before advanced⟩
  · rw [replayConcat, ← replays, replayActs]
  · rw [List.length_set]
    rcases List.mem_append.mp member with old | new
    · exact authors e old j author
    · obtain ⟨a, _, same⟩ := List.mem_map.mp new
      rw [← same] at author
      cases author
      exact (List.getElem?_eq_some_iff.mp here).1
  · rw [ownConcat]
    by_cases mover : j = i
    · subst j
      rw [List.getElem?_set_self (List.getElem?_eq_some_iff.mp here).1] at at_
      cases at_
      rw [ownSelf]
      exact keeps.mine _ _ _ _ _ _ before advanced
    · rw [List.getElem?_set_ne (fun same => mover same.symm)] at at_
      have others : own j (acts.map (fun a => (some i, a))) = [] := by
        refine ownOther (fun e member author => ?_)
        obtain ⟨a, _, same⟩ := List.mem_map.mp member
        rw [← same] at author
        exact mover (Option.some.inj author).symm
      rw [others, List.append_nil]
      exact mine j q at_

theorem Keeps.step (keeps : S.Keeps Mine Ours) (start : σ) (w : World σ α φ) (move : Move α φ ι) (w' : World σ α φ)
    (sound : S.Sound Mine Ours start w) (next : S.step w move = some w') : S.Sound Mine Ours start w' := by
  cases move with
  | outside act =>
    simp only [System.step, Option.ite_none_right_eq_some, Option.some.injEq] at next
    obtain ⟨allowed, same⟩ := next
    exact same ▸ keeps.outsideStep sound allowed
  | enter party =>
    simp only [System.step, Option.ite_none_right_eq_some, Option.some.injEq] at next
    obtain ⟨fresh, same⟩ := next
    exact same ▸ keeps.enterStep sound fresh
  | advance i choice =>
    simp only [System.step, Option.bind_eq_bind, Option.bind_eq_some_iff, Prod.exists, Option.some.injEq] at next
    obtain ⟨party, here, party', acts, advanced, same⟩ := next
    exact same ▸ keeps.advanceStep sound here advanced

/- A note on each party that says where in the log it acted. Nothing that follows takes it back. -/
structure Notes (Mine : φ → List α → Prop) (Ours : σ → List (Option Nat × α) → Prop)
    (Note : Nat → φ → List (Option Nat × α) → Prop) : Prop where
  enter : ∀ i party log, S.fresh party = true → Note i party log
  later : ∀ i party log more, Note i party log → Note i party (log ++ more)
  advance : ∀ choice s log party party' acts before i, Ours s log → Mine party before → Note i party log →
    S.advance choice s party = some (party', acts) → Note i party' (log ++ acts.map (fun a => (some i, a)))

theorem Notes.step {Note : Nat → φ → List (Option Nat × α) → Prop} (notes : S.Notes Mine Ours Note) {start : σ}
    {w w' : World σ α φ} (sound : S.Sound Mine Ours start w) {move : Move α φ ι} (next : S.step w move = some w')
    (noted : ∀ i party, w.parties[i]? = some party → Note i party w.log) :
    ∀ i party, w'.parties[i]? = some party → Note i party w'.log := by
  intro i party at_
  cases move with
  | outside act =>
    simp only [System.step, Option.ite_none_right_eq_some, Option.some.injEq] at next
    rw [← next.2] at at_ ⊢
    exact notes.later i party _ _ (noted i party at_)
  | enter fresh =>
    simp only [System.step, Option.ite_none_right_eq_some, Option.some.injEq] at next
    obtain ⟨fine, same⟩ := next
    rw [← same] at at_ ⊢
    by_cases old : i < w.parties.length
    · rw [List.getElem?_append_left old] at at_
      exact noted i party at_
    · rw [List.getElem?_append_right (Nat.not_lt.mp old), List.getElem?_singleton] at at_
      split at at_
      · cases at_
        exact notes.enter i _ _ fine
      · contradiction
  | advance j choice =>
    simp only [System.step, Option.bind_eq_bind, Option.bind_eq_some_iff, Prod.exists, Option.some.injEq] at next
    obtain ⟨mover, here, mover', acts, advanced, same⟩ := next
    rw [← same] at at_ ⊢
    by_cases moved : j = i
    · subst moved
      rw [List.getElem?_set_self (List.getElem?_eq_some_iff.mp here).1] at at_
      cases at_
      exact notes.advance choice _ _ _ _ _ _ j sound.ours (sound.mine j mover here) (noted j mover here) advanced
    · rw [List.getElem?_set_ne moved] at at_
      exact notes.later i party _ _ (noted i party at_)

theorem Notes.reachable {Note : Nat → φ → List (Option Nat × α) → Prop} (notes : S.Notes Mine Ours Note)
    (keeps : S.Keeps Mine Ours) {s : σ} (initial : Ours s []) {w : World σ α φ}
    (reached : Reachable S.step (World.start s) w) : ∀ i party, w.parties[i]? = some party → Note i party w.log := by
  have kept : ∀ v move v', (S.Sound Mine Ours s v ∧ ∀ i party, v.parties[i]? = some party → Note i party v.log) →
      S.step v move = some v' → S.Sound Mine Ours s v' ∧ ∀ i party, v'.parties[i]? = some party → Note i party v'.log :=
    fun v move v' holds next => ⟨keeps.step s v move v' holds.1 next, notes.step holds.1 next holds.2⟩
  have nobody : ∀ (i : Nat) party, (World.start s : World σ α φ).parties[i]? = some party → Note i party [] := by
    simp [World.start]
  exact (reachableInvariant kept ⟨Keeps.start s initial, nobody⟩ reached).2

inductive Moved (w w' : World σ α φ) (move : Move α φ ι) (i : Nat) (party' : φ) : Prop where
  | entered (fresh : S.fresh party' = true) (silent : own i w'.log = [])
  | kept (before : w.parties[i]? = some party') (log : own i w'.log = own i w.log)
  | advanced {party : φ} {choice : ι} {acts : List α} (by_ : move = .advance i choice) (before : w.parties[i]? = some party)
      (next : S.advance choice w.shared party = some (party', acts)) (log : own i w'.log = own i w.log ++ acts)

theorem stepMoved {w w' : World σ α φ} (authors : ∀ e ∈ w.log, ∀ i, e.1 = some i → i < w.parties.length)
    {move : Move α φ ι} (next : S.step w move = some w') {i : Nat} {party' : φ} (at_ : w'.parties[i]? = some party') :
    S.Moved w w' move i party' := by
  cases move with
  | outside act =>
    simp only [System.step, Option.ite_none_right_eq_some, Option.some.injEq] at next
    rw [← next.2] at at_ ⊢
    have others : own i [(none, act)] = [] := ownOther (by simp)
    refine .kept at_ ?_
    rw [ownConcat, others, List.append_nil]
  | enter fresh =>
    simp only [System.step, Option.ite_none_right_eq_some, Option.some.injEq] at next
    obtain ⟨fine, same⟩ := next
    rw [← same] at at_ ⊢
    by_cases old : i < w.parties.length
    · rw [List.getElem?_append_left old] at at_
      exact .kept at_ rfl
    · rw [List.getElem?_append_right (Nat.not_lt.mp old), List.getElem?_singleton] at at_
      split at at_
      · cases at_
        exact .entered fine (ownOther (fun e member author => old (authors e member i author)))
      · contradiction
  | advance j choice =>
    simp only [System.step, Option.bind_eq_bind, Option.bind_eq_some_iff, Prod.exists, Option.some.injEq] at next
    obtain ⟨mover, here, mover', acts, advanced, same⟩ := next
    rw [← same] at at_ ⊢
    by_cases moved : j = i
    · subst moved
      rw [List.getElem?_set_self (List.getElem?_eq_some_iff.mp here).1] at at_
      cases at_
      refine .advanced rfl here advanced ?_
      rw [ownConcat, ownSelf]
    · rw [List.getElem?_set_ne moved] at at_
      refine .kept at_ ?_
      have others : own i (acts.map (fun a => (some j, a))) = [] := by
        refine ownOther (fun e member author => ?_)
        obtain ⟨a, _, same⟩ := List.mem_map.mp member
        rw [← same] at author
        exact moved (Option.some.inj author)
      rw [ownConcat, others, List.append_nil]

theorem Keeps.reachable (keeps : S.Keeps Mine Ours) {s : σ} (initial : Ours s []) {w : World σ α φ}
    (reached : Reachable S.step (World.start s) w) : S.Sound Mine Ours s w :=
  reachableInvariant (keeps.step s) (Keeps.start s initial) reached

end System

theorem countAuthors {p : φ → Bool} {q : α → Bool} {parties : List φ} {log : List (Option Nat × α)}
    (acted : ∀ i party, parties[i]? = some party → p party = true → ∃ a ∈ own i log, q a = true) :
    parties.countP p ≤ log.countP (fun e => q e.2) := by
  induction parties using List.reverseRecOn generalizing log with
  | nil => simp
  | append_singleton rest party ih =>
    let last (e : Option Nat × α) : Bool := e.1 = some rest.length
    have earlier : rest.countP p ≤ (log.filter (fun e => !last e)).countP (fun e => q e.2) := by
      refine ih (fun i f at_ holds => ?_)
      have lt := (List.getElem?_eq_some_iff.mp at_).1
      obtain ⟨a, member, kind⟩ := acted i f (by rw [List.getElem?_append_left lt]; exact at_) holds
      obtain ⟨e, listed, same⟩ := List.mem_map.mp member
      obtain ⟨inside, author⟩ := List.mem_filter.mp listed
      refine ⟨a, List.mem_map.mpr ⟨e, List.mem_filter.mpr ⟨List.mem_filter.mpr ⟨inside, ?_⟩, author⟩, same⟩, kind⟩
      have other : rest.length ≠ i := by omega
      simp only [decide_eq_true_eq] at author
      simp [last, author, other.symm]
    have latest : [party].countP p ≤ (log.filter last).countP (fun e => q e.2) := by
      by_cases holds : p party = true
      · obtain ⟨a, member, kind⟩ := acted rest.length party (by simp) holds
        obtain ⟨e, listed, same⟩ := List.mem_map.mp member
        have positive : 0 < (log.filter last).countP (fun e => q e.2) :=
          List.countP_pos_iff.mpr ⟨e, listed, same ▸ kind⟩
        exact Nat.le_trans List.countP_le_length positive
      · rw [List.countP_singleton, if_neg holds]
        exact Nat.zero_le _
    rw [List.countP_append, List.countP_eq_countP_filter_add log (fun e => q e.2) last]
    omega

end ArosKernel.Interleaving
