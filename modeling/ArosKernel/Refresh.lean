import Mathlib.Data.List.Basic

/-! A cached value that many parties refresh from one source: each copies the source, works
the copy out and stores the result, and some read the cache back. Nothing orders the
stores, so an older copy may replace a newer one. -/
namespace ArosKernel.Refresh
variable {σ γ β : Type}

inductive Stage (γ : Type) where
  | entered
  | copied (version : Nat) (copy : γ)
  | stored
  | left

def Stage.version : Stage γ → Option Nat
  | .copied v _ => some v
  | _ => none

-- What was there when a party entered: the version of the source, and the copies not yet stored.
structure Party (γ : Type) where
  asks : Bool
  since : Nat
  older : List Nat
  stage : Stage γ

structure Reply (β : Type) where
  since : Nat
  older : List Nat
  version : Option Nat
  value : β
  deriving DecidableEq

structure World (σ γ β : Type) where
  source : σ
  versions : List σ
  cache : β
  version : Option Nat
  parties : List (Party γ)
  answers : List (Reply β)

def Allowed (since : Nat) (older : List Nat) (version : Nat) : Prop := since ≤ version ∨ version ∈ older

namespace World

def start (s : σ) (cache : β) : World σ γ β := ⟨s, [s], cache, none, [], []⟩

def now (w : World σ γ β) : Nat := w.versions.length - 1

def open_ (w : World σ γ β) : List Nat := w.parties.filterMap (fun p => p.stage.version)

def change (w : World σ γ β) (s : σ) : World σ γ β := { w with source := s, versions := w.versions ++ [s] }

def enter (w : World σ γ β) (asks : Bool) : World σ γ β :=
  { w with parties := w.parties ++ [⟨asks, w.now, w.open_, .entered⟩] }

def move (w : World σ γ β) (i : Nat) (party : Party γ) (stage : Stage γ) : World σ γ β :=
  { w with parties := w.parties.set i { party with stage } }

def copy (w : World σ γ β) (i : Nat) (work : σ → γ) : Option (World σ γ β) := do
  let party ← w.parties[i]?
  match party.stage with
  | .entered => some (w.move i party (.copied w.now (work w.source)))
  | _ => none

def store (w : World σ γ β) (i : Nat) (finish : γ → β) : Option (World σ γ β) := do
  let party ← w.parties[i]?
  match party.stage with
  | .copied v c => some { w.move i party (if party.asks then .stored else .left) with cache := finish c, version := some v }
  | _ => none

def read (w : World σ γ β) (i : Nat) : Option (World σ γ β) := do
  let party ← w.parties[i]?
  match party.stage with
  | .stored => some { w.move i party .left with answers := w.answers ++ [⟨party.since, party.older, w.version, w.cache⟩] }
  | _ => none

/- `Copies s c` and `Shows s b`: what a copy and a cached value of the source `s` may be. -/
variable (Copies : σ → γ → Prop) (Shows : σ → β → Prop)

structure Fits (w : World σ γ β) (p : Party γ) : Prop where
  since : p.since ≤ w.now
  allowed : ∀ v ∈ w.open_, Allowed p.since p.older v
  copied : ∀ v c, p.stage = .copied v c → p.since ≤ v ∧ ∃ s, w.versions[v]? = some s ∧ Copies s c
  waiting : p.stage = .stored → ∃ v, w.version = some v ∧ Allowed p.since p.older v

structure Backed (w : World σ γ β) (a : Reply β) : Prop where
  shown : ∃ v s, a.version = some v ∧ w.versions[v]? = some s ∧ Shows s a.value ∧ Allowed a.since a.older v

structure Sound (w : World σ γ β) : Prop where
  nonempty : w.versions ≠ []
  present : w.versions[w.now]? = some w.source
  parties : ∀ p ∈ w.parties, w.Fits Copies p
  cache : ∀ v, w.version = some v → ∃ s, w.versions[v]? = some s ∧ Shows s w.cache
  answers : ∀ a ∈ w.answers, w.Backed Shows a

variable {Copies Shows}

theorem startSound (s : σ) (cache : β) : Sound Copies Shows (start s cache) :=
  ⟨by simp [start], rfl, by simp [start], by simp [start], by simp [start]⟩

theorem openIff {w : World σ γ β} {v : Nat} : v ∈ w.open_ ↔ ∃ p ∈ w.parties, p.stage.version = some v := by
  rw [open_, List.mem_filterMap]

theorem keptVersion {w : World σ γ β} {v : Nat} {s : σ} (found : w.versions[v]? = some s) (new : σ) :
    (w.versions ++ [new])[v]? = some s := by
  obtain ⟨inside, _⟩ := List.getElem?_eq_some_iff.mp found
  rw [List.getElem?_append_left inside, found]

theorem Sound.change {w : World σ γ β} (sound : Sound Copies Shows w) (new : σ) : Sound Copies Shows (w.change new) := by
  have length : (w.change new).now = w.versions.length := by simp [now, World.change]
  have grown : w.now ≤ (w.change new).now := by
    rw [length]
    exact Nat.sub_le _ _
  refine ⟨by simp [World.change], ?_, fun p member => ?_, fun v made => ?_, fun a member => ?_⟩
  · rw [length]
    exact List.getElem?_concat_length
  · obtain ⟨since, allowed, copied, waiting⟩ := sound.parties p member
    refine ⟨Nat.le_trans since grown, allowed, fun v c stage => ?_, waiting⟩
    obtain ⟨after, s, found, copies⟩ := copied v c stage
    exact ⟨after, s, keptVersion found new, copies⟩
  · obtain ⟨s, found, shows_⟩ := sound.cache v made
    exact ⟨s, keptVersion found new, shows_⟩
  · obtain ⟨v, s, made, found, shows_, allowed⟩ := (sound.answers a member).shown
    exact ⟨v, s, made, keptVersion found new, shows_, allowed⟩

theorem Sound.enter {w : World σ γ β} (sound : Sound Copies Shows w) (asks : Bool) :
    Sound Copies Shows (w.enter asks) := by
  have same : (w.enter asks).open_ = w.open_ := by simp [open_, World.enter, Stage.version]
  refine ⟨sound.nonempty, sound.present, fun p member => ?_, sound.cache, fun a member => ⟨(sound.answers a member).shown⟩⟩
  rcases List.mem_append.mp member with old | new
  · obtain ⟨since, allowed, copied, waiting⟩ := sound.parties p old
    exact ⟨since, fun v open_ => allowed v (same ▸ open_), copied, waiting⟩
  · rw [List.mem_singleton.mp new]
    exact ⟨Nat.le_refl _, fun v open_ => .inr (same ▸ open_), fun v c stage => (nomatch stage), fun stage => (nomatch stage)⟩

theorem Sound.moved {w : World σ γ β} (sound : Sound Copies Shows w) {i : Nat} {party : Party γ}
    (at_ : w.parties[i]? = some party) {stage : Stage γ} (own : w.Fits Copies party → (w.move i party stage).Fits Copies { party with stage })
    (fresh : ∀ v, stage.version = some v → v = w.now) : Sound Copies Shows (w.move i party stage) := by
  refine ⟨sound.nonempty, sound.present, fun p member => ?_, sound.cache, fun a member => ⟨(sound.answers a member).shown⟩⟩
  rcases List.mem_or_eq_of_mem_set member with old | new
  · obtain ⟨since, allowed, copied, waiting⟩ := sound.parties p old
    refine ⟨since, fun v open_ => ?_, copied, waiting⟩
    obtain ⟨q, inside, holds⟩ := openIff.mp open_
    rcases List.mem_or_eq_of_mem_set inside with before | moved
    · exact allowed v (openIff.mpr ⟨q, before, holds⟩)
    · rw [moved] at holds
      exact .inl (Nat.le_trans since (Nat.le_of_eq (fresh v holds).symm))
  · exact new ▸ own (sound.parties party (List.mem_of_getElem? at_))

theorem openMoved {w : World σ γ β} {i : Nat} {party : Party γ} {stage : Stage γ} {v : Nat}
    (open_ : v ∈ (w.move i party stage).open_) : v ∈ w.open_ ∨ stage.version = some v := by
  obtain ⟨q, inside, holds⟩ := openIff.mp open_
  rcases List.mem_or_eq_of_mem_set inside with before | moved
  · exact .inl (openIff.mpr ⟨q, before, holds⟩)
  · rw [moved] at holds
    exact .inr holds

theorem Sound.copy {w t : World σ γ β} (sound : Sound Copies Shows w) {i : Nat} {work : σ → γ}
    (copies : Copies w.source (work w.source)) (next : w.copy i work = some t) : Sound Copies Shows t := by
  obtain ⟨party, at_, moved⟩ := Option.bind_eq_some_iff.mp next
  split at moved
  · cases moved
    refine sound.moved at_ (fun fits => ⟨fits.since, fun v open_ => ?_, fun v c stage => ?_, fun stage => (nomatch stage)⟩)
      (fun v made => (Option.some.inj made).symm)
    · rcases openMoved open_ with before | made
      · exact fits.allowed v before
      · exact .inl (Nat.le_trans fits.since (Nat.le_of_eq (Option.some.inj made)))
    · cases stage
      exact ⟨fits.since, w.source, sound.present, copies⟩
  · cases moved

theorem Sound.store {w t : World σ γ β} (sound : Sound Copies Shows w) {i : Nat} {finish : γ → β}
    (shows_ : ∀ s c, Copies s c → Shows s (finish c)) (next : w.store i finish = some t) : Sound Copies Shows t := by
  obtain ⟨party, at_, moved⟩ := Option.bind_eq_some_iff.mp next
  split at moved
  · rename_i v c stage
    cases moved
    have fits := sound.parties party (List.mem_of_getElem? at_)
    have inFlight : v ∈ w.open_ := openIff.mpr ⟨party, List.mem_of_getElem? at_, by rw [stage]; rfl⟩
    obtain ⟨after, s, found, copies⟩ := fits.copied v c stage
    have silent : (if party.asks then Stage.stored else Stage.left : Stage γ).version = none := by split <;> rfl
    refine ⟨sound.nonempty, sound.present, fun p member => ?_, fun u made => ?_, fun a member => ⟨(sound.answers a member).shown⟩⟩
    · rcases List.mem_or_eq_of_mem_set member with old | new
      · obtain ⟨since, allowed, copied, _⟩ := sound.parties p old
        refine ⟨since, fun u open_ => ?_, copied, fun _ => ⟨v, rfl, allowed v inFlight⟩⟩
        rcases openMoved open_ with before | made
        · exact allowed u before
        · rw [silent] at made
          cases made
      · subst new
        refine ⟨fits.since, fun u open_ => ?_, fun u d taken => ?_, fun _ => ⟨v, rfl, .inl after⟩⟩
        · rcases openMoved open_ with before | made
          · exact fits.allowed u before
          · rw [silent] at made
            cases made
        · dsimp only at taken
          split at taken <;> cases taken
    · cases made
      exact ⟨s, found, shows_ s c copies⟩
  · cases moved

theorem Sound.read {w t : World σ γ β} (sound : Sound Copies Shows w) {i : Nat} (next : w.read i = some t) :
    Sound Copies Shows t := by
  obtain ⟨party, at_, moved⟩ := Option.bind_eq_some_iff.mp next
  split at moved
  · rename_i stage
    cases moved
    have left : Sound Copies Shows (w.move i party .left) :=
      sound.moved at_ (fun fits => ⟨fits.since, fun v open_ => (openMoved open_).elim (fits.allowed v) (fun made => (nomatch made)),
        fun v c taken => (nomatch taken), fun taken => (nomatch taken)⟩) (fun v made => (nomatch made))
    refine ⟨left.nonempty, left.present, fun p member => ?_, left.cache, fun a member => ?_⟩
    · obtain ⟨since, allowed, copied, waiting⟩ := left.parties p member
      exact ⟨since, allowed, copied, waiting⟩
    · rcases List.mem_append.mp member with old | new
      · exact ⟨(sound.answers a old).shown⟩
      · rw [List.mem_singleton.mp new]
        obtain ⟨v, made, allowed⟩ := (sound.parties party (List.mem_of_getElem? at_)).waiting stage
        obtain ⟨s, found, shows_⟩ := sound.cache v made
        exact ⟨v, s, made, found, shows_, allowed⟩
  · cases moved

/-! From a version on, when nobody who came before it is still at work. -/

structure Late (b : Nat) (w : World σ γ β) : Prop where
  parties : ∀ p ∈ w.parties, p.stage = .left ∨ (b ≤ p.since ∧ ∀ v ∈ p.older, b ≤ v)
  answers : ∀ a ∈ w.answers, b ≤ a.since ∧ ∀ v ∈ a.older, b ≤ v

theorem Late.openLate {b : Nat} {w : World σ γ β} (late : Late b w) (sound : Sound Copies Shows w) {v : Nat}
    (open_ : v ∈ w.open_) : b ≤ v := by
  obtain ⟨p, member, version⟩ := openIff.mp open_
  cases stage : p.stage with
  | copied u c =>
    rw [stage] at version
    cases version
    rcases late.parties p member with left | ⟨since, _⟩
    · rw [stage] at left
      cases left
    · exact Nat.le_trans since ((sound.parties p member).copied _ c stage).1
  | entered => rw [stage] at version; cases version
  | stored => rw [stage] at version; cases version
  | left => rw [stage] at version; cases version

theorem Late.change {b : Nat} {w : World σ γ β} (late : Late b w) (s : σ) : Late b (w.change s) := ⟨late.parties, late.answers⟩

theorem Late.enter {b : Nat} {w : World σ γ β} (late : Late b w) (sound : Sound Copies Shows w) (there : b ≤ w.now) (asks : Bool) :
    Late b (w.enter asks) := by
  refine ⟨fun p member => ?_, late.answers⟩
  rcases List.mem_append.mp member with old | new
  · exact late.parties p old
  · rw [List.mem_singleton.mp new]
    exact .inr ⟨there, fun v open_ => late.openLate sound open_⟩

theorem Late.move {b : Nat} {w : World σ γ β} (late : Late b w) {i : Nat} {party : Party γ} (at_ : w.parties[i]? = some party)
    (busy : party.stage ≠ .left) (stage : Stage γ) : Late b (w.move i party stage) := by
  refine ⟨fun p member => ?_, late.answers⟩
  rcases List.mem_or_eq_of_mem_set member with old | new
  · exact late.parties p old
  · rw [new]
    exact .inr ((late.parties party (List.mem_of_getElem? at_)).resolve_left busy)

theorem Late.copy {b : Nat} {w t : World σ γ β} (late : Late b w) {i : Nat} {work : σ → γ} (next : w.copy i work = some t) :
    Late b t := by
  obtain ⟨party, at_, moved⟩ := Option.bind_eq_some_iff.mp next
  split at moved
  · rename_i stage
    cases moved
    exact late.move at_ (fun left => by rw [stage] at left; cases left) _
  · cases moved

theorem Late.store {b : Nat} {w t : World σ γ β} (late : Late b w) {i : Nat} {finish : γ → β} (next : w.store i finish = some t) :
    Late b t := by
  obtain ⟨party, at_, moved⟩ := Option.bind_eq_some_iff.mp next
  split at moved
  · rename_i stage
    cases moved
    have there := late.move at_ (fun left => by rw [stage] at left; cases left) (if party.asks then .stored else .left)
    exact ⟨there.parties, there.answers⟩
  · cases moved

theorem Late.read {b : Nat} {w t : World σ γ β} (late : Late b w) {i : Nat} (next : w.read i = some t) : Late b t := by
  obtain ⟨party, at_, moved⟩ := Option.bind_eq_some_iff.mp next
  split at moved
  · rename_i stage
    cases moved
    have busy : party.stage ≠ .left := fun left => by rw [stage] at left; cases left
    refine ⟨(late.move at_ busy .left).parties, fun a member => ?_⟩
    rcases List.mem_append.mp member with old | new
    · exact late.answers a old
    · rw [List.mem_singleton.mp new]
      exact (late.parties party (List.mem_of_getElem? at_)).resolve_left busy
  · cases moved

theorem Late.shown {b : Nat} {w : World σ γ β} (late : Late b w) {a : Reply β} (answered : a ∈ w.answers) {v : Nat}
    (allowed : Allowed a.since a.older v) : b ≤ v := by
  obtain ⟨since, older⟩ := late.answers a answered
  rcases allowed with after | before
  · exact Nat.le_trans since after
  · exact older v before

structure Alone (mine : Option Nat) (w : World σ γ β) : Prop where
  parties : ∀ i p, w.parties[i]? = some p → p.stage = .left ∨ (mine = some i ∧ p.asks = false ∧ p.stage ≠ .stored)
  answers : w.answers = []

theorem Alone.late {mine : Option Nat} {w : World σ γ β} (alone : Alone mine w)
    (done : ∀ i p, mine = some i → w.parties[i]? = some p → p.stage = .left) (b : Nat) : Late b w := by
  refine ⟨fun p member => .inl ?_, fun a member => by rw [alone.answers] at member; cases member⟩
  obtain ⟨i, at_⟩ := List.mem_iff_getElem?.mp member
  rcases alone.parties i p at_ with left | ⟨same, _⟩
  · exact left
  · exact done i p same at_

theorem Alone.change {mine : Option Nat} {w : World σ γ β} (alone : Alone mine w) (s : σ) : Alone mine (w.change s) :=
  ⟨alone.parties, alone.answers⟩

theorem Alone.enter {mine : Option Nat} {w : World σ γ β} (alone : Alone mine w)
    (done : ∀ i p, mine = some i → w.parties[i]? = some p → p.stage = .left) :
    Alone (some w.parties.length) (w.enter false) := by
  refine ⟨fun i p at_ => ?_, alone.answers⟩
  by_cases old : i < w.parties.length
  · rw [show (w.enter false).parties[i]? = w.parties[i]? from List.getElem?_append_left old] at at_
    rcases alone.parties i p at_ with left | ⟨same, _⟩
    · exact .inl left
    · exact .inl (done i p same at_)
  · rw [show (w.enter false).parties[i]? = _ from List.getElem?_append_right (Nat.not_lt.mp old), List.getElem?_singleton] at at_
    split at at_
    · rename_i last
      cases at_
      have here : i = w.parties.length := by omega
      exact .inr ⟨here ▸ rfl, rfl, fun stage => (nomatch stage)⟩
    · cases at_

theorem Alone.move {mine : Option Nat} {w : World σ γ β} (alone : Alone mine w) {i : Nat} {party : Party γ}
    (at_ : w.parties[i]? = some party) {stage : Stage γ} (quiet : party.asks = false → stage ≠ .stored)
    (busy : party.stage ≠ .left) : Alone mine (w.move i party stage) := by
  obtain ⟨same, silent, _⟩ := (alone.parties i party at_).resolve_left busy
  refine ⟨fun j p found => ?_, alone.answers⟩
  by_cases mover : j = i
  · subst mover
    rw [show (w.move j party stage).parties[j]? = _ from List.getElem?_set_self (List.getElem?_eq_some_iff.mp at_).1] at found
    cases found
    exact .inr ⟨same, silent, quiet silent⟩
  · rw [show (w.move i party stage).parties[j]? = _ from List.getElem?_set_ne (fun other => mover other.symm)] at found
    exact alone.parties j p found

theorem Alone.copy {mine : Option Nat} {w t : World σ γ β} (alone : Alone mine w) {i : Nat} {work : σ → γ}
    (next : w.copy i work = some t) : Alone mine t := by
  obtain ⟨party, at_, moved⟩ := Option.bind_eq_some_iff.mp next
  split at moved
  · rename_i stage
    cases moved
    exact alone.move at_ (fun _ stored => (nomatch stored)) (fun left => by rw [stage] at left; cases left)
  · cases moved

theorem Alone.store {mine : Option Nat} {w t : World σ γ β} (alone : Alone mine w) {i : Nat} {finish : γ → β}
    (next : w.store i finish = some t) : Alone mine t := by
  obtain ⟨party, at_, moved⟩ := Option.bind_eq_some_iff.mp next
  split at moved
  · rename_i stage
    cases moved
    have there : Alone mine (w.move i party (if party.asks then .stored else .left)) := by
      refine alone.move at_ (fun silent stored => ?_) (fun left => by rw [stage] at left; cases left)
      rw [silent] at stored
      cases stored
    exact ⟨there.parties, there.answers⟩
  · cases moved

theorem Alone.read {mine : Option Nat} {w : World σ γ β} (alone : Alone mine w) (i : Nat) : w.read i = none := by
  rw [World.read, Option.bind_eq_bind, Option.bind_eq_none_iff]
  intro party at_
  split
  · rename_i stage
    rcases alone.parties i party at_ with left | ⟨_, _, waiting⟩
    · rw [stage] at left
      cases left
    · exact absurd stage waiting
  · rfl

theorem movedHere {w : World σ γ β} {i : Nat} {party : Party γ} (at_ : w.parties[i]? = some party) (stage : Stage γ) :
    (w.move i party stage).parties[i]? = some { party with stage } :=
  List.getElem?_set_self (List.getElem?_eq_some_iff.mp at_).1

theorem copyPossible {w : World σ γ β} {i : Nat} {party : Party γ} (at_ : w.parties[i]? = some party)
    (stage : party.stage = .entered) (work : σ → γ) :
    ∃ t, w.copy i work = some t ∧ t.parties[i]? = some { party with stage := .copied w.now (work w.source) } := by
  refine ⟨w.move i party (.copied w.now (work w.source)), ?_, movedHere at_ _⟩
  simp only [copy, at_, Option.bind_eq_bind, Option.bind_some, stage]

theorem storePossible {w : World σ γ β} {i : Nat} {party : Party γ} (at_ : w.parties[i]? = some party) {v : Nat} {c : γ}
    (stage : party.stage = .copied v c) (finish : γ → β) :
    ∃ t, w.store i finish = some t ∧ t.parties[i]? = some { party with stage := if party.asks then .stored else .left } := by
  refine ⟨{ w.move i party (if party.asks then .stored else .left) with cache := finish c, version := some v }, ?_,
    movedHere at_ _⟩
  simp only [store, at_, Option.bind_eq_bind, Option.bind_some, stage]

theorem readPossible {w : World σ γ β} {i : Nat} {party : Party γ} (at_ : w.parties[i]? = some party)
    (stage : party.stage = .stored) : ∃ t, w.read i = some t ∧ t.parties[i]? = some { party with stage := .left } := by
  refine ⟨{ w.move i party .left with answers := w.answers ++ [⟨party.since, party.older, w.version, w.cache⟩] }, ?_,
    movedHere at_ _⟩
  simp only [read, at_, Option.bind_eq_bind, Option.bind_some, stage]

end World
end ArosKernel.Refresh
