import ArosKernel.Acl
import ArosKernel.Handler

/-! What the handler persists of a completed meta cycle, and the keys it uses, against
the guards over the same store. `Display` of a float is the parameter `display`. -/
namespace ArosKernel.Supervisor
open Store Unwinding

def errorInternal : Int32 := -32603

structure MetaCycle where
  cycleId : String
  policyChanged : Bool
  driftScore : F64

def lastDrift : String := "sie/identity/last_drift"
def lastCycle : String := "sie/meta/last_cycle"
def policyHead : String := "sie/policy/head"

def sieKeys : List String := [lastDrift, lastCycle, policyHead]

def writeFailed (e : StoreError) : Failure := (errorInternal, s!"state store write failed: {e.text}")

namespace MetaCycle

def persisted (c : MetaCycle) : Value :=
  .object [("status", .string "persisted"), ("cycle_id", .string c.cycleId), ("drift_score", .ofF64 c.driftScore),
    ("policy_updated", .bool c.policyChanged)]

def persist {S : Type} [StateStore S] (display : F64 → String) (store : S) (c : MetaCycle) : Except Failure Value × S :=
  match StateStore.put store lastDrift (display c.driftScore).toUTF8 with
  | (.error e, store) => (.error (writeFailed e), store)
  | (.ok (), store) =>
    match StateStore.put store lastCycle c.cycleId.toUTF8 with
    | (.error e, store) => (.error (writeFailed e), store)
    | (.ok (), store) =>
      if c.policyChanged then
        match StateStore.put store policyHead c.cycleId.toUTF8 with
        | (.error e, store) => (.error (writeFailed e), store)
        | (.ok (), store) => (.ok c.persisted, store)
      else (.ok c.persisted, store)

def writes (display : F64 → String) (c : MetaCycle) : List Write :=
  [(lastDrift, (display c.driftScore).toUTF8), (lastCycle, c.cycleId.toUTF8)] ++
    if c.policyChanged then [(policyHead, c.cycleId.toUTF8)] else []

def answer (c : MetaCycle) : Written → Except Failure Value
  | .ok () => .ok c.persisted
  | .error e => .error (writeFailed e)

variable {display : F64 → String}

theorem persistPutAll {S : Type} [StateStore S] (store : S) (c : MetaCycle) :
    persist display store c = (c.answer (putAll store (c.writes display)).1, (putAll store (c.writes display)).2) := by
  unfold persist writes
  simp only [List.cons_append, List.nil_append, putAll]
  rcases StateStore.put store lastDrift (display c.driftScore).toUTF8 with ⟨_ | _, store⟩
  · rfl
  · dsimp only
    rcases StateStore.put store lastCycle c.cycleId.toUTF8 with ⟨_ | _, store⟩
    · rfl
    · cases c.policyChanged
      · rfl
      · simp only [if_true, putAll]
        rcases StateStore.put store policyHead c.cycleId.toUTF8 with ⟨_ | _, store⟩ <;> rfl

theorem writesOnce (c : MetaCycle) : ((c.writes display).map Prod.fst).Nodup := by
  unfold writes
  cases c.policyChanged
  · exact (by decide : [lastDrift, lastCycle].Nodup)
  · exact (by decide : [lastDrift, lastCycle, policyHead].Nodup)

end MetaCycle

inductive Writer where
  | cycle (faults : List (Option StoreError)) (c : MetaCycle)
  | guarded (c : GuardCall)

def Writer.isGuarded : Writer → Bool
  | .cycle .. => false
  | .guarded _ => true

def share (display : F64 → String) (s : Entries) : Writer → Unit × Entries
  | .cycle faults c => ((), (c.persist display (⟨s, faults⟩ : FallibleStore)).2.entries)
  | .guarded c => ((), (call s c).2)

def HandlerOwned (display : F64 → String) (s : Entries) (writers : List Writer) : Prop :=
  ∀ earlier, earlier <+: writers → ∀ key ∈ sieKeys, Finmap.lookup key (final (share display) s earlier) =
    Finmap.lookup key (final (share display) s (earlier.filter (fun w => !w.isGuarded)))

-- A call that names none of the three keys, or restates what is there.
def Restates (s : Entries) (c : GuardCall) : Prop := c.op.key ∈ sieKeys → c.op.change s = s

theorem sieUnprotected : ∀ key ∈ sieKeys, (∀ identity, mayWrite identity key = true) ∧ isAppendOnly key = false := by
  intro key member
  simp only [sieKeys, List.mem_cons, List.not_mem_nil, or_false] at member
  rcases member with same | same | same <;> subst same <;>
    exact ⟨fun identity => by cases identity <;> decide, by decide⟩

theorem sieAccepted (s : Entries) {c : GuardCall} (named : c.op.key ∈ sieKeys) : call s c = (.ok (), c.op.change s) := by
  obtain ⟨allowed, append⟩ := sieUnprotected c.op.key named
  rw [callCheck, checkOk.mpr ⟨allowed c.identity, fun only => by rw [append] at only; contradiction⟩]

variable {display : F64 → String}

theorem cycleKeeps (faults : List (Option StoreError)) (c : MetaCycle) {s t : Entries} {key : String}
    (same : Finmap.lookup key s = Finmap.lookup key t) :
    Finmap.lookup key (share display s (.cycle faults c)).2 = Finmap.lookup key (share display t (.cycle faults c)).2 := by
  simp only [share, MetaCycle.persistPutAll, (FallibleStore.putAllApplied _ _).1]
  exact insertAllCongr _ same

theorem restatesKeeps {s : Entries} {c : GuardCall} (restates : Restates s c) {key : String} (member : key ∈ sieKeys) :
    Finmap.lookup key (share display s (.guarded c)).2 = Finmap.lookup key s := by
  by_cases here : c.op.key = key
  · have named : c.op.key ∈ sieKeys := here ▸ member
    rw [share, sieAccepted s named]
    exact congrArg (Finmap.lookup key) (restates named)
  · exact callElsewhere s (.inl here)

theorem handlerOwnedIffRestates (s : Entries) (writers : List Writer) : HandlerOwned display s writers ↔
    ∀ earlier c, earlier ++ [.guarded c] <+: writers → Restates (final (share display) s earlier) c := by
  constructor
  · intro owned earlier c inside named
    have before := owned earlier ((List.prefix_append _ _).trans inside)
    have after := owned _ inside
    refine Finmap.ext_lookup (fun key => ?_)
    by_cases member : key ∈ sieKeys
    · have purged : (earlier ++ [Writer.guarded c]).filter (fun w => !w.isGuarded) =
          earlier.filter (fun w => !w.isGuarded) := by simp [Writer.isGuarded]
      have last := after key member
      rw [purged, ← before key member, finalAppend] at last
      have accepted := congrArg Prod.snd (sieAccepted (final (share display) s earlier) named)
      rw [← last]
      exact congrArg (Finmap.lookup key) accepted.symm
    · exact changeElsewhere c.op _ (fun same => member (same ▸ named))
  · intro restates earlier inside key member
    induction earlier using List.reverseRecOn with
    | nil => rfl
    | append_singleton earlier w ih =>
      have same := ih ((List.prefix_append _ _).trans inside)
      rw [List.filter_append, finalAppend, finalAppend]
      cases w with
      | cycle faults c => exact cycleKeeps faults c same
      | guarded c => exact (restatesKeeps (restates earlier c inside) member).trans same

def hijack : List Writer :=
  [.cycle [] ⟨"cycle-42", true, F64.zero⟩, .guarded ⟨.agenticLoop, .put "sie/policy/head" "cycle-0".toUTF8⟩,
    .guarded ⟨.modelAdapter, .delete "sie/identity/last_drift"⟩]

theorem policyHeadHijacked : ¬ HandlerOwned (fun _ => "0") ∅ hijack := by
  intro owned
  have same := owned hijack (List.prefix_refl hijack) policyHead (by decide)
  exact absurd same (by decide)

end ArosKernel.Supervisor
