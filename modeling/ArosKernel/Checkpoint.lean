import ArosKernel.SqliteStore
import ArosKernel.Transition

/-! When the store of `store/engine.rs` checkpoints its log: after enough writes, or
after enough time. Statements and the checkpoint succeed. -/
namespace ArosKernel.Store
open Transition

-- Readings of the clock in nanoseconds: for the elapsed time, and at the end of a checkpoint.
structure Clock where
  now : Nat
  checkpointed : Nat
  deriving DecidableEq, Repr

def Connection.put (conn : Connection) (key : String) (value : ByteArray) : Connection := ⟨conn.kvStore.insert key value⟩
def Connection.delete (conn : Connection) (key : String) : Connection := ⟨conn.kvStore.erase key⟩

namespace SqliteStateStore

def openWithPolicy (conn : Connection) (policy : CheckpointPolicy) (now : Nat) : SqliteStateStore :=
  { conn, policy, writeCount := 0, lastCheckpoint := now }

def checkpoint (store : SqliteStateStore) (now : Nat) : SqliteStateStore :=
  { store with writeCount := 0, lastCheckpoint := now }

def elapsedSecs (store : SqliteStateStore) (now : Nat) : Nat := (now - store.lastCheckpoint) / 1000000000

def Due (store : SqliteStateStore) (now : Nat) : Prop :=
  store.policy.writeThreshold ≤ store.writeCount ∨ store.policy.secondsThreshold.toNat ≤ store.elapsedSecs now

instance (store : SqliteStateStore) (now : Nat) : Decidable (store.Due now) := inferInstanceAs (Decidable (_ ∨ _))

def maybeCheckpoint (store : SqliteStateStore) (clock : Clock) : SqliteStateStore :=
  if store.Due clock.now then store.checkpoint clock.checkpointed else store

def recordWrite (store : SqliteStateStore) : SqliteStateStore := { store with writeCount := store.writeCount + 1 }

def put (store : SqliteStateStore) (key : String) (value : ByteArray) (clock : Clock) : SqliteStateStore :=
  ({ store with conn := store.conn.put key value }).recordWrite.maybeCheckpoint clock

def delete (store : SqliteStateStore) (key : String) (clock : Clock) : SqliteStateStore :=
  ({ store with conn := store.conn.delete key }).recordWrite.maybeCheckpoint clock

def transaction (store : SqliteStateStore) : Transaction := { guard := store.conn, committed := false }

-- The drop of a transaction: without a commit its changes are rolled back.
def release (store : SqliteStateStore) (tx : Transaction) : SqliteStateStore :=
  if tx.committed then { store with conn := tx.guard } else store

end SqliteStateStore

inductive KeyWrite where
  | put (key : String) (value : ByteArray)
  | delete (key : String)

namespace Transaction

def put (tx : Transaction) (key : String) (value : ByteArray) : Transaction := { tx with guard := tx.guard.put key value }
def delete (tx : Transaction) (key : String) : Transaction := { tx with guard := tx.guard.delete key }
def commit (tx : Transaction) : Transaction := { tx with committed := true }

def write (tx : Transaction) : KeyWrite → Transaction
  | .put key value => tx.put key value
  | .delete key => tx.delete key

end Transaction

inductive StoreCall where
  | put (key : String) (value : ByteArray) (clock : Clock)
  | delete (key : String) (clock : Clock)
  | transaction (writes : List KeyWrite) (commits : Bool)
  | checkpoint (now : Nat)

structure Logged where
  store : SqliteStateStore
  applied : Nat

namespace Logged

def appliedAfter (s : Logged) (clock : Clock) : Nat := if s.store.recordWrite.Due clock.now then 0 else s.applied + 1

def step (s : Logged) : StoreCall → Option Logged
  | .put key value clock => some ⟨s.store.put key value clock, s.appliedAfter clock⟩
  | .delete key clock => some ⟨s.store.delete key clock, s.appliedAfter clock⟩
  | .transaction writes commits =>
    let tx := writes.foldl Transaction.write s.store.transaction
    if commits then some ⟨s.store.release tx.commit, s.applied + writes.length⟩
    else some ⟨s.store.release tx, s.applied⟩
  | .checkpoint now => some ⟨s.store.checkpoint now, 0⟩

structure Counted (s : Logged) : Prop where
  below : s.applied < s.store.policy.writeThreshold.toNat
  count : s.store.writeCount.toNat = s.applied

def Direct (_ : Logged) : StoreCall → Prop
  | .transaction writes commits => commits = true → writes = []
  | _ => True

theorem Counted.write {s : Logged} (counted : s.Counted) (conn : Connection) (clock : Clock) :
    Counted ⟨({ s.store with conn := conn }).recordWrite.maybeCheckpoint clock, s.appliedAfter clock⟩ := by
  obtain ⟨below, count⟩ := counted
  have limit := s.store.policy.writeThreshold.toNat_lt
  have grown : (s.store.writeCount + 1).toNat = s.applied + 1 := by
    rw [UInt64.toNat_add, count]
    exact Nat.mod_eq_of_lt (show s.applied + 1 < 2 ^ 64 by omega)
  by_cases due : s.store.recordWrite.Due clock.now
  · have reset : ({ s.store with conn := conn }).recordWrite.maybeCheckpoint clock =
        ({ s.store with conn := conn }).recordWrite.checkpoint clock.checkpointed := if_pos due
    rw [reset, appliedAfter, if_pos due]
    exact ⟨Nat.lt_of_le_of_lt (Nat.zero_le _) below, rfl⟩
  · have kept : ({ s.store with conn := conn }).recordWrite.maybeCheckpoint clock =
        ({ s.store with conn := conn }).recordWrite := if_neg due
    rw [kept, appliedAfter, if_neg due]
    have early : ¬ s.store.policy.writeThreshold ≤ s.store.writeCount + 1 := fun reached => due (.inl reached)
    rw [UInt64.le_iff_toNat_le, grown] at early
    exact ⟨Nat.not_le.mp early, grown⟩

theorem releaseRolledBack (store : SqliteStateStore) (writes : List KeyWrite) :
    store.release (writes.foldl Transaction.write store.transaction) = store := by
  have each : ∀ tx : Transaction, (writes.foldl Transaction.write tx).committed = tx.committed := by
    induction writes with
    | nil => exact fun _ => rfl
    | cons w rest ih =>
      intro tx
      rw [List.foldl_cons, ih]
      cases w <;> rfl
  rw [SqliteStateStore.release, each]
  exact if_neg (Bool.false_ne_true)

theorem stepCounted (s : Logged) (call : StoreCall) (t : Logged) (counted : s.Counted) (direct : s.Direct call)
    (next : s.step call = some t) : t.Counted := by
  cases call with
  | put key value clock =>
    cases next
    exact counted.write _ clock
  | delete key clock =>
    cases next
    exact counted.write _ clock
  | transaction writes commits =>
    cases commits with
    | true =>
      cases next
      rw [direct rfl]
      exact ⟨counted.below, counted.count⟩
    | false =>
      cases next
      rw [releaseRolledBack]
      exact counted
  | checkpoint now =>
    cases next
    exact ⟨Nat.lt_of_le_of_lt (Nat.zero_le _) counted.below, rfl⟩

theorem directShows (s : Logged) (call : StoreCall) (counted : s.Counted) (after : ∀ t ∈ s.step call, t.Counted) :
    s.Direct call := by
  cases call with
  | put key value clock => trivial
  | delete key clock => trivial
  | checkpoint now => trivial
  | transaction writes commits =>
    intro committed
    subst committed
    have count := (after _ rfl).count
    have before := counted.count
    have same : s.applied = s.applied + writes.length := before.symm.trans count
    exact List.length_eq_zero_iff.mp (by omega)

theorem writesCountedIff (conn : Connection) {policy : CheckpointPolicy} (positive : 1 ≤ policy.writeThreshold)
    (now : Nat) (calls : List StoreCall) :
    Always step Counted ⟨.openWithPolicy conn policy now, 0⟩ calls ↔
      Meets step Direct ⟨.openWithPolicy conn policy now, 0⟩ calls :=
  alwaysIffMeets stepCounted (fun _ counted => counted) directShows ⟨UInt64.le_iff_toNat_le.mp positive, rfl⟩

-- The policy of `checkpoint_triggers_on_write_threshold`.
def everyThird : CheckpointPolicy := { writeThreshold := 3, secondsThreshold := 9999 }

def dayOfWrites : List StoreCall :=
  [.put "/a" ⟨#[97]⟩ ⟨1, 2⟩, .transaction [.put "/b" ⟨#[98]⟩, .delete "/a"] false, .delete "/c" ⟨3, 4⟩,
    .transaction [] true, .put "/d" ⟨#[100]⟩ ⟨5, 6⟩, .put "/e" ⟨#[101]⟩ ⟨7, 8⟩]

theorem writesCountedIffThird : Always step Counted ⟨.openWithPolicy ⟨∅⟩ everyThird 0, 0⟩ dayOfWrites ↔
    Meets step Direct ⟨.openWithPolicy ⟨∅⟩ everyThird 0, 0⟩ dayOfWrites :=
  writesCountedIff ⟨∅⟩ (by decide) 0 _

def threePuts : List StoreCall :=
  [.transaction [.put "/t1" .empty, .put "/t2" .empty, .put "/t3" .empty] true]

theorem transactionUncounted : ¬ Always step Counted ⟨.openWithPolicy ⟨∅⟩ everyThird 0, 0⟩ threePuts := by
  intro counted
  have last := alwaysHead (counted.2 _ rfl)
  exact absurd last.below (by decide)

end Logged
end ArosKernel.Store
