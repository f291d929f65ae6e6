import ArosKernel.LikePattern
import ArosKernel.StateStore
import ArosKernel.Utf8
import Mathlib.Data.List.Lex
import Mathlib.Data.String.Basic

/-! Listing keys in `store/engine.rs`, by the store and inside a transaction. The table
has one row for each key, scanned in any order. -/
namespace ArosKernel.Store
open LikePattern

abbrev Scan := HashMap.Order String ByteArray

-- `TEXT` in binary order: byte by byte.
def binary (key : String) : List Nat := (Utf8.bytes key).map UInt8.toNat

def BinaryLe (a b : String) : Prop := binary a ≤ binary b

instance : DecidableRel BinaryLe := fun a b => inferInstanceAs (Decidable (binary a ≤ binary b))
instance : Std.Total BinaryLe := ⟨fun a b => le_total (binary a) (binary b)⟩
instance : IsTrans String BinaryLe := ⟨fun _ _ _ first second => le_trans (α := List Nat) first second⟩

structure Connection where
  kvStore : Entries

-- `SELECT key FROM kv_store WHERE key LIKE ?1 ORDER BY key`
def Connection.keysLike (scan : Scan) (conn : Connection) (pattern : String) : List String :=
  ((scan.keys conn.kvStore).filter (fun key => like pattern.toList key.toList)).insertionSort BinaryLe

structure CheckpointPolicy where
  writeThreshold : UInt64
  secondsThreshold : UInt64
  deriving DecidableEq, Repr

def CheckpointPolicy.default : CheckpointPolicy := { writeThreshold := 1000, secondsThreshold := 60 }

structure SqliteStateStore where
  conn : Connection
  policy : CheckpointPolicy
  writeCount : UInt64
  lastCheckpoint : Nat

structure Transaction where
  guard : Connection
  committed : Bool

def stateStoreListKeys (scan : Scan) (conn : Connection) (keyPrefix : String) : List String :=
  conn.keysLike scan s!"{keyPrefix}%"

def SqliteStateStore.listKeys (scan : Scan) (store : SqliteStateStore) (keyPrefix : String) : List String :=
  stateStoreListKeys scan store.conn keyPrefix

def Transaction.listKeys (scan : Scan) (tx : Transaction) (keyPrefix : String) : List String :=
  tx.guard.keysLike scan s!"{keyPrefix}%"

def StartsWith (keyPrefix key : String) : Prop := ∃ rest, key = keyPrefix ++ rest

structure ListsPrefix (rows : Entries) (keyPrefix : String) (keys : List String) : Prop where
  exact : ∀ key, key ∈ keys ↔ key ∈ rows ∧ StartsWith keyPrefix key
  once : keys.Nodup
  ascending : keys.Pairwise BinaryLe

def Lookalike (keyPrefix key : String) : Prop :=
  (∃ front, front <+: key.toList ∧ Resembles keyPrefix.toList front) ∧ ¬ StartsWith keyPrefix key

theorem startsWithIff {keyPrefix key : String} : StartsWith keyPrefix key ↔ keyPrefix.toList <+: key.toList := by
  constructor
  · intro ⟨rest, same⟩
    exact ⟨rest.toList, by rw [same, String.toList_append]⟩
  · intro ⟨rest, same⟩
    refine ⟨String.ofList rest, String.toList_inj.mp ?_⟩
    rw [String.toList_append, String.toList_ofList, same]

theorem memKeysLike {scan : Scan} {conn : Connection} {keyPrefix key : String} :
    key ∈ conn.keysLike scan s!"{keyPrefix}%" ↔
      key ∈ conn.kvStore ∧ ∃ front, front <+: key.toList ∧ Resembles keyPrefix.toList front := by
  have pattern : (s!"{keyPrefix}%" : String).toList = keyPrefix.toList ++ ['%'] := by
    simp [toString, String.toList_append]
  rw [Connection.keysLike, List.mem_insertionSort, List.mem_filter, scan.complete, pattern, likeStarts]

theorem keysLikeOnce (scan : Scan) (conn : Connection) (pattern : String) : (conn.keysLike scan pattern).Nodup :=
  (List.perm_insertionSort _ _).nodup_iff.mpr ((scan.nodup conn.kvStore).filter _)

theorem keysLikeAscending (scan : Scan) (conn : Connection) (pattern : String) :
    (conn.keysLike scan pattern).Pairwise BinaryLe := List.pairwise_insertionSort _ _

theorem keysLikeExactIff (scan : Scan) (conn : Connection) (keyPrefix : String) :
    ListsPrefix conn.kvStore keyPrefix (conn.keysLike scan s!"{keyPrefix}%") ↔
      ∀ key ∈ conn.kvStore, ¬ Lookalike keyPrefix key := by
  constructor
  · intro lists key stored ⟨resembles, other⟩
    exact other ((lists.exact key).mp (memKeysLike.mpr ⟨stored, resembles⟩)).2
  · intro none
    refine ⟨fun key => ?_, keysLikeOnce scan conn _, keysLikeAscending scan conn _⟩
    rw [memKeysLike]
    refine and_congr_right (fun stored => ⟨fun resembles => ?_, fun starts => ?_⟩)
    · by_contra other
      exact none key stored ⟨resembles, other⟩
    · exact ⟨keyPrefix.toList, startsWithIff.mp starts, resemblesSelf _⟩

theorem listKeysExactIff (scan : Scan) (keyPrefix : String) :
    (∀ store : SqliteStateStore, ListsPrefix store.conn.kvStore keyPrefix (store.listKeys scan keyPrefix) ↔
      ∀ key ∈ store.conn.kvStore, ¬ Lookalike keyPrefix key) ∧
    ∀ tx : Transaction, ListsPrefix tx.guard.kvStore keyPrefix (tx.listKeys scan keyPrefix) ↔
      ∀ key ∈ tx.guard.kvStore, ¬ Lookalike keyPrefix key :=
  ⟨fun store => keysLikeExactIff scan store.conn keyPrefix, fun tx => keysLikeExactIff scan tx.guard keyPrefix⟩

def twoRuns : Connection := ⟨((∅ : Entries).insert "/dag/run_1/a" .empty).insert "/dag/run-1/b" .empty⟩

theorem otherRunListed :
    ¬ ListsPrefix twoRuns.kvStore "/dag/run_1/"
      (SqliteStateStore.listKeys .sorted ⟨twoRuns, .default, 2, 0⟩ "/dag/run_1/") ∧
    ¬ ListsPrefix twoRuns.kvStore "/dag/run_1/" (Transaction.listKeys .sorted ⟨twoRuns, false⟩ "/dag/run_1/") := by
  have stored : "/dag/run-1/b" ∈ twoRuns.kvStore := by decide +kernel
  have alike : Resembles "/dag/run_1/".toList "/dag/run-1/".toList := likeIff.mp (by decide +kernel)
  have other : ¬ StartsWith "/dag/run_1/" "/dag/run-1/b" := by
    rw [startsWithIff]
    decide +kernel
  have lookalike : Lookalike "/dag/run_1/" "/dag/run-1/b" := ⟨⟨_, by decide +kernel, alike⟩, other⟩
  exact ⟨fun lists => (keysLikeExactIff .sorted twoRuns _).mp lists _ stored lookalike,
    fun lists => (keysLikeExactIff .sorted twoRuns _).mp lists _ stored lookalike⟩

end ArosKernel.Store
