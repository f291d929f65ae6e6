import Mathlib.Data.Finmap
import Mathlib.Data.List.Sort
import Mathlib.Data.Finset.Card

/-! Hash maps as finite maps whose enumeration order is not part of the value.
Every loop over a map takes an `Order`: any function that lists the keys of each
map exactly once. A result proved for all orders holds for every hash seed. -/
namespace ArosKernel

abbrev HashMap (κ ν : Type) := Finmap (fun _ : κ => ν)

namespace HashMap
variable {κ ν : Type} [DecidableEq κ]

structure Order (κ ν : Type) where
  keys : HashMap κ ν → List κ
  nodup : ∀ m, (keys m).Nodup
  complete : ∀ m k, k ∈ keys m ↔ k ∈ m

def Order.values (order : Order κ ν) (m : HashMap κ ν) : List ν :=
  (order.keys m).filterMap m.lookup

def Order.entries (order : Order κ ν) (m : HashMap κ ν) : List (κ × ν) :=
  (order.keys m).filterMap (fun k => (m.lookup k).map (fun v => (k, v)))

theorem Order.memValues (order : Order κ ν) (m : HashMap κ ν) (v : ν) :
    v ∈ order.values m ↔ ∃ k, m.lookup k = some v := by
  simp only [Order.values, List.mem_filterMap, order.complete]
  constructor
  · intro ⟨k, _, found⟩
    exact ⟨k, found⟩
  · intro ⟨k, found⟩
    exact ⟨k, Finmap.mem_of_lookup_eq_some found, found⟩

theorem Order.memEntries (order : Order κ ν) (m : HashMap κ ν) (k : κ) (v : ν) :
    (k, v) ∈ order.entries m ↔ m.lookup k = some v := by
  simp only [Order.entries, List.mem_filterMap, order.complete, Option.map_eq_some_iff, Prod.mk.injEq]
  constructor
  · intro ⟨_, _, _, found, sameKey, sameValue⟩
    subst sameKey sameValue
    exact found
  · intro found
    exact ⟨k, Finmap.mem_of_lookup_eq_some found, v, found, rfl, rfl⟩

theorem Order.entriesKeys (order : Order κ ν) (m : HashMap κ ν) : (order.entries m).map Prod.fst = order.keys m := by
  have each : ∀ keys : List κ, (∀ k ∈ keys, k ∈ m) →
      (keys.filterMap (fun k => (m.lookup k).map (fun v => (k, v)))).map Prod.fst = keys := by
    intro keys inside
    induction keys with
    | nil => rfl
    | cons k rest ih =>
      obtain ⟨v, found⟩ := Finmap.mem_iff.mp (inside k List.mem_cons_self)
      simp [found, ih (fun j member => inside j (List.mem_cons_of_mem _ member))]
  exact each (order.keys m) (fun k member => (order.complete m k).mp member)

theorem Order.keysToFinset (order : Order κ ν) (m : HashMap κ ν) :
    (order.keys m).toFinset = m.keys := by
  refine Finset.ext (fun k => ?_)
  rw [List.mem_toFinset, order.complete, Finmap.mem_keys]

theorem Order.keysLength (order : Order κ ν) (m : HashMap κ ν) :
    (order.keys m).length = m.keys.card := by
  rw [← order.keysToFinset m, List.toFinset_card_of_nodup (order.nodup m)]

-- The order of a `BTreeMap`; one admissible order among the others.
def Order.sorted [LinearOrder κ] : Order κ ν where
  keys m := Quotient.liftOn m.keys.val (List.insertionSort (· ≤ ·)) (fun _ _ same =>
    List.Perm.eq_of_pairwise (fun _ _ _ _ => le_antisymm)
      (List.pairwise_insertionSort _ _) (List.pairwise_insertionSort _ _)
      ((List.perm_insertionSort _ _).trans (same.trans (List.perm_insertionSort _ _).symm)))
  nodup m := by
    have unique := m.keys.nodup
    revert unique
    refine Quotient.inductionOn m.keys.val (fun l unique => ?_)
    exact (List.perm_insertionSort (· ≤ ·) l).nodup_iff.mpr unique
  complete m k := by
    rw [← Finmap.mem_keys, ← Finset.mem_val]
    refine Quotient.inductionOn m.keys.val (fun l => ?_)
    exact (List.perm_insertionSort (· ≤ ·) l).mem_iff

-- Writing through `get_mut`: an absent key leaves the map as it is.
def update (m : HashMap κ ν) (k : κ) (f : ν → ν) : HashMap κ ν :=
  match m.lookup k with
  | some v => m.insert k (f v)
  | none => m

@[simp] theorem lookupUpdateSelf (m : HashMap κ ν) (k : κ) (f : ν → ν) :
    (m.update k f).lookup k = (m.lookup k).map f := by
  unfold update
  cases found : m.lookup k with
  | none => simp [found]
  | some v => simp

@[simp] theorem lookupUpdateOther (m : HashMap κ ν) {j k : κ} (different : j ≠ k) (f : ν → ν) :
    (m.update k f).lookup j = m.lookup j := by
  unfold update
  cases m.lookup k with
  | none => rfl
  | some v => exact Finmap.lookup_insert_of_ne _ different

theorem lookupUpdate (m : HashMap κ ν) (j k : κ) (f : ν → ν) :
    (m.update k f).lookup j = if j = k then (m.lookup j).map f else m.lookup j := by
  split
  · rename_i same
    subst j
    exact lookupUpdateSelf m k f
  · rename_i different
    exact lookupUpdateOther m different f

theorem lookupInsert (m : HashMap κ ν) (j k : κ) (v : ν) :
    Finmap.lookup j (m.insert k v) = if j = k then some v else m.lookup j := by
  split
  · rename_i same
    subst j
    exact Finmap.lookup_insert m
  · rename_i different
    exact Finmap.lookup_insert_of_ne m different

theorem lookupErase (m : HashMap κ ν) (j k : κ) :
    Finmap.lookup j (m.erase k) = if j = k then none else m.lookup j := by
  split
  · rename_i same
    subst j
    exact Finmap.lookup_erase k m
  · rename_i different
    exact Finmap.lookup_erase_ne different

@[simp] theorem memUpdate (m : HashMap κ ν) (j k : κ) (f : ν → ν) : j ∈ m.update k f ↔ j ∈ m := by
  rw [← Finmap.lookup_isSome, ← Finmap.lookup_isSome, lookupUpdate]
  split <;> simp

def updateAll (order : Order κ ν) (m : HashMap κ ν) (f : κ → ν → ν) : HashMap κ ν :=
  (order.keys m).foldl (fun m k => m.update k (f k)) m

theorem lookupUpdateKeys (keys : List κ) (once : keys.Nodup) (m : HashMap κ ν) (f : κ → ν → ν) (j : κ) :
    (keys.foldl (fun m k => m.update k (f k)) m).lookup j =
      if j ∈ keys then (m.lookup j).map (f j) else m.lookup j := by
  induction keys generalizing m with
  | nil => simp
  | cons k rest ih =>
    obtain ⟨fresh, once⟩ := List.nodup_cons.mp once
    rw [List.foldl_cons, ih once, lookupUpdate]
    by_cases same : j = k
    · subst j
      simp [fresh]
    · simp [same]

theorem lookupUpdateAll (order : Order κ ν) (m : HashMap κ ν) (f : κ → ν → ν) (j : κ) :
    (m.updateAll order f).lookup j = (m.lookup j).map (f j) := by
  rw [updateAll, lookupUpdateKeys _ (order.nodup m)]
  split
  · rfl
  · rename_i absent
    rw [Finmap.lookup_eq_none.mpr (fun present => absent ((order.complete m j).mpr present))]
    rfl

def insertAll (entries : List (κ × ν)) (m : HashMap κ ν) : HashMap κ ν :=
  entries.foldl (fun m e => m.insert e.1 e.2) m

theorem lookupInsertAll {entries : List (κ × ν)} (once : (entries.map Prod.fst).Nodup) (m : HashMap κ ν) (j : κ)
    {v : ν} : (insertAll entries m).lookup j = some v ↔
      (j, v) ∈ entries ∨ (j ∉ entries.map Prod.fst ∧ m.lookup j = some v) := by
  induction entries generalizing m with
  | nil => simp [insertAll]
  | cons e rest ih =>
    obtain ⟨fresh, once⟩ := List.nodup_cons.mp once
    have step := ih once (m.insert e.1 e.2)
    rw [lookupInsert] at step
    rw [insertAll, List.foldl_cons, ← insertAll, step]
    by_cases same : j = e.1
    · subst same
      have apart : (e.1, v) ∉ rest := fun later => fresh (List.mem_map.mpr ⟨_, later, rfl⟩)
      simp [fresh, apart, Prod.ext_iff, eq_comm]
    · simp [same, Prod.ext_iff]

theorem insertAllEntries (order : Order κ ν) (m : HashMap κ ν) : insertAll (order.entries m) ∅ = m := by
  refine Finmap.ext_lookup (fun j => Option.ext (fun v => ?_))
  rw [lookupInsertAll (by rw [order.entriesKeys]; exact order.nodup m), order.memEntries, Finmap.lookup_empty]
  simp

theorem eraseInsert {m : HashMap κ ν} {k : κ} (fresh : k ∉ m) (v : ν) : (m.insert k v).erase k = m := by
  refine Finmap.ext_lookup (fun j => ?_)
  rw [lookupErase, lookupInsert]
  split
  · rename_i same
    subst j
    exact (Finmap.lookup_eq_none.mpr fresh).symm
  · rfl

theorem updateRevert {m : HashMap κ ν} {k : κ} {v : ν} (found : m.lookup k = some v) {f g : ν → ν}
    (back : g (f v) = v) : (m.update k f).update k g = m := by
  refine Finmap.ext_lookup (fun j => ?_)
  rw [lookupUpdate, lookupUpdate]
  split
  · rename_i same
    subst j
    simp [found, back]
  · rfl

end HashMap
end ArosKernel
