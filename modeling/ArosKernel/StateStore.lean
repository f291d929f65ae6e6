import ArosKernel.HashMap

/-! The key-value store trait of `store/mod.rs`, its errors, and two stores: the plain
map, and one whose next writes can fail, each leaving the map as it is. -/
namespace ArosKernel.Store

inductive StoreError where
  | sqlite (message : String)
  | permissionDenied (identity operation key : String)
  | appendOnly (key : String)
  | serialization (message : String)
  deriving DecidableEq, Repr

def StoreError.text : StoreError → String
  | .sqlite message => s!"SQLite error: {message}"
  | .permissionDenied identity operation key =>
    s!"Permission denied: {identity} cannot {operation} on key '{key}'"
  | .appendOnly key => s!"Append-only key: delete not allowed on '{key}'"
  | .serialization message => s!"Serialization error: {message}"

abbrev Written := Except StoreError Unit

class StateStore (S : Type) where
  put : S → String → ByteArray → Written × S
  get : S → String → Except StoreError (Option ByteArray)
  delete : S → String → Written × S

abbrev Entries := HashMap String ByteArray

instance : StateStore Entries where
  put s key value := (.ok (), s.insert key value)
  get s key := .ok (s.lookup key)
  delete s key := (.ok (), s.erase key)

abbrev Write := String × ByteArray

-- Puts in a row, up to the first that fails.
def putAll {S : Type} [StateStore S] (s : S) : List Write → Written × S
  | [] => (.ok (), s)
  | (key, value) :: rest =>
    match StateStore.put s key value with
    | (.error e, s) => (.error e, s)
    | (.ok (), s) => putAll s rest

def insertAll (s : Entries) (writes : List Write) : Entries := writes.foldl (fun s w => s.insert w.1 w.2) s

theorem insertAllCongr (writes : List Write) {s t : Entries} {key : String}
    (same : Finmap.lookup key s = Finmap.lookup key t) :
    Finmap.lookup key (insertAll s writes) = Finmap.lookup key (insertAll t writes) := by
  induction writes generalizing s t with
  | nil => exact same
  | cons w rest ih =>
    refine ih ?_
    rw [HashMap.lookupInsert, HashMap.lookupInsert, same]

theorem insertAllElsewhere {writes : List Write} {key : String} (absent : key ∉ writes.map Prod.fst) (s : Entries) :
    Finmap.lookup key (insertAll s writes) = Finmap.lookup key s := by
  induction writes generalizing s with
  | nil => rfl
  | cons w rest ih =>
    rw [List.map_cons, List.mem_cons, not_or] at absent
    exact (ih absent.2 _).trans (Finmap.lookup_insert_of_ne s absent.1)

theorem insertAllHere {writes : List Write} (once : (writes.map Prod.fst).Nodup) (s : Entries) {w : Write}
    (member : w ∈ writes) : Finmap.lookup w.1 (insertAll s writes) = some w.2 := by
  induction writes generalizing s with
  | nil => contradiction
  | cons first rest ih =>
    obtain ⟨fresh, once⟩ := List.nodup_cons.mp once
    rcases List.mem_cons.mp member with here | later
    · subst here
      exact (insertAllElsewhere fresh _).trans (Finmap.lookup_insert s)
    · exact ih once _ later

theorem insertAllIdleIff {writes : List Write} (once : (writes.map Prod.fst).Nodup) (s : Entries) :
    insertAll s writes = s ↔ ∀ w ∈ writes, Finmap.lookup w.1 s = some w.2 := by
  constructor
  · intro idle w member
    rw [← insertAllHere once s member, idle]
  · intro held
    refine Finmap.ext_lookup (fun key => ?_)
    by_cases listed : key ∈ writes.map Prod.fst
    · obtain ⟨w, member, same⟩ := List.mem_map.mp listed
      subst same
      rw [insertAllHere once s member, held w member]
    · exact insertAllElsewhere listed s

structure FallibleStore where
  entries : Entries
  faults : List (Option StoreError)

namespace FallibleStore

def attempt (s : FallibleStore) (change : Entries → Entries) : Written × FallibleStore :=
  match s.faults with
  | some e :: faults => (.error e, { s with faults })
  | none :: faults => (.ok (), ⟨change s.entries, faults⟩)
  | [] => (.ok (), ⟨change s.entries, []⟩)

instance : StateStore FallibleStore where
  put s key value := s.attempt (fun entries => entries.insert key value)
  get s key := .ok (s.entries.lookup key)
  delete s key := s.attempt (fun entries => entries.erase key)

def applied : List (Option StoreError) → List Write → List Write
  | _, [] => []
  | some _ :: _, _ :: _ => []
  | none :: faults, w :: rest => w :: applied faults rest
  | [], w :: rest => w :: rest

theorem putAllApplied (writes : List Write) (s : FallibleStore) :
    (putAll s writes).2.entries = insertAll s.entries (applied s.faults writes) ∧
      ((putAll s writes).1 = .ok () ↔ applied s.faults writes = writes) := by
  induction writes generalizing s with
  | nil => exact ⟨by simp [putAll, applied, insertAll], by simp [putAll, applied]⟩
  | cons w rest ih =>
    rcases s with ⟨entries, _ | ⟨_ | e, faults⟩⟩
    · have again := ih ⟨entries.insert w.1 w.2, []⟩
      have all : applied [] rest = rest := by cases rest <;> rfl
      rw [all] at again
      exact ⟨again.1, again.2.trans (by simp [applied])⟩
    · have again := ih ⟨entries.insert w.1 w.2, faults⟩
      exact ⟨again.1, again.2.trans (by simp [applied])⟩
    · exact ⟨rfl, by simp [putAll, StateStore.put, attempt, applied]⟩

theorem appliedPrefix (faults : List (Option StoreError)) (writes : List Write) : applied faults writes <+: writes := by
  induction writes generalizing faults with
  | nil => cases faults <;> exact List.prefix_refl _
  | cons w rest ih =>
    rcases faults with _ | ⟨_ | e, faults⟩
    · exact List.prefix_refl _
    · exact List.cons_prefix_cons.mpr ⟨rfl, ih faults⟩
    · exact List.nil_prefix

end FallibleStore
end ArosKernel.Store
