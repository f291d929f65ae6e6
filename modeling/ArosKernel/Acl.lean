import ArosKernel.StateStore
import ArosKernel.Unwinding
import Mathlib.Data.List.Infix
import Mathlib.Data.List.Induction

/-! The write permissions of `store/acl.rs`, and runs of guards over one store. -/
namespace ArosKernel.Store
open Unwinding

inductive ProcessIdentity where
  | kernel
  | metaLoop
  | harnessLoop
  | agenticLoop
  | modelAdapter
  | human
  deriving DecidableEq, Repr

def ProcessIdentity.text : ProcessIdentity → String
  | .kernel => "Kernel"
  | .metaLoop => "MetaLoop"
  | .harnessLoop => "HarnessLoop"
  | .agenticLoop => "AgenticLoop"
  | .modelAdapter => "ModelAdapter"
  | .human => "Human"

structure AclGuard (S : Type) where
  inner : S
  identity : ProcessIdentity

def startsWith (key prefix_ : String) : Bool := prefix_.toList.isPrefixOf key.toList

def isAppendOnly (key : String) : Bool := startsWith key "/audit/" || startsWith key "/evolution-log/"

def mayWrite (identity : ProcessIdentity) (key : String) : Bool :=
  if identity = .kernel then true
  else if startsWith key "/policy/" then identity = .metaLoop
  else if startsWith key "/meta-goals/" then identity = .human
  else if startsWith key "/security/redzone/" then false
  else if startsWith key "/audit/" then true
  else if startsWith key "/circuit-breaker/" then identity = .modelAdapter
  else if startsWith key "/dag/" then identity = .harnessLoop
  else if startsWith key "/task/" then identity = .agenticLoop
  else if startsWith key "/evolution-log/" then identity = .metaLoop
  else if startsWith key "/self-model/" then identity = .metaLoop
  else true

namespace AclGuard
variable {S : Type}

def checkWrite (g : AclGuard S) (key operation : String) : Written :=
  if operation = "delete" && isAppendOnly key then .error (.appendOnly key)
  else if !mayWrite g.identity key then .error (.permissionDenied g.identity.text operation key)
  else .ok ()

variable [StateStore S]

instance : StateStore (AclGuard S) where
  put g key value :=
    match g.checkWrite key "put" with
    | .error e => (.error e, g)
    | .ok () =>
      let (answer, inner) := StateStore.put g.inner key value
      (answer, { g with inner })
  get g key := StateStore.get g.inner key
  delete g key :=
    match g.checkWrite key "delete" with
    | .error e => (.error e, g)
    | .ok () =>
      let (answer, inner) := StateStore.delete g.inner key
      (answer, { g with inner })

end AclGuard

inductive Op where
  | put (key : String) (value : ByteArray)
  | delete (key : String)

structure GuardCall where
  identity : ProcessIdentity
  op : Op

def Op.key : Op → String
  | .put key _ => key
  | .delete key => key

def Op.change : Op → Entries → Entries
  | .put key value => fun s => s.insert key value
  | .delete key => fun s => s.erase key

def Op.name : Op → String
  | .put .. => "put"
  | .delete .. => "delete"

def call (s : Entries) (c : GuardCall) : Written × Entries :=
  let g : AclGuard Entries := ⟨s, c.identity⟩
  match c.op with
  | .put key value =>
    let (answer, g) := StateStore.put g key value
    (answer, g.inner)
  | .delete key =>
    let (answer, g) := StateStore.delete g key
    (answer, g.inner)

def GuardCall.check (c : GuardCall) : Written := (⟨(), c.identity⟩ : AclGuard Unit).checkWrite c.op.key c.op.name

theorem callCheck (s : Entries) (c : GuardCall) :
    call s c = match c.check with
      | .ok () => (.ok (), c.op.change s)
      | .error e => (.error e, s) := by
  rcases c with ⟨identity, ⟨key, value⟩ | key⟩
  · have same : (⟨s, identity⟩ : AclGuard Entries).checkWrite key "put" = GuardCall.check ⟨identity, .put key value⟩ := rfl
    simp only [call, StateStore.put, same]
    cases GuardCall.check ⟨identity, .put key value⟩ <;> rfl
  · have same : (⟨s, identity⟩ : AclGuard Entries).checkWrite key "delete" = GuardCall.check ⟨identity, .delete key⟩ := rfl
    simp only [call, StateStore.delete, same]
    cases GuardCall.check ⟨identity, .delete key⟩ <;> rfl

theorem callAnswer (s : Entries) (c : GuardCall) : (call s c).1 = c.check := by
  rw [callCheck]
  cases c.check <;> rfl

theorem changeElsewhere (op : Op) (s : Entries) {key : String} (different : key ≠ op.key) :
    Finmap.lookup key (op.change s) = Finmap.lookup key s := by
  cases op with
  | put k value => exact Finmap.lookup_insert_of_ne s different
  | delete k => exact Finmap.lookup_erase_ne different

theorem checkOk {c : GuardCall} : c.check = .ok () ↔
    mayWrite c.identity c.op.key = true ∧ (isAppendOnly c.op.key = true → ∃ value, c.op = .put c.op.key value) := by
  rcases c with ⟨identity, ⟨key, value⟩ | key⟩
  · simp [GuardCall.check, AclGuard.checkWrite, Op.name, Op.key]
  · cases only : isAppendOnly key <;> simp [GuardCall.check, AclGuard.checkWrite, Op.name, Op.key, only]

theorem callElsewhere (s : Entries) {c : GuardCall} {key : String} (kept : c.op.key ≠ key ∨ mayWrite c.identity key = false) :
    Finmap.lookup key (call s c).2 = Finmap.lookup key s := by
  rw [callCheck]
  cases checked : c.check with
  | error e => rfl
  | ok _ =>
    refine changeElsewhere c.op s (fun same => ?_)
    subst same
    rcases kept with other | refused
    · exact other rfl
    · rw [(checkOk.mp checked).1] at refused
      contradiction

/-! The prefix table. No rule's prefix extends another's, so a key falls under one rule
at most and the tests commute. -/

inductive Access where
  | only (owner : ProcessIdentity)
  | nobody
  | anyone
  deriving DecidableEq, Repr

def Access.allows : Access → ProcessIdentity → Bool
  | .only owner, identity => identity = owner
  | .nobody, _ => false
  | .anyone, _ => true

def rules : List (String × Access) :=
  [("/policy/", .only .metaLoop), ("/meta-goals/", .only .human), ("/security/redzone/", .nobody), ("/audit/", .anyone),
    ("/circuit-breaker/", .only .modelAdapter), ("/dag/", .only .harnessLoop), ("/task/", .only .agenticLoop),
    ("/evolution-log/", .only .metaLoop), ("/self-model/", .only .metaLoop)]

def firstMatch (table : List (String × Access)) (identity : ProcessIdentity) (key : String) : Bool :=
  match table.find? (fun rule => startsWith key rule.1) with
  | some rule => rule.2.allows identity
  | none => true

theorem firstMatchCons (rule : String × Access) (rest : List (String × Access)) (identity : ProcessIdentity) (key : String) :
    firstMatch (rule :: rest) identity key =
      if startsWith key rule.1 then rule.2.allows identity else firstMatch rest identity key := by
  unfold firstMatch
  rw [List.find?_cons]
  cases startsWith key rule.1 <;> rfl

theorem mayWriteFirst {identity : ProcessIdentity} (user : identity ≠ .kernel) (key : String) :
    mayWrite identity key = firstMatch rules identity key := by
  unfold mayWrite rules
  rw [if_neg user]
  simp only [firstMatchCons]
  rfl

theorem rulesApart : ∀ rule ∈ rules, ∀ other ∈ rules, rule.1.toList <+: other.1.toList → rule = other := by decide

theorem oneRule {key : String} {rule other : String × Access} (listed : rule ∈ rules) (listed' : other ∈ rules)
    (under : startsWith key rule.1 = true) (under' : startsWith key other.1 = true) : rule = other := by
  rcases List.prefix_or_prefix_of_prefix (List.isPrefixOf_iff_prefix.mp under) (List.isPrefixOf_iff_prefix.mp under') with
    first | second
  · exact rulesApart rule listed other listed' first
  · exact (rulesApart other listed' rule listed second).symm

theorem findUnique {α : Type} {p : α → Bool} {l : List α} (unique : ∀ a ∈ l, ∀ b ∈ l, p a = true → p b = true → a = b)
    (a : α) : l.find? p = some a ↔ a ∈ l ∧ p a = true := by
  constructor
  · intro found
    exact ⟨List.mem_of_find?_eq_some found, List.find?_some found⟩
  · intro ⟨member, holds⟩
    cases found : l.find? p with
    | none => exact absurd holds (by simpa using List.find?_eq_none.mp found a member)
    | some b => exact congrArg some (unique b (List.mem_of_find?_eq_some found) a member (List.find?_some found) holds)

theorem firstMatchPerm {table : List (String × Access)} (perm : table.Perm rules) (identity : ProcessIdentity)
    (key : String) : firstMatch table identity key = firstMatch rules identity key := by
  have same : table.find? (fun rule => startsWith key rule.1) = rules.find? (fun rule => startsWith key rule.1) := by
    refine Option.ext (fun rule => ?_)
    rw [findUnique (fun a ha b hb => oneRule (perm.mem_iff.mp ha) (perm.mem_iff.mp hb)),
      findUnique (fun a ha b hb => oneRule ha hb), perm.mem_iff]
  rw [firstMatch, same, firstMatch]

def protectedPrefixes : List (String × Option ProcessIdentity) :=
  [("/policy/", some .metaLoop), ("/meta-goals/", some .human), ("/security/redzone/", none),
    ("/circuit-breaker/", some .modelAdapter), ("/dag/", some .harnessLoop), ("/task/", some .agenticLoop),
    ("/evolution-log/", some .metaLoop), ("/self-model/", some .metaLoop)]

def Access.owner : Access → Option (Option ProcessIdentity)
  | .only owner => some (some owner)
  | .nobody => some none
  | .anyone => none

theorem protectedListed : ∀ rule ∈ rules, ∀ owner ∈ rule.2.owner, (rule.1, owner) ∈ protectedPrefixes := by decide

theorem listedProtected : ∀ row ∈ protectedPrefixes, ∃ rule ∈ rules, rule.1 = row.1 ∧ rule.2.owner = some row.2 := by decide

theorem allowsOwner (access : Access) (identity : ProcessIdentity) :
    access.allows identity = false ↔ ∃ owner, access.owner = some owner ∧ owner ≠ some identity := by
  cases access with
  | only owner => simp [Access.allows, Access.owner, eq_comm]
  | nobody => simp [Access.allows, Access.owner]
  | anyone => simp [Access.allows, Access.owner]

theorem notWritable {identity : ProcessIdentity} (user : identity ≠ .kernel) (key : String) :
    mayWrite identity key = false ↔
      ∃ row ∈ protectedPrefixes, startsWith key row.1 = true ∧ row.2 ≠ some identity := by
  have oneFound : ∀ rule, rules.find? (fun rule => startsWith key rule.1) = some rule ↔
      rule ∈ rules ∧ startsWith key rule.1 = true := findUnique (fun a ha b hb => oneRule ha hb)
  rw [mayWriteFirst user, firstMatch]
  constructor
  · intro refused
    split at refused
    · rename_i rule found
      obtain ⟨owner, owned, other⟩ := (allowsOwner rule.2 identity).mp refused
      have under : startsWith key rule.1 = true := (oneFound rule).mp found |>.2
      exact ⟨_, protectedListed rule ((oneFound rule).mp found).1 owner owned, under, other⟩
    · contradiction
  · rintro ⟨row, listed, under, other⟩
    obtain ⟨rule, member, same, owned⟩ := listedProtected row listed
    rw [(oneFound rule).mpr ⟨member, same ▸ under⟩]
    exact (allowsOwner rule.2 identity).mpr ⟨row.2, owned, other⟩

theorem callUnwinds (identity : ProcessIdentity) :
    Unwinds call (fun c => decide (c.identity = identity))
      (fun s t => ∀ key, mayWrite identity key = false → Finmap.lookup key s = Finmap.lookup key t) where
  silent s t c own same key refused := by
    have caller : c.identity = identity := of_decide_eq_true own
    exact (callElsewhere s (.inr (caller ▸ refused))).trans (same key refused)
  answer s t c _ _ := (callAnswer s c).trans (callAnswer t c).symm
  respects s t c _ same key refused := by
    rw [callCheck, callCheck]
    cases c.check with
    | error e => exact same key refused
    | ok _ =>
      by_cases here : key = c.op.key
      · subst here
        cases c.op with
        | put k value => exact (Finmap.lookup_insert s).trans (Finmap.lookup_insert t).symm
        | delete k => exact (Finmap.lookup_erase k s).trans (Finmap.lookup_erase k t).symm
      · exact (changeElsewhere c.op s here).trans ((same key refused).trans (changeElsewhere c.op t here).symm)

theorem aclNonInterference {identity : ProcessIdentity} (user : identity ≠ .kernel) (s : Entries) (calls : List GuardCall) :
    (∀ key, mayWrite identity key = false → Finmap.lookup key (final call s calls) =
      Finmap.lookup key (final call s (calls.filter (fun c => !decide (c.identity = identity))))) ∧
    (answers call s calls).filter (fun a => !decide (a.1.identity = identity)) =
      answers call s (calls.filter (fun c => !decide (c.identity = identity))) ∧
    (∀ key, mayWrite identity key = false ↔
      ∃ row ∈ protectedPrefixes, startsWith key row.1 = true ∧ row.2 ≠ some identity) ∧
    (∀ key, ∀ rule ∈ rules, ∀ other ∈ rules, startsWith key rule.1 = true → startsWith key other.1 = true → rule = other) ∧
    ∀ table, table.Perm rules → ∀ key, firstMatch table identity key = mayWrite identity key := by
  have unwinds := callUnwinds identity
  refine ⟨purgeFinal unwinds calls (fun _ _ => rfl), purgeAnswers unwinds calls (fun _ _ => rfl), notWritable user,
    fun key rule listed other listed' => oneRule listed listed', fun table perm key => ?_⟩
  rw [firstMatchPerm perm, mayWriteFirst user]

def meddling : List GuardCall :=
  [⟨.metaLoop, .put "/policy/head" "cycle-1".toUTF8⟩, ⟨.agenticLoop, .put "/task/42" "running".toUTF8⟩,
    ⟨.agenticLoop, .delete "/policy/head"⟩, ⟨.harnessLoop, .put "/task/42" "x".toUTF8⟩]

theorem aclNonInterferenceMeddling :
    (∀ key, mayWrite .agenticLoop key = false → Finmap.lookup key (final call ∅ meddling) =
      Finmap.lookup key (final call ∅ (meddling.filter (fun c => !decide (c.identity = .agenticLoop))))) ∧
    (answers call ∅ meddling).filter (fun a => !decide (a.1.identity = .agenticLoop)) =
      answers call ∅ (meddling.filter (fun c => !decide (c.identity = .agenticLoop))) :=
  have purged := aclNonInterference (show ProcessIdentity.agenticLoop ≠ .kernel by decide) ∅ meddling
  ⟨purged.1, purged.2.1⟩

/-! Append-only keys. Deletes are refused to everyone; a put is checked like any other. -/

def read (s : Entries) (reader : ProcessIdentity) (key : String) : Except StoreError (Option ByteArray) :=
  StateStore.get (⟨s, reader⟩ : AclGuard Entries) key

def Lasting (s : Entries) (calls : List GuardCall) : Prop :=
  ∀ earlier later, earlier ++ later <+: calls → ∀ key value reader, isAppendOnly key = true →
    read (final call s earlier) reader key = .ok (some value) →
    read (final call s (earlier ++ later)) reader key = .ok (some value)

def Overwrites (s : Entries) (c : GuardCall) : Prop :=
  ∃ key value old, c.op = .put key value ∧ isAppendOnly key = true ∧ mayWrite c.identity key = true ∧
    Finmap.lookup key s = some old ∧ value ≠ old

theorem readValue {s : Entries} {reader : ProcessIdentity} {key : String} {value : ByteArray} :
    read s reader key = .ok (some value) ↔ Finmap.lookup key s = some value := by
  show (Except.ok (Finmap.lookup key s) : Except StoreError _) = .ok (some value) ↔ _
  rw [Except.ok.injEq]

theorem keptUnlessOverwritten {s : Entries} {c : GuardCall} (fresh : ¬ Overwrites s c) {key : String} {value : ByteArray}
    (only : isAppendOnly key = true) (found : Finmap.lookup key s = some value) :
    Finmap.lookup key (call s c).2 = some value := by
  by_cases here : c.op.key = key
  · rw [callCheck]
    cases checked : c.check with
    | error e => exact found
    | ok _ =>
      obtain ⟨allowed, writes⟩ := checkOk.mp checked
      obtain ⟨new, put⟩ := writes (here ▸ only)
      rw [here] at put allowed
      have same : new = value :=
        Decidable.byContradiction (fun other => fresh ⟨key, new, value, put, only, allowed, found, other⟩)
      simp only [put, Op.change, same]
      exact Finmap.lookup_insert s
  · rw [callElsewhere s (.inl here), found]

theorem overwriteShows {s : Entries} {c : GuardCall} (overwrites : Overwrites s c) : ∃ key old, isAppendOnly key = true ∧
    Finmap.lookup key s = some old ∧ Finmap.lookup key (call s c).2 ≠ some old := by
  obtain ⟨key, value, old, put, only, allowed, found, other⟩ := overwrites
  have at_ : c.op.key = key := by rw [put]; rfl
  have accepted : c.check = .ok () := checkOk.mpr ⟨at_ ▸ allowed, fun _ => ⟨value, at_ ▸ put⟩⟩
  refine ⟨key, old, only, found, ?_⟩
  rw [callCheck, accepted]
  simp only [put, Op.change, Finmap.lookup_insert, ne_eq, Option.some.injEq]
  exact other

theorem lastingIffNoOverwrite (s : Entries) (calls : List GuardCall) :
    Lasting s calls ↔ ∀ earlier c, earlier ++ [c] <+: calls → ¬ Overwrites (final call s earlier) c := by
  constructor
  · intro lasting earlier c inside overwrites
    obtain ⟨key, old, only, found, lost⟩ := overwriteShows overwrites
    have still := lasting earlier [c] inside key old .kernel only (readValue.mpr found)
    rw [readValue, finalAppend] at still
    exact lost still
  · intro fresh earlier later inside key value reader only found
    rw [readValue] at found ⊢
    induction later using List.reverseRecOn with
    | nil => simpa using found
    | append_singleton later c ih =>
      rw [← List.append_assoc] at inside ⊢
      rw [finalAppend]
      exact keptUnlessOverwritten (fresh _ c inside) only (ih ((List.prefix_append _ _).trans inside))

def rewriting : List GuardCall :=
  [⟨.agenticLoop, .put "/audit/event1" "log".toUTF8⟩, ⟨.modelAdapter, .put "/audit/event1" "nothing".toUTF8⟩]

theorem auditRewritten : ¬ Lasting ∅ rewriting := by
  intro lasting
  have still := lasting [⟨.agenticLoop, .put "/audit/event1" "log".toUTF8⟩] _ (List.prefix_refl rewriting)
    "/audit/event1" "log".toUTF8 .human (by decide) (readValue.mpr (by decide))
  exact absurd (readValue.mp still) (by decide)

end ArosKernel.Store
