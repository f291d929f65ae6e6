import ArosKernel.HashMap
import ArosKernel.JsonValue
import Mathlib.Data.Int.Basic

/-! Formats of derived codecs: how a value becomes JSON, how it is read back, and which
values the two keep. A text layer below that keeps strings and finite numbers changes
nothing here. -/
namespace ArosKernel.JsonFormat

structure Format (α : Type) where
  encode : α → Value
  decode : Value → Option α
  Kept : α → Prop
  keptIff : ∀ a, decode (encode a) = some a ↔ Kept a

namespace Format
variable {α β : Type}

def total (encode : α → Value) (decode : Value → Option α) (back : ∀ a, decode (encode a) = some a) : Format α :=
  { encode, decode, Kept := fun _ => True, keptIff := fun a => iff_of_true (back a) trivial }

def value : Format Value := total id some (fun _ => rfl)

def string : Format String := total .string Value.asStr (fun _ => rfl)

def asBool : Value → Option Bool
  | .bool b => some b
  | _ => none

def bool : Format Bool := total .bool asBool (fun _ => rfl)

def u64 : Format UInt64 := total .nat Value.asU64 (fun _ => rfl)

def asU32 (v : Value) : Option UInt32 := v.asU64.bind (fun n => if n < 0x100000000 then some n.toUInt32 else none)

def u32 : Format UInt32 := total (fun n => .nat n.toUInt64) asU32 (fun n => by
  have small : n.toUInt64 < 0x100000000 := UInt64.lt_iff_toNat_lt.mpr n.toNat_lt
  show (if n.toUInt64 < 0x100000000 then some n.toUInt64.toUInt32 else none) = some n
  rw [if_pos small, UInt32.toUInt32_toUInt64])

def ofI32 (n : Int32) : Value :=
  if 0 ≤ n.toInt then .nat (UInt64.ofNat n.toInt.toNat) else .number (.negInt n.toInt64)

def asI32 : Value → Option Int32
  | .number (.posInt n) => if n.toNat < 2147483648 then some (Int32.ofNat n.toNat) else none
  | .number (.negInt n) => if -2147483648 ≤ n.toInt then some (Int32.ofInt n.toInt) else none
  | _ => none

theorem i32Back (n : Int32) : asI32 (ofI32 n) = some n := by
  have low := n.le_toInt
  have high := n.toInt_lt
  unfold ofI32
  split
  · rename_i positive
    have same : (UInt64.ofNat n.toInt.toNat).toNat = n.toInt.toNat := by
      rw [UInt64.toNat_ofNat', Nat.mod_eq_of_lt]
      omega
    show (if (UInt64.ofNat n.toInt.toNat).toNat < 2147483648 then _ else none) = _
    rw [same, if_pos (by omega)]
    refine congrArg some (Int32.toInt_inj.mp ?_)
    rw [Int32.toInt_ofNat_of_lt (by omega), Int.toNat_of_nonneg positive]
  · show (if -2147483648 ≤ n.toInt64.toInt then _ else none) = _
    rw [Int32.toInt_toInt64, if_pos (by omega), Int32.ofInt_toInt]

def i32 : Format Int32 := total ofI32 asI32 i32Back

-- An integer would be converted; no encoded float is one.
def asF64 : Value → Option F64
  | .number (.float x) => some x
  | _ => none

def f64 : Format F64 where
  encode := .ofF64
  decode := asF64
  Kept x := x.isFinite = true
  keptIff x := by
    unfold Value.ofF64
    cases x.isFinite <;> simp [asF64]

def isNull : Value → Bool
  | .null => true
  | _ => false

def ofOption (f : Format α) : Option α → Value
  | none => .null
  | some a => f.encode a

def asOption (f : Format α) (v : Value) : Option (Option α) := if isNull v then some none else (f.decode v).map some

def KeptOption (f : Format α) : Option α → Prop
  | none => True
  | some a => isNull (f.encode a) = false ∧ f.Kept a

def option (f : Format α) : Format (Option α) where
  encode := ofOption f
  decode := asOption f
  Kept := KeptOption f
  keptIff o := by
    cases o with
    | none => exact iff_of_true rfl trivial
    | some a =>
      show asOption f (f.encode a) = some (some a) ↔ _
      rw [asOption, KeptOption, ← f.keptIff]
      cases isNull (f.encode a) <;> simp

def readList (f : Format α) : List Value → Option (List α)
  | [] => some []
  | v :: rest => do
    let a ← f.decode v
    let as ← readList f rest
    some (a :: as)

def asList (f : Format α) : Value → Option (List α)
  | .array items => readList f items
  | _ => none

theorem readListIff (f : Format α) (as : List α) :
    readList f (as.map f.encode) = some as ↔ ∀ a ∈ as, f.Kept a := by
  induction as with
  | nil => simp [readList]
  | cons a as ih =>
    rw [List.forall_mem_cons, ← ih, ← f.keptIff]
    simp only [List.map_cons, readList, Option.bind_eq_bind, Option.bind_eq_some_iff, Option.some.injEq, List.cons.injEq]
    constructor
    · intro ⟨b, first, bs, rest, sameFirst, sameRest⟩
      exact ⟨sameFirst ▸ first, sameRest ▸ rest⟩
    · intro ⟨first, rest⟩
      exact ⟨a, first, as, rest, rfl, rfl⟩

def list (f : Format α) : Format (List α) where
  encode as := .array (as.map f.encode)
  decode := asList f
  Kept as := ∀ a ∈ as, f.Kept a
  keptIff := readListIff f

def readTexts : List (String × Value) → HashMap String String → Option (HashMap String String)
  | [], m => some m
  | (key, v) :: rest, m => v.asStr.bind (fun text => readTexts rest (m.insert key text))

def asTexts : Value → Option (HashMap String String)
  | .object members => readTexts members ∅
  | _ => none

theorem readTextsOf (entries : List (String × String)) (m : HashMap String String) :
    readTexts (entries.map (fun e => (e.1, .string e.2))) m = some (HashMap.insertAll entries m) := by
  induction entries generalizing m with
  | nil => rfl
  | cons e rest ih => exact ih _

def texts (order : HashMap.Order String String) : Format (HashMap String String) :=
  total (fun m => .object ((order.entries m).map (fun e => (e.1, .string e.2)))) asTexts (fun m => by
    show readTexts _ ∅ = some m
    rw [readTextsOf, HashMap.insertAllEntries])

def readEntries (f : Format α) : List (String × Value) → HashMap String α → Option (HashMap String α)
  | [], m => some m
  | (key, v) :: rest, m => (f.decode v).bind (fun a => readEntries f rest (m.insert key a))

def asEntries (f : Format α) : Value → Option (HashMap String α)
  | .object members => readEntries f members ∅
  | _ => none

theorem readEntriesKept (f : Format α) (written : List (String × α)) (kept : ∀ e ∈ written, f.Kept e.2)
    (m : HashMap String α) :
    readEntries f (written.map (fun e => (e.1, f.encode e.2))) m = some (HashMap.insertAll written m) := by
  induction written generalizing m with
  | nil => rfl
  | cons e rest ih =>
    have back := (f.keptIff e.2).mpr (kept e List.mem_cons_self)
    simp only [List.map_cons, readEntries, back, Option.bind_some]
    exact ih (fun later member => kept later (List.mem_cons_of_mem _ member)) _

theorem readEntriesAt (f : Format α) (written : List (String × α)) (once : (written.map Prod.fst).Nodup)
    {m r : HashMap String α} (read : readEntries f (written.map (fun e => (e.1, f.encode e.2))) m = some r) :
    (∀ e ∈ written, ∃ a, f.decode (f.encode e.2) = some a ∧ r.lookup e.1 = some a) ∧
    ∀ key, key ∉ written.map Prod.fst → r.lookup key = m.lookup key := by
  induction written generalizing m with
  | nil =>
    cases read
    exact ⟨fun e member => absurd member List.not_mem_nil, fun _ _ => rfl⟩
  | cons e rest ih =>
    obtain ⟨fresh, once⟩ := List.nodup_cons.mp once
    simp only [List.map_cons, readEntries, Option.bind_eq_some_iff] at read
    obtain ⟨a, here, later⟩ := read
    obtain ⟨others, kept⟩ := ih once later
    refine ⟨fun d member => ?_, fun key absent => ?_⟩
    · rcases List.mem_cons.mp member with same | inside
      · subst same
        exact ⟨a, here, by rw [kept d.1 fresh, Finmap.lookup_insert]⟩
      · exact others d inside
    · simp only [List.map_cons, List.mem_cons, not_or] at absent
      rw [kept key absent.2, Finmap.lookup_insert_of_ne _ absent.1]

def KeptEntries (f : Format α) (m : HashMap String α) : Prop := ∀ key a, m.lookup key = some a → f.Kept a

def entries (order : HashMap.Order String α) (f : Format α) : Format (HashMap String α) where
  encode m := .object ((order.entries m).map (fun e => (e.1, f.encode e.2)))
  decode := asEntries f
  Kept := KeptEntries f
  keptIff m := by
    show readEntries f _ ∅ = some m ↔ _
    have once : ((order.entries m).map Prod.fst).Nodup := by rw [order.entriesKeys]; exact order.nodup m
    constructor
    · intro read key a found
      obtain ⟨b, back, there⟩ := (readEntriesAt f _ once read).1 (key, a) ((order.memEntries m key a).mpr found)
      rw [found] at there
      cases there
      exact (f.keptIff a).mp back
    · intro kept
      rw [readEntriesKept f _ (fun e member => kept e.1 e.2 ((order.memEntries m e.1 e.2).mp member)),
        HashMap.insertAllEntries]

def units (name : α → String) (all : List α) (here : ∀ a, a ∈ all) (once : Function.Injective name) : Format α :=
  total (fun a => .string (name a)) (fun v => v.asStr.bind (fun s => all.find? (fun a => name a == s))) (fun a => by
    show all.find? (fun b => name b == name a) = some a
    cases found : all.find? (fun b => name b == name a) with
    | none => exact absurd (List.find?_eq_none.mp found a (here a)) (by simp)
    | some b => rw [once (beq_iff_eq.mp (List.find?_some (p := fun b => name b == name a) found))])

end Format

/-! The members of an object. Fields write under their own names only, and read nothing
else, so those of one record can stand side by side. -/

structure Fields (α : Type) where
  names : List String
  encode : α → List (String × Value)
  decode : List (String × Value) → Option α
  Kept : α → Prop
  keptIff : ∀ a, decode (encode a) = some a ↔ Kept a
  own : ∀ a k, k ∉ names → (encode a).lookup k = none
  reads : ∀ m n, (∀ k ∈ names, m.lookup k = n.lookup k) → decode m = decode n

namespace Fields
open Format
variable {α β : Type}

theorem lookupOther {name k : String} (other : k ∉ [name]) (v : Value) : List.lookup k [(name, v)] = none :=
  List.lookup_eq_none_iff.mpr (by simpa using other)

def member (name : String) (f : Format α) : Fields α where
  names := [name]
  encode a := [(name, f.encode a)]
  decode m := (m.lookup name).bind f.decode
  Kept := f.Kept
  keptIff a := by
    rw [List.lookup_cons_self]
    exact f.keptIff a
  own a k other := lookupOther other _
  reads m n same := by rw [same name List.mem_cons_self]

-- A missing member reads as null.
def readOptional (name : String) (f : Format α) (m : List (String × Value)) : Option (Option α) :=
  match m.lookup name with
  | none => some none
  | some v => asOption f v

def optional (name : String) (f : Format α) : Fields (Option α) where
  names := [name]
  encode o := [(name, ofOption f o)]
  decode := readOptional name f
  Kept := KeptOption f
  keptIff o := by
    rw [readOptional, List.lookup_cons_self]
    exact (option f).keptIff o
  own a k other := lookupOther other _
  reads m n same := by rw [readOptional, readOptional, same name List.mem_cons_self]

-- `skip_serializing_if = "Option::is_none"`
def skipped (name : String) (f : Format α) : Fields (Option α) where
  names := [name]
  encode o := (o.map (fun a => (name, f.encode a))).toList
  decode := readOptional name f
  Kept := KeptOption f
  keptIff o := by
    cases o with
    | none => exact iff_of_true rfl trivial
    | some a =>
      show readOptional name f [(name, f.encode a)] = _ ↔ _
      rw [readOptional, List.lookup_cons_self]
      exact (option f).keptIff (some a)
  own o k other := by
    cases o with
    | none => rfl
    | some a => exact lookupOther other _
  reads m n same := by rw [readOptional, readOptional, same name List.mem_cons_self]

structure Apart (first second : List String) : Prop where
  distinct : first.all (fun k => !second.contains k) = true

theorem Apart.notMem {first second : List String} (apart : Apart first second) {k : String} (mine : k ∈ first) :
    k ∉ second := by
  have other := List.all_eq_true.mp apart.distinct k mine
  simpa using other

theorem pairReads {x : Option α} {y : Option β} {p : α × β} :
    x.bind (fun a => y.map (fun b => (a, b))) = some p ↔ x = some p.1 ∧ y = some p.2 := by
  simp only [Option.bind_eq_some_iff, Option.map_eq_some_iff]
  constructor
  · intro ⟨a, readFirst, b, readSecond, same⟩
    cases same
    exact ⟨readFirst, readSecond⟩
  · intro ⟨readFirst, readSecond⟩
    exact ⟨p.1, readFirst, p.2, readSecond, rfl⟩

def both (first : Fields α) (second : Fields β) (apart : Apart first.names second.names) : Fields (α × β) where
  names := first.names ++ second.names
  encode p := first.encode p.1 ++ second.encode p.2
  decode m := (first.decode m).bind (fun a => (second.decode m).map (fun b => (a, b)))
  Kept p := first.Kept p.1 ∧ second.Kept p.2
  keptIff p := by
    have left : first.decode (first.encode p.1 ++ second.encode p.2) = first.decode (first.encode p.1) := by
      refine first.reads _ _ (fun k mine => ?_)
      rw [List.lookup_append, second.own p.2 k (apart.notMem mine), Option.or_none]
    have right : second.decode (first.encode p.1 ++ second.encode p.2) = second.decode (second.encode p.2) := by
      refine second.reads _ _ (fun k mine => ?_)
      rw [List.lookup_append, first.own p.1 k (fun other => apart.notMem other mine), Option.none_or]
    rw [left, right, ← first.keptIff, ← second.keptIff]
    exact pairReads
  own p k other := by
    rw [List.mem_append, not_or] at other
    rw [List.lookup_append, first.own p.1 k other.1, second.own p.2 k other.2, Option.none_or]
  reads m n same := by
    rw [first.reads m n (fun k mine => same k (List.mem_append_left _ mine)),
      second.reads m n (fun k mine => same k (List.mem_append_right _ mine))]

theorem buildReads {split : β → α} {build : α → β} (there : ∀ b, build (split b) = b) (back : ∀ a, split (build a) = a)
    {x : Option α} {b : β} : x.map build = some b ↔ x = some (split b) := by
  rw [Option.map_eq_some_iff]
  constructor
  · intro ⟨a, read, same⟩
    rw [read, ← same, back]
  · intro read
    exact ⟨split b, read, there b⟩

def record (fields : Fields α) (split : β → α) (build : α → β) (there : ∀ b, build (split b) = b)
    (back : ∀ a, split (build a) = a) : Format β where
  encode b := .object (fields.encode (split b))
  decode
    | .object members => (fields.decode members).map build
    | _ => none
  Kept b := fields.Kept (split b)
  keptIff b := by
    rw [← fields.keptIff]
    exact buildReads there back

def object (fields : Fields α) : Format α := record fields id id (fun _ => rfl) (fun _ => rfl)

theorem bothReads {first : Fields α} {second : Fields β} {apart : Apart first.names second.names}
    {m : List (String × Value)} {p : α × β} :
    (first.both second apart).decode m = some p ↔ first.decode m = some p.1 ∧ second.decode m = some p.2 := pairReads

theorem recordReads {fields : Fields α} {split : β → α} {build : α → β} {there : ∀ b, build (split b) = b}
    {back : ∀ a, split (build a) = a} {m : List (String × Value)} {b : β} :
    (record fields split build there back).decode (.object m) = some b ↔ fields.decode m = some (split b) :=
  buildReads there back

end Fields

section Kept
open Format Fields
variable {α β : Type}

@[simp] theorem valueKept (v : Value) : value.Kept v := trivial
@[simp] theorem stringKept (s : String) : string.Kept s := trivial
@[simp] theorem boolKept (b : Bool) : bool.Kept b := trivial
@[simp] theorem u64Kept (n : UInt64) : u64.Kept n := trivial
@[simp] theorem u32Kept (n : UInt32) : u32.Kept n := trivial
@[simp] theorem i32Kept (n : Int32) : i32.Kept n := trivial
@[simp] theorem textsKept (order : HashMap.Order String String) (m : HashMap String String) : (texts order).Kept m := trivial
@[simp] theorem entriesKept (order : HashMap.Order String α) (f : Format α) (m : HashMap String α) :
    (entries order f).Kept m ↔ ∀ key a, m.lookup key = some a → f.Kept a := Iff.rfl
@[simp] theorem f64Kept (x : F64) : f64.Kept x ↔ x.isFinite = true := Iff.rfl
@[simp] theorem listKept (f : Format α) (as : List α) : (list f).Kept as ↔ ∀ a ∈ as, f.Kept a := Iff.rfl
@[simp] theorem memberKept (name : String) (f : Format α) (a : α) : (member name f).Kept a ↔ f.Kept a := Iff.rfl
@[simp] theorem optionalKept (name : String) (f : Format α) (o : Option α) : (optional name f).Kept o ↔ KeptOption f o :=
  Iff.rfl
@[simp] theorem skippedKept (name : String) (f : Format α) (o : Option α) : (skipped name f).Kept o ↔ KeptOption f o :=
  Iff.rfl
@[simp] theorem bothKept (first : Fields α) (second : Fields β) (apart : Apart first.names second.names) (p : α × β) :
    (first.both second apart).Kept p ↔ first.Kept p.1 ∧ second.Kept p.2 := Iff.rfl
@[simp] theorem recordKept (fields : Fields α) (split : β → α) (build : α → β) (there : ∀ b, build (split b) = b)
    (back : ∀ a, split (build a) = a) (b : β) : (record fields split build there back).Kept b ↔ fields.Kept (split b) :=
  Iff.rfl
@[simp] theorem objectKept (fields : Fields α) (a : α) : (object fields).Kept a ↔ fields.Kept a := Iff.rfl

@[simp] theorem optionStringKept (o : Option String) : KeptOption string o := by
  cases o with
  | none => trivial
  | some s => exact ⟨rfl, trivial⟩

@[simp] theorem optionRecordKept (fields : Fields α) (split : β → α) (build : α → β) (there : ∀ b, build (split b) = b)
    (back : ∀ a, split (build a) = a) (o : Option β) :
    KeptOption (record fields split build there back) o ↔ ∀ b ∈ o, fields.Kept (split b) := by
  cases o with
  | none => simp [KeptOption]
  | some b => simp [KeptOption, record, isNull]

@[simp] theorem optionValueKept (o : Option Value) : KeptOption value o ↔ o ≠ some .null := by
  cases o with
  | none => simp [KeptOption]
  | some v =>
    show isNull v = false ∧ True ↔ _
    cases v <;> simp [isNull]

theorem mapKept (f : Format α) (build : α → β) (injective : Function.Injective build) (a : α) :
    (f.decode (f.encode a)).map build = some (build a) ↔ f.Kept a := by
  rw [← f.keptIff, Option.map_eq_some_iff]
  constructor
  · intro ⟨b, read, same⟩
    rw [read, injective same]
  · intro read
    exact ⟨a, read, rfl⟩

end Kept

/-! Formats that never read a value back as another one: what they do not keep, they
refuse. An optional part is read so when its values are not written as null. -/

section Exact
open Format Fields
variable {α β : Type}

def Format.Exact (f : Format α) : Prop := ∀ a b, f.decode (f.encode a) = some b → b = a

def Fields.Exact (f : Fields α) : Prop := ∀ a b, f.decode (f.encode a) = some b → b = a

theorem Format.Exact.refused {f : Format α} (exact_ : f.Exact) {a : α} (lost : ¬ f.Kept a) :
    f.decode (f.encode a) = none := by
  cases read : f.decode (f.encode a) with
  | none => rfl
  | some b => exact absurd ((f.keptIff a).mp (exact_ a b read ▸ read)) lost

theorem exactOfKept {f : Format α} (kept : ∀ a, f.Kept a) : f.Exact := by
  intro a b read
  rw [(f.keptIff a).mpr (kept a)] at read
  exact (Option.some.inj read).symm

theorem f64Exact : f64.Exact := by
  intro x y read
  change asF64 (Value.ofF64 x) = some y at read
  unfold Value.ofF64 at read
  split at read
  · exact (Option.some.inj read).symm
  · cases read

theorem memberExact (name : String) {f : Format α} (exact_ : f.Exact) : (member name f).Exact := by
  intro a b read
  change (List.lookup name [(name, f.encode a)]).bind f.decode = some b at read
  rw [List.lookup_cons_self] at read
  exact exact_ a b read

theorem optionalExact (name : String) {f : Format α} (exact_ : f.Exact) (written : ∀ a, isNull (f.encode a) = false) :
    (optional name f).Exact := by
  intro o p read
  change readOptional name f [(name, ofOption f o)] = some p at read
  rw [readOptional, List.lookup_cons_self] at read
  cases o with
  | none => exact (Option.some.inj read).symm
  | some a =>
    change asOption f (f.encode a) = some p at read
    rw [asOption, written a] at read
    obtain ⟨b, back, same⟩ := Option.map_eq_some_iff.mp read
    rw [← same, exact_ a b back]

theorem bothExact {first : Fields α} {second : Fields β} (apart : Apart first.names second.names)
    (left : first.Exact) (right : second.Exact) : (first.both second apart).Exact := by
  intro p q read
  obtain ⟨readFirst, readSecond⟩ := bothReads.mp read
  refine Prod.ext (left p.1 q.1 ?_) (right p.2 q.2 ?_)
  · rw [← readFirst]
    refine first.reads _ _ (fun k mine => ?_)
    change _ = List.lookup k (first.encode p.1 ++ second.encode p.2)
    rw [List.lookup_append, second.own p.2 k (apart.notMem mine), Option.or_none]
  · rw [← readSecond]
    refine second.reads _ _ (fun k mine => ?_)
    change _ = List.lookup k (first.encode p.1 ++ second.encode p.2)
    rw [List.lookup_append, first.own p.1 k (fun other => apart.notMem other mine), Option.none_or]

theorem recordExact {fields : Fields α} {split : β → α} {build : α → β} {there : ∀ b, build (split b) = b}
    {back : ∀ a, split (build a) = a} (exact_ : fields.Exact) : (record fields split build there back).Exact := by
  intro a b read
  have same := exact_ (split a) (split b) (recordReads.mp read)
  rw [← there b, same, there]

theorem entriesExact (order : HashMap.Order String α) {f : Format α} (exact_ : f.Exact) : (entries order f).Exact := by
  intro m r read
  have once : ((order.entries m).map Prod.fst).Nodup := by rw [order.entriesKeys]; exact order.nodup m
  obtain ⟨written, kept⟩ := readEntriesAt f (order.entries m) once read
  refine Finmap.ext_lookup (fun key => ?_)
  cases found : m.lookup key with
  | some a =>
    obtain ⟨b, back, there⟩ := written (key, a) ((order.memEntries m key a).mpr found)
    rw [there, exact_ a b back]
  | none =>
    rw [kept key, Finmap.lookup_empty]
    rw [order.entriesKeys, order.complete]
    exact Finmap.lookup_eq_none.mp found

end Exact
end ArosKernel.JsonFormat
