import ArosKernel.Checkpoint

/-! Threads that share one store of `store/engine.rs`. A transaction holds the lock of the
connection from `BEGIN IMMEDIATE` to its drop. Any statement can fail, and SQLite may roll
the open transaction back with it. -/
namespace ArosKernel.Store.Shared
open Transition

-- How a statement ends. After `aborted` no transaction is open.
inductive Fate where
  | done
  | failed (message : String)
  | aborted (message : String)
  deriving DecidableEq, Repr

def Fate.result : Fate → Written
  | .done => .ok ()
  | .failed message => .error (.sqlite message)
  | .aborted message => .error (.sqlite message)

-- The table as the connection sees it, and as it was when the open transaction began.
structure Database where
  conn : Connection
  began : Option Connection

def Database.rolledBack (db : Database) : Database := ⟨db.began.getD db.conn, none⟩

def Database.beginImmediate (db : Database) (fate : Fate) : Written × Database :=
  match db.began, fate with
  | some _, _ => (.error (.sqlite "cannot start a transaction within a transaction"), db)
  | none, .done => (.ok (), ⟨db.conn, some db.conn⟩)
  | none, fate => (fate.result, db)

def Database.commit (db : Database) (fate : Fate) : Written × Database :=
  match db.began, fate with
  | none, _ => (.error (.sqlite "cannot commit - no transaction is active"), db)
  | some _, .done => (.ok (), ⟨db.conn, none⟩)
  | some _, .failed message => (.error (.sqlite message), db)
  | some _, .aborted message => (.error (.sqlite message), db.rolledBack)

inductive Lookup where
  | get (key : String)
  | listKeys (keyPrefix : String)
  | present (key : String)

inductive Found where
  | value (v : Option ByteArray)
  | keys (keys : List String)
  | present (yes : Bool)

inductive Statement where
  | read (lookup : Lookup)
  | write (w : KeyWrite)

inductive Answer where
  | read (r : Except StoreError Found)
  | wrote (r : Written)
  | panicked
  | dropped

def Lookup.answer (scan : Scan) (conn : Connection) : Lookup → Found
  | .get key => .value (conn.kvStore.lookup key)
  | .listKeys keyPrefix => .keys (stateStoreListKeys scan conn keyPrefix)
  | .present key => .present (decide (key ∈ conn.kvStore))

namespace Statement

def answer (scan : Scan) (conn : Connection) : Statement → Fate → Answer
  | .read lookup, .done => .read (.ok (lookup.answer scan conn))
  | .read _, .failed message => .read (.error (.sqlite message))
  | .read _, .aborted message => .read (.error (.sqlite message))
  | .write _, fate => .wrote fate.result

def effect (conn : Connection) : Statement → Connection
  | .read _ => conn
  | .write (.put key value) => conn.put key value
  | .write (.delete key) => conn.delete key

def execute (scan : Scan) (statement : Statement) (db : Database) (fate : Fate) : Answer × Database :=
  (statement.answer scan db.conn fate,
    match fate with
    | .done => { db with conn := statement.effect db.conn }
    | .failed _ => db
    | .aborted _ => db.rolledBack)

end Statement

/- A thread works on the store itself, or on the transaction it has begun: `commit` ends
that one, and so do its drop and a panic of its thread. -/
inductive Call where
  | direct (statement : Statement)
  | checkpoint
  | transaction
  | inside (statement : Statement)
  | commit
  | drop
  | panic

structure SharedStore where
  database : Database
  holder : Option Nat
  poisoned : Bool

namespace SharedStore

-- `self.conn.lock().expect("mutex poisoned")`, which waits for the holder.
def locking (store : SharedStore) (work : Answer × SharedStore) : Option (Answer × SharedStore) :=
  match store.holder with
  | some _ => none
  | none => some (if store.poisoned then (.panicked, store) else work)

def holding (store : SharedStore) (thread : Nat) (work : Answer × SharedStore) : Option (Answer × SharedStore) :=
  if store.holder = some thread then some work else none

def execute (scan : Scan) (store : SharedStore) (statement : Statement) (fate : Fate) : Answer × SharedStore :=
  let (answer, database) := statement.execute scan store.database fate
  (answer, { store with database })

def transaction (store : SharedStore) (thread : Nat) (fate : Fate) : Answer × SharedStore :=
  match store.database.beginImmediate fate with
  | (.ok (), database) => (.wrote (.ok ()), { store with database, holder := some thread })
  | (.error e, database) => (.wrote (.error e), { store with database })

-- The drop of the transaction, then of its guard.
def release (store : SharedStore) (committed : Bool) : SharedStore :=
  { store with database := if committed then store.database else store.database.rolledBack, holder := none }

def commit (store : SharedStore) (fate : Fate) : Answer × SharedStore :=
  match store.database.commit fate with
  | (.ok (), database) => (.wrote (.ok ()), { store with database }.release true)
  | (.error e, database) => (.wrote (.error e), { store with database }.release false)

def call (scan : Scan) (store : SharedStore) (thread : Nat) (fate : Fate) : Call → Option (Answer × SharedStore)
  | .direct statement => store.locking (store.execute scan statement fate)
  | .checkpoint => store.locking (.wrote fate.result, store)
  | .transaction => store.locking (store.transaction thread fate)
  | .inside statement => store.holding thread (store.execute scan statement fate)
  | .commit => store.holding thread (store.commit fate)
  | .drop => store.holding thread (.dropped, store.release false)
  | .panic => store.holding thread (.panicked, { store.release false with poisoned := true })

end SharedStore

structure Event where
  thread : Nat
  call : Call
  answer : Answer

structure Move where
  thread : Nat
  call : Call
  fate : Fate

structure World where
  store : SharedStore
  trace : List Event

def World.opened (rows : Connection) : World := ⟨⟨⟨rows, none⟩, none, false⟩, []⟩

def World.step (scan : Scan) (w : World) (move : Move) : Option World :=
  (w.store.call scan move.thread move.fate move.call).map
    (fun r => ⟨r.2, w.trace ++ [⟨move.thread, move.call, r.1⟩]⟩)

structure Draft where
  statements : List Statement
  adrift : Bool

namespace Draft

def view (table : Connection) (draft : Draft) : Connection := draft.statements.foldl Statement.effect table

def database (table : Connection) (draft : Draft) : Database :=
  ⟨draft.view table, if draft.adrift then none else some table⟩

def next (draft : Draft) : Statement × Fate → Draft
  | (statement, .done) => { draft with statements := draft.statements ++ [statement] }
  | (_, .failed _) => draft
  | (_, .aborted _) => if draft.adrift then draft else ⟨[], true⟩

end Draft

abbrev Body := List (Statement × Fate)

def Body.draft (body : Body) : Draft := body.foldl Draft.next ⟨[], false⟩

inductive Ending where
  | commit (fate : Fate)
  | drop
  | panic
  deriving DecidableEq, Repr

inductive Block where
  | alone (thread : Nat) (call : Call) (fate : Fate)
  | transaction (thread : Nat) (body : Body) (ending : Ending)

namespace Ending

def call : Ending → Call
  | .commit _ => .commit
  | .drop => .drop
  | .panic => .panic

def answer (draft : Draft) : Ending → Answer
  | .commit fate => .wrote (if draft.adrift then .error (.sqlite "cannot commit - no transaction is active") else fate.result)
  | .drop => .dropped
  | .panic => .panicked

def Keeps (draft : Draft) (ending : Ending) : Prop := draft.adrift = true ∨ ending = .commit .done

instance (draft : Draft) (ending : Ending) : Decidable (ending.Keeps draft) := inferInstanceAs (Decidable (_ ∨ _))

end Ending

namespace Block

def kept : Block → List Statement
  | .alone _ (.direct statement) .done => [statement]
  | .alone _ _ _ => []
  | .transaction _ body ending => if ending.Keeps body.draft then body.draft.statements else []

def panics : Block → Bool
  | .alone _ _ _ => false
  | .transaction _ _ ending => ending = .panic

end Block

def kept : List Block → List Statement
  | [] => []
  | block :: rest => block.kept ++ if block.panics then [] else kept rest

def Body.said (scan : Scan) (thread : Nat) (table : Connection) : Draft → Body → List Event
  | _, [] => []
  | draft, (statement, fate) :: rest =>
    ⟨thread, .inside statement, statement.answer scan (draft.view table) fate⟩ ::
      said scan thread table (draft.next (statement, fate)) rest

def Body.begun (scan : Scan) (thread : Nat) (table : Connection) (body : Body) : List Event :=
  ⟨thread, .transaction, .wrote (.ok ())⟩ :: Body.said scan thread table ⟨[], false⟩ body

structure Serial where
  table : Connection
  poisoned : Bool
  trace : List Event

namespace Serial

def opened (rows : Connection) : Serial := ⟨rows, false, []⟩

def alone (scan : Scan) (s : Serial) (fate : Fate) : Call → Option (Answer × Connection)
  | .direct statement =>
    some (if s.poisoned then (.panicked, s.table)
      else (statement.answer scan s.table fate, if fate = .done then statement.effect s.table else s.table))
  | .checkpoint => some (if s.poisoned then .panicked else .wrote fate.result, s.table)
  | .transaction =>
    if s.poisoned then some (.panicked, s.table)
    else if fate = .done then none
    else some (.wrote fate.result, s.table)
  | _ => none

def step (scan : Scan) (s : Serial) : Block → Option Serial
  | .alone thread call fate =>
    (s.alone scan fate call).map
      (fun r => { s with table := r.2, trace := s.trace ++ [⟨thread, call, r.1⟩] })
  | .transaction thread body ending =>
    if s.poisoned then none
    else some
      { table := if ending.Keeps body.draft then body.draft.view s.table else s.table
        poisoned := ending = .panic
        trace := s.trace ++ body.begun scan thread s.table ++ [⟨thread, ending.call, ending.answer body.draft⟩] }

end Serial

/- The store is between two blocks, or one thread is inside a transaction and nobody else
has been heard since it began. -/
inductive Follows (scan : Scan) : World → Serial → Prop where
  | idle (serial : Serial) : Follows scan ⟨⟨⟨serial.table, none⟩, none, serial.poisoned⟩, serial.trace⟩ serial
  | within (serial : Serial) (sound : serial.poisoned = false) (thread : Nat) (body : Body) :
    Follows scan
      ⟨⟨body.draft.database serial.table, some thread, false⟩, serial.trace ++ body.begun scan thread serial.table⟩ serial

variable {scan : Scan}

theorem draftConcat (body : Body) (last : Statement × Fate) : Body.draft (body ++ [last]) = body.draft.next last := by
  rw [Body.draft, List.foldl_append, Body.draft]
  rfl

theorem saidConcat (thread : Nat) (table : Connection) (draft : Draft) (first second : Body) :
    Body.said scan thread table draft (first ++ second) =
      Body.said scan thread table draft first ++ Body.said scan thread table (first.foldl Draft.next draft) second := by
  induction first generalizing draft with
  | nil => rfl
  | cons each rest ih => rw [List.cons_append, Body.said, Body.said, ih, List.cons_append, List.foldl_cons]

theorem begunConcat (thread : Nat) (table : Connection) (body : Body) (statement : Statement) (fate : Fate) :
    Body.begun scan thread table (body ++ [(statement, fate)]) = Body.begun scan thread table body ++
      [⟨thread, .inside statement, statement.answer scan (body.draft.view table) fate⟩] := by
  rw [Body.begun, saidConcat]
  rfl

theorem databaseNext (table : Connection) (draft : Draft) (statement : Statement) (fate : Fate) :
    statement.execute scan (draft.database table) fate =
      (statement.answer scan (draft.view table) fate, (draft.next (statement, fate)).database table) := by
  refine Prod.ext rfl ?_
  cases fate with
  | done =>
    have view : (draft.statements ++ [statement]).foldl Statement.effect table = statement.effect (draft.view table) :=
      List.foldl_append ..
    exact congrArg (fun conn => Database.mk conn _) view.symm
  | failed message => rfl
  | aborted message =>
    show (draft.database table).rolledBack = Draft.database table (if draft.adrift then draft else ⟨[], true⟩)
    cases adrift : draft.adrift with
    | true => simp [Draft.database, Database.rolledBack, adrift]
    | false =>
      simp only [Draft.database, Database.rolledBack, adrift]
      rfl

theorem databaseDropped (table : Connection) {draft : Draft} {ending : Ending} (open_ : ending ≠ .commit .done) :
    (draft.database table).rolledBack = ⟨if ending.Keeps draft then draft.view table else table, none⟩ := by
  have decided : ending.Keeps draft ↔ draft.adrift = true := or_iff_left open_
  cases adrift : draft.adrift with
  | true => simp [Draft.database, Database.rolledBack, decided, adrift]
  | false => simp [Draft.database, Database.rolledBack, decided, adrift]

theorem committing (table : Connection) (draft : Draft) (thread : Nat) (fate : Fate) :
    (SharedStore.mk (draft.database table) (some thread) false).commit fate =
      ((Ending.commit fate).answer draft,
        ⟨⟨if (Ending.commit fate).Keeps draft then draft.view table else table, none⟩, none, false⟩) := by
  cases adrift : draft.adrift with
  | true =>
    have keeps : (Ending.commit fate).Keeps draft := .inl adrift
    simp [SharedStore.commit, Database.commit, SharedStore.release, Database.rolledBack, Draft.database, Ending.answer, adrift,
      keeps]
  | false =>
    cases fate with
    | done =>
      have keeps : (Ending.commit .done).Keeps draft := .inr rfl
      simp [SharedStore.commit, Database.commit, SharedStore.release, Draft.database, Ending.answer, adrift, keeps, Fate.result]
    | failed message =>
      have loses : ¬ (Ending.commit (.failed message)).Keeps draft := by simp [Ending.Keeps, adrift]
      simp [SharedStore.commit, Database.commit, SharedStore.release, Database.rolledBack, Draft.database, Ending.answer,
        adrift, loses, Fate.result]
    | aborted message =>
      have loses : ¬ (Ending.commit (.aborted message)).Keeps draft := by simp [Ending.Keeps, adrift]
      simp [SharedStore.commit, Database.commit, SharedStore.release, Database.rolledBack, Draft.database, Ending.answer,
        adrift, loses, Fate.result]

theorem followsAlone {table table' : Connection} {poisoned : Bool} {trace : List Event} {thread : Nat} {call : Call}
    {answer : Answer} (fate : Fate) (said : (Serial.mk table poisoned trace).alone scan fate call = some (answer, table')) :
    ∃ blocks serial, run (Serial.step scan) ⟨table, poisoned, trace⟩ blocks = some serial ∧
      Follows scan ⟨⟨⟨table', none⟩, none, poisoned⟩, trace ++ [⟨thread, call, answer⟩]⟩ serial := by
  refine ⟨[.alone thread call fate], ⟨table', poisoned, trace ++ [⟨thread, call, answer⟩]⟩, ?_, ?_⟩
  · simp only [run, Serial.step, said, Option.map_some, Option.bind_some]
  · exact .idle ⟨table', poisoned, trace ++ [⟨thread, call, answer⟩]⟩

theorem followsIdle (serial : Serial) (move : Move) (w : World)
    (next : World.step scan ⟨⟨⟨serial.table, none⟩, none, serial.poisoned⟩, serial.trace⟩ move = some w) :
    ∃ blocks serial', run (Serial.step scan) serial blocks = some serial' ∧ Follows scan w serial' := by
  obtain ⟨thread, call, fate⟩ := move
  obtain ⟨table, poisoned, trace⟩ := serial
  cases call with
  | direct statement =>
    cases poisoned with
    | true =>
      cases next
      exact followsAlone fate rfl
    | false =>
      cases fate with
      | done =>
        cases next
        exact followsAlone .done rfl
      | failed message =>
        cases next
        exact followsAlone (.failed message) rfl
      | aborted message =>
        cases next
        exact followsAlone (.aborted message) rfl
  | checkpoint =>
    cases poisoned with
    | true =>
      cases next
      exact followsAlone fate rfl
    | false =>
      cases next
      exact followsAlone fate rfl
  | transaction =>
    cases poisoned with
    | true =>
      cases next
      exact followsAlone fate rfl
    | false =>
      cases fate with
      | done =>
        cases next
        exact ⟨[], ⟨table, false, trace⟩, rfl, .within ⟨table, false, trace⟩ rfl thread []⟩
      | failed message =>
        cases next
        exact followsAlone (.failed message) rfl
      | aborted message =>
        cases next
        exact followsAlone (.aborted message) rfl
  | inside statement => cases next
  | commit => cases next
  | drop => cases next
  | panic => cases next

theorem followsEnded {serial : Serial} (sound : serial.poisoned = false) (thread : Nat) (body : Body) (ending : Ending) :
    ∃ blocks serial', run (Serial.step scan) serial blocks = some serial' ∧
      Follows scan
        ⟨⟨⟨if ending.Keeps body.draft then body.draft.view serial.table else serial.table, none⟩, none, ending = .panic⟩,
          serial.trace ++ body.begun scan thread serial.table ++ [⟨thread, ending.call, ending.answer body.draft⟩]⟩
        serial' := by
  refine ⟨[.transaction thread body ending], ⟨_, _, _⟩, ?_, .idle ⟨_, _, _⟩⟩
  rw [run, Serial.step, sound]
  rfl

theorem followsWithin {serial : Serial} (sound : serial.poisoned = false) {holder : Nat} (body : Body) (move : Move) (w : World)
    (next : World.step scan ⟨⟨body.draft.database serial.table, some holder, false⟩,
      serial.trace ++ body.begun scan holder serial.table⟩ move = some w) :
    ∃ blocks serial', run (Serial.step scan) serial blocks = some serial' ∧ Follows scan w serial' := by
  obtain ⟨thread, call, fate⟩ := move
  have held {work : Answer × SharedStore}
      (moved : (SharedStore.holding ⟨body.draft.database serial.table, some holder, false⟩ thread work).map (fun r => World.mk r.2
        (serial.trace ++ body.begun scan holder serial.table ++ [⟨thread, call, r.1⟩])) = some w) :
      holder = thread ∧ w = ⟨work.2, serial.trace ++ body.begun scan holder serial.table ++ [⟨thread, call, work.1⟩]⟩ := by
    rw [SharedStore.holding] at moved
    split at moved
    · rename_i same
      exact ⟨Option.some.inj same, (Option.some.inj moved).symm⟩
    · cases moved
  cases call with
  | direct statement => cases next
  | checkpoint => cases next
  | transaction => cases next
  | inside statement =>
    obtain ⟨same, moved⟩ := held next
    subst same
    rw [SharedStore.execute, databaseNext] at moved
    rw [moved, ← draftConcat, List.append_assoc, ← begunConcat]
    exact ⟨[], serial, rfl, .within serial sound holder _⟩
  | commit =>
    obtain ⟨same, moved⟩ := held next
    subst same
    rw [committing] at moved
    rw [moved]
    exact followsEnded sound holder body (.commit fate)
  | drop =>
    obtain ⟨same, moved⟩ := held next
    subst same
    rw [SharedStore.release, if_neg (Bool.false_ne_true), @databaseDropped serial.table _ .drop (by decide)] at moved
    rw [moved]
    exact followsEnded sound holder body .drop
  | panic =>
    obtain ⟨same, moved⟩ := held next
    subst same
    rw [SharedStore.release, if_neg (Bool.false_ne_true), @databaseDropped serial.table _ .panic (by decide)] at moved
    rw [moved]
    exact followsEnded sound holder body .panic

theorem follows (w : World) (move : Move) (w' : World) (serial : Serial) (before : Follows scan w serial)
    (next : World.step scan w move = some w') :
    ∃ blocks serial', run (Serial.step scan) serial blocks = some serial' ∧ Follows scan w' serial' := by
  cases before with
  | idle => exact followsIdle serial move w' next
  | within serial sound thread body => exact followsWithin sound body move w' next

theorem aloneTable {s : Serial} {thread : Nat} {call : Call} {fate : Fate} {answer : Answer} {table : Connection}
    (said : s.alone scan fate call = some (answer, table)) :
    table = if s.poisoned then s.table else (Block.alone thread call fate).kept.foldl Statement.effect s.table := by
  cases call with
  | direct statement =>
    cases poisoned : s.poisoned with
    | true =>
      rw [Serial.alone, poisoned] at said
      exact (congrArg Prod.snd (Option.some.inj said)).symm
    | false =>
      rw [Serial.alone, poisoned] at said
      have same := (congrArg Prod.snd (Option.some.inj said)).symm
      cases fate with
      | done => exact same
      | failed message => exact same
      | aborted message => exact same
  | checkpoint =>
    cases said
    exact (ite_self _).symm
  | transaction =>
    have same : table = s.table := by
      have cascade : (if s.poisoned then some (.panicked, s.table)
        else if fate = .done then none else some (.wrote fate.result, s.table)) = some (answer, table) := said
      split at cascade
      · exact (congrArg Prod.snd (Option.some.inj cascade)).symm
      · split at cascade
        · cases cascade
        · exact (congrArg Prod.snd (Option.some.inj cascade)).symm
    rw [same]
    exact (ite_self _).symm
  | inside statement => cases said
  | commit => cases said
  | drop => cases said
  | panic => cases said

theorem stepTable {s t : Serial} {block : Block} (next : s.step scan block = some t) :
    t.table = (if s.poisoned then s.table else block.kept.foldl Statement.effect s.table) ∧
    t.poisoned = (s.poisoned || block.panics) := by
  cases block with
  | alone thread call fate =>
    obtain ⟨⟨answer, table⟩, said, same⟩ := Option.map_eq_some_iff.mp next
    rw [← same]
    exact ⟨aloneTable said, (Bool.or_false _).symm⟩
  | transaction thread body ending =>
    rw [Serial.step] at next
    split at next
    · cases next
    · rename_i sound
      rw [← Option.some.inj next, if_neg sound, Bool.eq_false_of_not_eq_true sound, Block.kept, Block.panics]
      refine ⟨?_, rfl⟩
      split
      · rfl
      · rfl

theorem tablePoisoned {blocks : List Block} {s t : Serial} (poisoned : s.poisoned = true)
    (ran : run (Serial.step scan) s blocks = some t) : t.table = s.table := by
  induction blocks generalizing s with
  | nil => exact congrArg Serial.table (Option.some.inj ran).symm
  | cons block rest ih =>
    obtain ⟨u, next, ran⟩ := runCons.mp ran
    obtain ⟨table, after⟩ := stepTable next
    rw [poisoned, Bool.true_or] at after
    rw [if_pos poisoned] at table
    rw [ih after ran, table]

theorem tableKept {blocks : List Block} {s t : Serial} (sound : s.poisoned = false)
    (ran : run (Serial.step scan) s blocks = some t) : t.table = (kept blocks).foldl Statement.effect s.table := by
  induction blocks generalizing s with
  | nil => exact congrArg Serial.table (Option.some.inj ran).symm
  | cons block rest ih =>
    obtain ⟨u, next, ran⟩ := runCons.mp ran
    obtain ⟨table, after⟩ := stepTable next
    rw [sound, Bool.false_or] at after
    rw [sound, if_neg Bool.false_ne_true] at table
    rw [kept, List.foldl_append, ← table]
    cases panics : block.panics with
    | true => exact tablePoisoned (after.trans panics) ran
    | false => exact ih (after.trans panics) ran

theorem transactionsSerial {rows : Connection} {w : World} (reached : Reachable (World.step scan) (World.opened rows) w) :
    ∃ blocks serial, run (Serial.step scan) (Serial.opened rows) blocks = some serial ∧ Follows scan w serial ∧
      serial.table = (kept blocks).foldl Statement.effect rows := by
  obtain ⟨serial, ⟨blocks, ran⟩, like⟩ := reachableSimulated follows (.idle (Serial.opened rows)) reached
  exact ⟨blocks, serial, ran, like, tableKept rfl ran⟩

def contested : World :=
  (run (World.step .sorted) (World.opened ⟨∅⟩)
    [⟨1, .transaction, .done⟩, ⟨1, .inside (.write (.put "/task/t1" .empty)), .done⟩,
      ⟨1, .commit, .failed "database is locked"⟩, ⟨2, .direct (.read (.get "/task/t1")), .done⟩,
      ⟨2, .transaction, .done⟩, ⟨2, .inside (.write (.put "/task/t2" .empty)), .done⟩]).getD (World.opened ⟨∅⟩)

theorem contestedReached : Reachable (World.step .sorted) (World.opened ⟨∅⟩) contested := reachableEnd (by decide +kernel)

theorem transactionsSerialContested : ∃ blocks serial,
    run (Serial.step .sorted) (Serial.opened ⟨∅⟩) blocks = some serial ∧ Follows .sorted contested serial ∧
      serial.table = (kept blocks).foldl Statement.effect ⟨∅⟩ :=
  transactionsSerial contestedReached

end ArosKernel.Store.Shared
