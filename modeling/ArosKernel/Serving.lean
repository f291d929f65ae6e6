import ArosKernel.Interleaving
import Mathlib.Data.List.Nodup

/-! Connections served over interleaved parties. The task of a connection takes its lines
in their order and one at a time. A line is answered at once or by a party of its own, and
its answer is written before the next line is taken. -/
namespace ArosKernel.Serving
open Transition Interleaving

structure Server (σ α φ ι Line Out : Type) where
  system : System σ α φ ι
  begins : Line → Out ⊕ φ
  finish : Line → φ → Option Out

-- `tickets` has an entry for each line taken: the party that answers it, if it needs one.
structure Connection (Line Out : Type) where
  arrived : List Line
  tickets : List (Option Nat)
  written : List Out
  live : Bool

structure Net (σ α φ Line Out : Type) where
  world : World σ α φ
  connections : List (Connection Line Out)
  stopped : Bool

inductive Event (α ι Line : Type) where
  | outside (act : α)
  | connect
  | arrive (i : Nat) (line : Line)
  | take (i : Nat)
  | advance (i : Nat) (choice : ι)
  | reply (i : Nat) (heard : Bool)
  | close (i : Nat)
  | stop

def Event.own {α ι Line : Type} (i : Nat) (e : Event α ι Line) : Prop :=
  e = .reply i true ∨ ∃ choice, e = .advance i choice

namespace Connection
variable {Line Out : Type}

def opened : Connection Line Out := ⟨[], [], [], true⟩

def idle (c : Connection Line Out) : Bool := c.tickets.length = c.written.length

def held (c : Connection Line Out) : List Nat := c.tickets.filterMap id

def current (c : Connection Line Out) : Option (Option Nat) := c.tickets[c.written.length]?

end Connection

variable {σ α φ ι Line Out ω : Type}

theorem concatAt {β : Type} {l : List β} {a b : β} {j : Nat} (at_ : (l ++ [a])[j]? = some b) :
    l[j]? = some b ∨ (j = l.length ∧ b = a) := by
  by_cases old : j < l.length
  · rw [List.getElem?_append_left old] at at_
    exact .inl at_
  · rw [List.getElem?_append_right (Nat.not_lt.mp old), List.getElem?_singleton] at at_
    split at at_
    · cases at_
      exact .inr ⟨by omega, rfl⟩
    · contradiction

namespace Net

def start (s : σ) : Net σ α φ Line Out := ⟨World.start s, [], false⟩

def put (net : Net σ α φ Line Out) (i : Nat) (c : Connection Line Out) : Net σ α φ Line Out :=
  { net with connections := net.connections.set i c }

end Net

namespace Server
variable (S : Server σ α φ ι Line Out)

def answer (w : World σ α φ) (line : Line) : Option Nat → Option Out
  | none => (S.begins line).getLeft?
  | some p => w.parties[p]?.bind (S.finish line)

def step (net : Net σ α φ Line Out) : Event α ι Line → Option (Net σ α φ Line Out)
  | .outside act => do
    let world ← S.system.step net.world (.outside act)
    some { net with world }
  | .connect => if net.stopped then none else some { net with connections := net.connections ++ [.opened] }
  | .arrive i line => do
    let c ← net.connections[i]?
    some (net.put i { c with arrived := c.arrived ++ [line] })
  | .take i => do
    let c ← net.connections[i]?
    if c.live && c.idle then
      let line ← c.arrived[c.tickets.length]?
      match S.begins line with
      | .inl _ => some (net.put i { c with tickets := c.tickets ++ [none] })
      | .inr party => do
        let world ← S.system.step net.world (.enter party)
        some { net.put i { c with tickets := c.tickets ++ [some net.world.parties.length] } with world }
    else none
  | .advance i choice => do
    let c ← net.connections[i]?
    if c.live then
      let p ← c.current.join
      let world ← S.system.step net.world (.advance p choice)
      some { net with world }
    else none
  | .reply i heard => do
    let c ← net.connections[i]?
    if c.live then
      let line ← c.arrived[c.written.length]?
      let ticket ← c.current
      let out ← S.answer net.world line ticket
      -- When the peer no longer reads, the answer is lost and the task ends.
      some (net.put i (if heard then { c with written := c.written ++ [out] } else { c with live := false }))
    else none
  | .close i => do
    let c ← net.connections[i]?
    if c.live && c.idle then some (net.put i { c with live := false }) else none
  | .stop => some { net with stopped := true }

structure Lawful (origin : φ → ω) (left : φ → Nat) : Prop where
  fresh : ∀ line party, S.begins line = .inr party → S.system.fresh party = true
  origin : ∀ choice s party party' acts, S.system.advance choice s party = some (party', acts) → origin party' = origin party
  halts : ∀ line out choice s party, S.finish line party = some out → S.system.advance choice s party = none
  goes : ∀ line s party, S.finish line party = none →
    ∃ choice party' acts, S.system.advance choice s party = some (party', acts) ∧ left party' < left party

def Holds (origin : φ → ω) (w : World σ α φ) (line : Line) (ticket : Option Nat) : Prop :=
  match S.begins line with
  | .inl _ => ticket = none
  | .inr fresh => ∃ p party, ticket = some p ∧ w.parties[p]? = some party ∧ origin party = origin fresh

structure Orderly (origin : φ → ω) (w : World σ α φ) (c : Connection Line Out) : Prop where
  written : c.written.length ≤ c.tickets.length
  ahead : c.tickets.length ≤ c.written.length + 1
  taken : c.tickets.length ≤ c.arrived.length
  holds : ∀ (j : Nat) line ticket, c.arrived[j]? = some line → c.tickets[j]? = some ticket → S.Holds origin w line ticket
  answers : ∀ (j : Nat) line ticket out, c.arrived[j]? = some line → c.tickets[j]? = some ticket → c.written[j]? = some out →
    S.answer w line ticket = some out
  -- A task that has ended was not waiting for a party.
  ended : c.live = false → ∀ line ticket, c.arrived[c.written.length]? = some line → c.current = some ticket →
    ∃ out, S.answer w line ticket = some out

structure Sound (origin : φ → ω) (start : σ) (net : Net σ α φ Line Out) : Prop where
  reached : Reachable S.system.step (World.start start) net.world
  orderly : ∀ c ∈ net.connections, S.Orderly origin net.world c
  tickets : (net.connections.flatMap Connection.held).Perm (List.range net.world.parties.length)

variable {S}

theorem Lawful.keptParty {origin : φ → ω} {left : φ → Nat} (lawful : S.Lawful origin left) {w w' : World σ α φ}
    {move : Move α φ ι} (next : S.system.step w move = some w') {p : Nat} {party : φ} (here : w.parties[p]? = some party) :
    ∃ party', w'.parties[p]? = some party' ∧ origin party' = origin party ∧
      ∀ line out, S.finish line party = some out → party' = party := by
  have inside := (List.getElem?_eq_some_iff.mp here).1
  cases move with
  | outside act =>
    simp only [System.step, Option.ite_none_right_eq_some, Option.some.injEq] at next
    rw [← next.2]
    exact ⟨party, here, rfl, fun _ _ _ => rfl⟩
  | enter fresh =>
    simp only [System.step, Option.ite_none_right_eq_some, Option.some.injEq] at next
    rw [← next.2]
    exact ⟨party, (List.getElem?_append_left inside).trans here, rfl, fun _ _ _ => rfl⟩
  | advance q choice =>
    simp only [System.step, Option.bind_eq_bind, Option.bind_eq_some_iff, Prod.exists, Option.some.injEq] at next
    obtain ⟨mover, there, mover', acts, advanced, same⟩ := next
    rw [← same]
    by_cases moved : q = p
    · subst moved
      cases here.symm.trans there
      refine ⟨mover', List.getElem?_set_self inside, lawful.origin _ _ _ _ _ advanced, fun line out done => ?_⟩
      rw [lawful.halts line out choice w.shared party done] at advanced
      contradiction
    · exact ⟨party, (List.getElem?_set_ne moved).trans here, rfl, fun _ _ _ => rfl⟩

theorem Lawful.keptAnswer {origin : φ → ω} {left : φ → Nat} (lawful : S.Lawful origin left) {w w' : World σ α φ}
    {move : Move α φ ι} (next : S.system.step w move = some w') {line : Line} {ticket : Option Nat} {out : Out}
    (answered : S.answer w line ticket = some out) : S.answer w' line ticket = some out := by
  cases ticket with
  | none => exact answered
  | some p =>
    obtain ⟨party, here, done⟩ := Option.bind_eq_some_iff.mp answered
    obtain ⟨party', there, _, same⟩ := lawful.keptParty next here
    exact Option.bind_eq_some_iff.mpr ⟨party', there, same line out done ▸ done⟩

theorem Lawful.keptHolds {origin : φ → ω} {left : φ → Nat} (lawful : S.Lawful origin left) {w w' : World σ α φ}
    {move : Move α φ ι} (next : S.system.step w move = some w') {line : Line} {ticket : Option Nat}
    (holds : S.Holds origin w line ticket) : S.Holds origin w' line ticket := by
  unfold Holds at holds ⊢
  cases begun : S.begins line with
  | inl out =>
    rw [begun] at holds
    exact holds
  | inr fresh =>
    rw [begun] at holds
    obtain ⟨p, party, same, here, from_⟩ := holds
    obtain ⟨party', there, kept, _⟩ := lawful.keptParty next here
    exact ⟨p, party', same, there, kept.trans from_⟩

theorem Lawful.keptOrderly {origin : φ → ω} {left : φ → Nat} (lawful : S.Lawful origin left) {w w' : World σ α φ}
    {move : Move α φ ι} (next : S.system.step w move = some w') {c : Connection Line Out} (orderly : S.Orderly origin w c) :
    S.Orderly origin w' c where
  written := orderly.written
  ahead := orderly.ahead
  taken := orderly.taken
  holds j line ticket arrived ticketed := lawful.keptHolds next (orderly.holds j line ticket arrived ticketed)
  answers j line ticket out arrived ticketed written :=
    lawful.keptAnswer next (orderly.answers j line ticket out arrived ticketed written)
  ended gone line ticket arrived current := by
    obtain ⟨out, answered⟩ := orderly.ended gone line ticket arrived current
    exact ⟨out, lawful.keptAnswer next answered⟩

namespace Orderly
variable {origin : φ → ω} {w : World σ α φ} {c : Connection Line Out}

theorem opened : S.Orderly origin w (Connection.opened : Connection Line Out) :=
  ⟨Nat.le_refl 0, Nat.zero_le 1, Nat.le_refl 0, by simp [Connection.opened], by simp [Connection.opened],
    by simp [Connection.opened]⟩

theorem arrive (orderly : S.Orderly origin w c) (line : Line) :
    S.Orderly origin w { c with arrived := c.arrived ++ [line] } := by
  obtain ⟨written, ahead, taken, holds, answers, ended⟩ := orderly
  have before : ∀ (j : Nat) ticket, c.tickets[j]? = some ticket → (c.arrived ++ [line])[j]? = c.arrived[j]? := by
    intro j ticket ticketed
    have inside := (List.getElem?_eq_some_iff.mp ticketed).1
    exact List.getElem?_append_left (Nat.lt_of_lt_of_le inside taken)
  refine ⟨written, ahead, ?_, fun j at_ ticket arrived ticketed => ?_, fun j at_ ticket out arrived ticketed => ?_,
    fun gone at_ ticket arrived ticketed => ?_⟩
  · rw [List.length_append]
    exact Nat.le_add_right_of_le taken
  · exact holds j at_ ticket ((before j ticket ticketed).symm.trans arrived) ticketed
  · exact answers j at_ ticket out ((before j ticket ticketed).symm.trans arrived) ticketed
  · exact ended gone at_ ticket ((before _ ticket ticketed).symm.trans arrived) ticketed

theorem take (orderly : S.Orderly origin w c) (live : c.live = true) (idle : c.idle = true) {line : Line}
    (next : c.arrived[c.tickets.length]? = some line) {ticket : Option Nat} (fits : S.Holds origin w line ticket) :
    S.Orderly origin w { c with tickets := c.tickets ++ [ticket] } := by
  obtain ⟨written, ahead, taken, holds, answers, ended⟩ := orderly
  have even : c.tickets.length = c.written.length := of_decide_eq_true idle
  have room := (List.getElem?_eq_some_iff.mp next).1
  refine ⟨?_, ?_, ?_, fun j at_ other arrived ticketed => ?_, fun j at_ other out arrived ticketed spoken => ?_,
    fun gone => absurd live (Bool.eq_false_iff.mp gone)⟩
  · rw [List.length_append, List.length_singleton]
    exact Nat.le_succ_of_le written
  · exact Nat.le_of_eq (List.length_append.trans (congrArg (· + 1) even))
  · rw [List.length_append, List.length_singleton]
    exact room
  · rcases concatAt ticketed with old | ⟨last, same⟩
    · exact holds j at_ other arrived old
    · subst last same
      rw [next] at arrived
      cases arrived
      exact fits
  · have earlier := (List.getElem?_eq_some_iff.mp spoken).1
    rw [List.getElem?_append_left (even ▸ earlier)] at ticketed
    exact answers j at_ other out arrived ticketed spoken

theorem reply (orderly : S.Orderly origin w c) {line : Line} (served : c.arrived[c.written.length]? = some line)
    {ticket : Option Nat} (current : c.current = some ticket) (live : c.live = true) {out : Out}
    (answered : S.answer w line ticket = some out) :
    S.Orderly origin w { c with written := c.written ++ [out] } := by
  obtain ⟨written, ahead, taken, holds, answers, ended⟩ := orderly
  have busy := (List.getElem?_eq_some_iff.mp current).1
  refine ⟨?_, ?_, taken, holds, fun j at_ other said arrived ticketed spoken => ?_,
    fun gone => absurd live (Bool.eq_false_iff.mp gone)⟩
  · rw [List.length_append, List.length_singleton]
    exact busy
  · rw [List.length_append, List.length_singleton]
    exact Nat.le_succ_of_le ahead
  · rcases concatAt spoken with old | ⟨last, same⟩
    · exact answers j at_ other said arrived ticketed old
    · subst last same
      cases served.symm.trans arrived
      cases current.symm.trans ticketed
      exact answered

theorem lose (orderly : S.Orderly origin w c) {line : Line} (served : c.arrived[c.written.length]? = some line)
    {ticket : Option Nat} (current : c.current = some ticket) {out : Out}
    (answered : S.answer w line ticket = some out) : S.Orderly origin w { c with live := false } := by
  obtain ⟨written, ahead, taken, holds, answers, ended⟩ := orderly
  refine ⟨written, ahead, taken, holds, answers, fun gone at_ other arrived ticketed => ?_⟩
  cases served.symm.trans arrived
  cases current.symm.trans ticketed
  exact ⟨out, answered⟩

theorem close (orderly : S.Orderly origin w c) (idle : c.idle = true) : S.Orderly origin w { c with live := false } := by
  obtain ⟨written, ahead, taken, holds, answers, ended⟩ := orderly
  refine ⟨written, ahead, taken, holds, answers, fun gone at_ other arrived ticketed => ?_⟩
  have busy := (List.getElem?_eq_some_iff.mp ticketed).1
  have even : c.tickets.length = c.written.length := of_decide_eq_true idle
  exact absurd even (Nat.ne_of_gt busy)

end Orderly

theorem heldSet {connections : List (Connection Line Out)} {i : Nat} {c c' : Connection Line Out} {more : List Nat}
    (here : connections[i]? = some c) (grown : c'.held = c.held ++ more) :
    ((connections.set i c').flatMap Connection.held).Perm (connections.flatMap Connection.held ++ more) := by
  induction connections generalizing i with
  | nil => contradiction
  | cons first rest ih =>
    cases i with
    | zero =>
      cases here
      rw [List.set_cons_zero, List.flatMap_cons, List.flatMap_cons, grown, List.append_assoc, List.append_assoc]
      exact List.Perm.append_left _ List.perm_append_comm
    | succ i =>
      rw [List.set_cons_succ, List.flatMap_cons, List.flatMap_cons, List.append_assoc]
      exact List.Perm.append_left _ (ih here)

theorem heldSame {connections : List (Connection Line Out)} {i : Nat} {c c' : Connection Line Out}
    (here : connections[i]? = some c) (same : c'.held = c.held) :
    ((connections.set i c').flatMap Connection.held).Perm (connections.flatMap Connection.held) := by
  have grown := heldSet here (show c'.held = c.held ++ [] by rw [same, List.append_nil])
  rw [List.append_nil] at grown
  exact grown

theorem heldConcat (c : Connection Line Out) (ticket : Option Nat) :
    Connection.held { c with tickets := c.tickets ++ [ticket] } = c.held ++ ticket.toList := by
  cases ticket <;> simp [Connection.held]

theorem advanceSize {w w' : World σ α φ} {p : Nat} {choice : ι} (next : S.system.step w (.advance p choice) = some w') :
    w'.parties.length = w.parties.length := by
  simp only [System.step, Option.bind_eq_bind, Option.bind_eq_some_iff, Prod.exists, Option.some.injEq] at next
  obtain ⟨party, here, party', acts, advanced, same⟩ := next
  rw [← same, List.length_set]

theorem outsideSize {w w' : World σ α φ} {act : α} (next : S.system.step w (.outside act) = some w') :
    w'.parties.length = w.parties.length := by
  simp only [System.step, Option.ite_none_right_eq_some, Option.some.injEq] at next
  rw [← next.2]

theorem enterParties {w w' : World σ α φ} {party : φ} (next : S.system.step w (.enter party) = some w') :
    w'.parties = w.parties ++ [party] := by
  simp only [System.step, Option.ite_none_right_eq_some, Option.some.injEq] at next
  rw [← next.2]

theorem reachedNext {start : σ} {w w' : World σ α φ} {move : Move α φ ι}
    (reached : Reachable S.system.step (World.start start) w) (next : S.system.step w move = some w') :
    Reachable S.system.step (World.start start) w' := by
  obtain ⟨moves, ran⟩ := reached
  refine ⟨moves ++ [move], ?_⟩
  rw [runConcat, ran]
  exact runCons.mpr ⟨w', next, rfl⟩

/- One constructor for each way an event can go through, with all that was checked for it. -/
inductive Happens (S : Server σ α φ ι Line Out) (net : Net σ α φ Line Out) :
    Event α ι Line → Net σ α φ Line Out → Prop where
  | outside {act : α} {world : World σ α φ} (moved : S.system.step net.world (.outside act) = some world) :
    Happens S net (.outside act) { net with world }
  | connect (accepting : net.stopped = false) :
    Happens S net .connect { net with connections := net.connections ++ [.opened] }
  | arrive {i : Nat} {c : Connection Line Out} (line : Line) (here : net.connections[i]? = some c) :
    Happens S net (.arrive i line) (net.put i { c with arrived := c.arrived ++ [line] })
  | direct {i : Nat} {c : Connection Line Out} {line : Line} {out : Out} (here : net.connections[i]? = some c)
    (live : c.live = true) (idle : c.idle = true) (waiting : c.arrived[c.tickets.length]? = some line)
    (begun : S.begins line = .inl out) : Happens S net (.take i) (net.put i { c with tickets := c.tickets ++ [none] })
  | enter {i : Nat} {c : Connection Line Out} {line : Line} {party : φ} {world : World σ α φ}
    (here : net.connections[i]? = some c) (live : c.live = true) (idle : c.idle = true)
    (waiting : c.arrived[c.tickets.length]? = some line) (begun : S.begins line = .inr party)
    (entered : S.system.step net.world (.enter party) = some world) :
    Happens S net (.take i)
      { net.put i { c with tickets := c.tickets ++ [some net.world.parties.length] } with world }
  | advance {i p : Nat} {c : Connection Line Out} {choice : ι} {world : World σ α φ}
    (here : net.connections[i]? = some c) (current : c.current = some (some p))
    (moved : S.system.step net.world (.advance p choice) = some world) :
    Happens S net (.advance i choice) { net with world }
  | reply {i : Nat} {c : Connection Line Out} {line : Line} {ticket : Option Nat} {out : Out} (heard : Bool)
    (here : net.connections[i]? = some c) (live : c.live = true) (served : c.arrived[c.written.length]? = some line)
    (current : c.current = some ticket) (answered : S.answer net.world line ticket = some out) :
    Happens S net (.reply i heard)
      (net.put i (if heard then { c with written := c.written ++ [out] } else { c with live := false }))
  | close {i : Nat} {c : Connection Line Out} (here : net.connections[i]? = some c) (idle : c.idle = true) :
    Happens S net (.close i) (net.put i { c with live := false })
  | stop : Happens S net .stop { net with stopped := true }

theorem stepHappens {net net' : Net σ α φ Line Out} {event : Event α ι Line} (next : S.step net event = some net') :
    Happens S net event net' := by
  cases event with
  | outside act =>
    obtain ⟨world, moved, same⟩ := Option.bind_eq_some_iff.mp next
    cases same
    exact .outside moved
  | connect =>
    simp only [Server.step, Option.ite_none_left_eq_some, Option.some.injEq, Bool.not_eq_true] at next
    rw [← next.2]
    exact .connect next.1
  | arrive i line =>
    obtain ⟨c, here, same⟩ := Option.bind_eq_some_iff.mp next
    cases same
    exact .arrive line here
  | take i =>
    obtain ⟨c, here, next⟩ := Option.bind_eq_some_iff.mp next
    simp only [Option.ite_none_right_eq_some, Bool.and_eq_true] at next
    obtain ⟨⟨live, idle⟩, next⟩ := next
    obtain ⟨line, waiting, next⟩ := Option.bind_eq_some_iff.mp next
    cases begun : S.begins line with
    | inl out =>
      rw [begun] at next
      cases next
      exact .direct here live idle waiting begun
    | inr party =>
      rw [begun] at next
      obtain ⟨world, entered, same⟩ := Option.bind_eq_some_iff.mp next
      cases same
      exact .enter here live idle waiting begun entered
  | advance i choice =>
    obtain ⟨c, here, next⟩ := Option.bind_eq_some_iff.mp next
    simp only [Option.ite_none_right_eq_some] at next
    obtain ⟨p, ticket, next⟩ := Option.bind_eq_some_iff.mp next.2
    obtain ⟨world, moved, same⟩ := Option.bind_eq_some_iff.mp next
    cases same
    exact .advance here (Option.join_eq_some_iff.mp ticket) moved
  | reply i heard =>
    obtain ⟨c, here, next⟩ := Option.bind_eq_some_iff.mp next
    simp only [Option.ite_none_right_eq_some] at next
    obtain ⟨live, next⟩ := next
    obtain ⟨line, served, next⟩ := Option.bind_eq_some_iff.mp next
    obtain ⟨ticket, current, next⟩ := Option.bind_eq_some_iff.mp next
    obtain ⟨out, answered, same⟩ := Option.bind_eq_some_iff.mp next
    cases same
    exact .reply heard here live served current answered
  | close i =>
    obtain ⟨c, here, next⟩ := Option.bind_eq_some_iff.mp next
    simp only [Option.ite_none_right_eq_some, Bool.and_eq_true, Option.some.injEq] at next
    obtain ⟨⟨live, idle⟩, same⟩ := next
    cases same
    exact .close here idle
  | stop =>
    cases next
    exact .stop

/- A step on the connections is a step of the world, or leaves it alone; a party advances by
the connection whose line it answers. -/
theorem stepWorld {net net' : Net σ α φ Line Out} {event : Event α ι Line} (next : S.step net event = some net') :
    net'.world = net.world ∨ ∃ move, S.system.step net.world move = some net'.world ∧
      ∀ p choice, move = .advance p choice → ∃ (i : Nat) (c : Connection Line Out), event = .advance i choice ∧
        net.connections[i]? = some c ∧ c.current = some (some p) := by
  cases stepHappens next with
  | outside moved => exact .inr ⟨_, moved, fun p choice other => by cases other⟩
  | enter _ _ _ _ _ entered => exact .inr ⟨_, entered, fun p choice other => by cases other⟩
  | advance here current moved =>
    refine .inr ⟨_, moved, fun q other same => ?_⟩
    cases same
    exact ⟨_, _, rfl, here, current⟩
  | _ => exact .inl rfl

section
variable {origin : φ → ω} {left : φ → Nat} {start : σ} {net net' : Net σ α φ Line Out}

theorem Sound.initial : S.Sound origin start (Net.start start) :=
  ⟨⟨[], rfl⟩, fun _ member => absurd member List.not_mem_nil, List.Perm.refl []⟩

theorem Sound.moved (lawful : S.Lawful origin left) (sound : S.Sound origin start net) {world : World σ α φ}
    {move : Move α φ ι} (next : S.system.step net.world move = some world)
    (size : world.parties.length = net.world.parties.length) : S.Sound origin start { net with world } where
  reached := reachedNext sound.reached next
  orderly _ member := lawful.keptOrderly next (sound.orderly _ member)
  tickets := by
    rw [size]
    exact sound.tickets

theorem Sound.put (sound : S.Sound origin start net) {i : Nat} {c c' : Connection Line Out}
    (here : net.connections[i]? = some c) (same : c'.held = c.held) (orderly : S.Orderly origin net.world c') :
    S.Sound origin start (net.put i c') where
  reached := sound.reached
  orderly d member := by
    rcases List.mem_or_eq_of_mem_set member with old | new
    · exact sound.orderly d old
    · exact new ▸ orderly
  tickets := (heldSame here same).trans sound.tickets

theorem Sound.enter (lawful : S.Lawful origin left) (sound : S.Sound origin start net) {i : Nat}
    {c : Connection Line Out} (here : net.connections[i]? = some c) (live : c.live = true) (idle : c.idle = true)
    {line : Line} (next : c.arrived[c.tickets.length]? = some line) {party : φ} (begun : S.begins line = .inr party)
    {world : World σ α φ} (entered : S.system.step net.world (.enter party) = some world) :
    S.Sound origin start
      { net.put i { c with tickets := c.tickets ++ [some net.world.parties.length] } with world } where
  reached := reachedNext sound.reached entered
  orderly d member := by
    rcases List.mem_or_eq_of_mem_set member with old | new
    · exact lawful.keptOrderly entered (sound.orderly d old)
    · subst new
      refine (lawful.keptOrderly entered (sound.orderly c (List.mem_of_getElem? here))).take live idle next ?_
      rw [Holds, begun]
      refine ⟨_, party, rfl, ?_, rfl⟩
      rw [enterParties entered, List.getElem?_concat_length]
  tickets := by
    have grown := heldSet here (heldConcat c (some net.world.parties.length))
    rw [enterParties entered, List.length_append, List.length_singleton, List.range_succ]
    exact grown.trans (sound.tickets.append_right _)

theorem Sound.step (lawful : S.Lawful origin left) (event : Event α ι Line) (sound : S.Sound origin start net)
    (next : S.step net event = some net') : S.Sound origin start net' := by
  have orderly {i : Nat} {c : Connection Line Out} (here : net.connections[i]? = some c) : S.Orderly origin net.world c :=
    sound.orderly c (List.mem_of_getElem? here)
  cases stepHappens next with
  | outside moved => exact sound.moved lawful moved (outsideSize moved)
  | connect =>
    refine ⟨sound.reached, fun c member => ?_, ?_⟩
    · rcases List.mem_append.mp member with old | new
      · exact sound.orderly c old
      · rw [List.mem_singleton.mp new]
        exact .opened
    · have none_ : [(Connection.opened : Connection Line Out)].flatMap Connection.held = [] := rfl
      rw [List.flatMap_append, none_, List.append_nil]
      exact sound.tickets
  | arrive line here => exact sound.put here rfl ((orderly here).arrive line)
  | direct here live idle waiting begun =>
    refine sound.put here ?_ ((orderly here).take live idle waiting ?_)
    · rw [heldConcat, Option.toList_none, List.append_nil]
    · rw [Holds, begun]
  | enter here live idle waiting begun entered => exact sound.enter lawful here live idle waiting begun entered
  | advance here current moved => exact sound.moved lawful moved (advanceSize moved)
  | reply heard here live served current answered =>
    cases heard with
    | true => exact sound.put here rfl ((orderly here).reply served current live answered)
    | false => exact sound.put here rfl ((orderly here).lose served current answered)
  | close here idle => exact sound.put here rfl ((orderly here).close idle)
  | stop => exact ⟨sound.reached, sound.orderly, sound.tickets⟩

theorem Lawful.sound (lawful : S.Lawful origin left) (reached : Reachable S.step (Net.start start) net) :
    S.Sound origin start net :=
  reachableInvariant (fun _ event _ sound next => Sound.step lawful event sound next) Sound.initial reached

theorem heldAt {connections : List (Connection Line Out)} {p : Nat} :
    p ∈ connections.flatMap Connection.held ↔
      ∃ (i : Nat) (c : Connection Line Out) (j : Nat), connections[i]? = some c ∧ c.tickets[j]? = some (some p) := by
  simp only [List.mem_flatMap, Connection.held, List.mem_filterMap, id, exists_eq_right]
  constructor
  · rintro ⟨c, member, ticketed⟩
    obtain ⟨i, here⟩ := List.getElem?_of_mem member
    obtain ⟨j, there⟩ := List.getElem?_of_mem ticketed
    exact ⟨i, c, j, here, there⟩
  · rintro ⟨i, c, j, here, there⟩
    exact ⟨c, List.mem_of_getElem? here, List.mem_of_getElem? there⟩

theorem heldOnce {tickets : List (Option Nat)} (once : (tickets.filterMap id).Nodup) {p j k : Nat}
    (first : tickets[j]? = some (some p)) (second : tickets[k]? = some (some p)) : j = k := by
  induction tickets generalizing j k with
  | nil => contradiction
  | cons ticket rest ih =>
    have tail : (rest.filterMap id).Nodup := once.sublist ((List.sublist_cons_self ticket rest).filterMap id)
    have absent : ∀ n : Nat, rest[n]? = some (some p) → ticket ≠ some p := by
      intro n at_ same
      rw [same] at once
      have once : (p :: rest.filterMap id).Nodup := once
      exact (List.nodup_cons.mp once).1 (List.mem_filterMap.mpr ⟨some p, List.mem_of_getElem? at_, rfl⟩)
    cases j with
    | zero =>
      cases k with
      | zero => rfl
      | succ k => exact absurd (Option.some.inj first) (absent k second)
    | succ j =>
      cases k with
      | zero => exact absurd (Option.some.inj second) (absent j first)
      | succ k => exact congrArg Nat.succ (ih tail first second)

theorem Sound.ticketOnce (sound : S.Sound origin start net) {i i' j j' p : Nat} {c c' : Connection Line Out}
    (here : net.connections[i]? = some c) (there : net.connections[i']? = some c')
    (first : c.tickets[j]? = some (some p)) (second : c'.tickets[j']? = some (some p)) : i = i' ∧ j = j' := by
  obtain ⟨each, apart⟩ := List.nodup_flatMap.mp (sound.tickets.nodup_iff.mpr List.nodup_range)
  have held : p ∈ c.held := List.mem_filterMap.mpr ⟨some p, List.mem_of_getElem? first, rfl⟩
  have held' : p ∈ c'.held := List.mem_filterMap.mpr ⟨some p, List.mem_of_getElem? second, rfl⟩
  obtain ⟨inside, same⟩ := List.getElem?_eq_some_iff.mp here
  obtain ⟨inside', same'⟩ := List.getElem?_eq_some_iff.mp there
  have apart := List.pairwise_iff_getElem.mp apart
  rcases Nat.lt_trichotomy i i' with less | equal | more
  · have clash := apart i i' inside inside' less
    rw [same, same'] at clash
    exact absurd held' (clash held)
  · subst equal
    cases here.symm.trans there
    exact ⟨rfl, heldOnce (each c (List.mem_of_getElem? here)) first second⟩
  · have clash := apart i' i inside' inside more
    rw [same, same'] at clash
    exact absurd held (clash held')

theorem Sound.waited (sound : S.Sound origin start net) {p : Nat} {party : φ}
    (here : net.world.parties[p]? = some party) (unfinished : ∀ line, S.finish line party = none) :
    ∃ (i : Nat) (c : Connection Line Out), net.connections[i]? = some c ∧ c.live = true ∧ c.current = some (some p) := by
  have inside := (List.getElem?_eq_some_iff.mp here).1
  obtain ⟨i, c, j, there, ticketed⟩ := heldAt.mp (sound.tickets.mem_iff.mpr (List.mem_range.mpr inside))
  have orderly := sound.orderly c (List.mem_of_getElem? there)
  have size := (List.getElem?_eq_some_iff.mp ticketed).1
  obtain ⟨line, arrived⟩ : ∃ line, c.arrived[j]? = some line :=
    ⟨_, List.getElem?_eq_getElem (Nat.lt_of_lt_of_le size orderly.taken)⟩
  have silent : ∀ out, S.answer net.world line (some p) ≠ some out := by
    intro out answered
    rw [Server.answer, here, Option.bind_some, unfinished line] at answered
    contradiction
  have last : j = c.written.length := by
    by_contra other
    have ahead := orderly.ahead
    have earlier : j < c.written.length := by omega
    exact silent _ (orderly.answers j line (some p) _ arrived ticketed (List.getElem?_eq_getElem earlier))
  subst last
  refine ⟨i, c, there, by_contra (fun gone => ?_), ticketed⟩
  obtain ⟨out, answered⟩ := orderly.ended (Bool.eq_false_iff.mpr gone) line (some p) arrived ticketed
  exact silent out answered

theorem replyNow {i : Nat} {c : Connection Line Out} (here : net.connections[i]? = some c) (live : c.live = true)
    {line : Line} (served : c.arrived[c.written.length]? = some line) {ticket : Option Nat}
    (current : c.current = some ticket) {out : Out} (answered : S.answer net.world line ticket = some out) :
    S.step net (.reply i true) = some (net.put i { c with written := c.written ++ [out] }) := by
  simp [Server.step, here, live, served, current, answered]

theorem Lawful.partyReplies (lawful : S.Lawful origin left) {i p : Nat} {c : Connection Line Out}
    (here : net.connections[i]? = some c) (live : c.live = true) {line : Line}
    (served : c.arrived[c.written.length]? = some line) (current : c.current = some (some p)) {party : φ}
    (mine : net.world.parties[p]? = some party) :
    ∃ events net' out, (∀ e ∈ events, Event.own i e) ∧ run S.step net events = some net' ∧
      net'.connections = net.connections.set i { c with written := c.written ++ [out] } := by
  induction size : left party using Nat.strongRecOn generalizing net party with
  | ind n ih =>
    cases done : S.finish line party with
    | some out =>
      have answered : S.answer net.world line (some p) = some out := by
        rw [Server.answer, mine, Option.bind_some, done]
      refine ⟨[.reply i true], net.put i { c with written := c.written ++ [out] }, out,
        fun e member => .inl (List.mem_singleton.mp member), ?_, rfl⟩
      exact runCons.mpr ⟨_, replyNow here live served current answered, rfl⟩
    | none =>
      obtain ⟨choice, party', acts, advanced, less⟩ := lawful.goes line net.world.shared party done
      obtain ⟨world, moved, there⟩ : ∃ world, S.system.step net.world (.advance p choice) = some world ∧
          world.parties[p]? = some party' := by
        refine ⟨_, by simp only [System.step, mine, advanced, Option.bind_eq_bind, Option.bind_some]; rfl, ?_⟩
        exact List.getElem?_set_self (List.getElem?_eq_some_iff.mp mine).1
      have next : S.step net (.advance i choice) = some { net with world } := by
        simp [Server.step, here, live, current, moved]
      obtain ⟨events, net', out, own_, ran, same⟩ :=
        @ih (left party') (size ▸ less) { net with world } here party' there rfl
      refine ⟨.advance i choice :: events, net', out, fun e member => ?_, runCons.mpr ⟨_, next, ran⟩, same⟩
      rcases List.mem_cons.mp member with first | later
      · exact .inr ⟨choice, first⟩
      · exact own_ e later

theorem Lawful.replies (lawful : S.Lawful origin left) (sound : S.Sound origin start net) {i : Nat}
    {c : Connection Line Out} (here : net.connections[i]? = some c) (live : c.live = true) (busy : c.idle = false) :
    ∃ events net' out, (∀ e ∈ events, Event.own i e) ∧ run S.step net events = some net' ∧
      net'.connections = net.connections.set i { c with written := c.written ++ [out] } := by
  have orderly := sound.orderly c (List.mem_of_getElem? here)
  have uneven : c.tickets.length ≠ c.written.length := of_decide_eq_false busy
  have behind : c.written.length < c.tickets.length := Nat.lt_of_le_of_ne orderly.written uneven.symm
  obtain ⟨line, served⟩ : ∃ line, c.arrived[c.written.length]? = some line :=
    ⟨_, List.getElem?_eq_getElem (Nat.lt_of_lt_of_le behind orderly.taken)⟩
  obtain ⟨ticket, current⟩ : ∃ ticket, c.current = some ticket := ⟨_, List.getElem?_eq_getElem behind⟩
  have holds := orderly.holds _ line ticket served current
  cases begun : S.begins line with
  | inl out =>
    rw [Holds, begun] at holds
    have answered : S.answer net.world line ticket = some out := by
      rw [holds, Server.answer, begun]
      rfl
    refine ⟨[.reply i true], net.put i { c with written := c.written ++ [out] }, out,
      fun e member => .inl (List.mem_singleton.mp member), ?_, rfl⟩
    exact runCons.mpr ⟨_, replyNow here live served current answered, rfl⟩
  | inr fresh =>
    rw [Holds, begun] at holds
    obtain ⟨p, party, same, mine, _⟩ := holds
    rw [same] at current
    exact lawful.partyReplies here live served current mine

end

end Server
end ArosKernel.Serving
