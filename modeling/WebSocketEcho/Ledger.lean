import WebSocketEcho.Report

/-!
# A ledger of guards

Every open session is held by a guard that remembers the counters as its opening left them.  A
guard is released once, in whatever way; to release it again does nothing.

Any number of threads share a ledger.  A thread has guards under names, and guards that nothing
names any more and that are due to be dropped.  A `Move` is what a thread does in one go: it goes
to the counters at most once, so the moves of different threads may follow each other in any
order.  An `Operation` is a fixed sequence of moves.
-/

namespace WebSocketEcho

/-- A handle for one open session. -/
structure Guard where
  /-- The counters right after the session was opened. -/
  opened : Counters
  /-- Whether the session still counts. -/
  held : Bool
deriving DecidableEq, Repr

/-- What a thread has in its hands.  Guards are known by their places in the ledger. -/
structure Thread where
  named : List (String × Nat)
  /-- Guards that are due to be dropped, next first. -/
  dropping : List Nat
deriving DecidableEq, Repr

namespace Thread

def idle : Thread := ⟨[], []⟩

/-- The guard under a name is due to be dropped, before those that already are. -/
def giveUp (t : Thread) (name : String) : Thread :=
  ⟨t.named.filter (·.1 != name), (t.named.filter (·.1 == name)).map (·.2) ++ t.dropping⟩

/-- All guards are due to be dropped. -/
def giveUpAll (t : Thread) : Thread := ⟨[], t.named.map (·.2) ++ t.dropping⟩

/-- Keeps a guard under a name.  The one that had the name is due to be dropped. -/
def keep (t : Thread) (name : String) (guard : Nat) : Thread :=
  { t.giveUp name with named := (name, guard) :: (t.giveUp name).named }

end Thread

/-- Counters with everybody who holds guards on them. -/
structure Ledger where
  counters : Counters
  /-- Every guard that was ever made, oldest first. -/
  guards : List Guard
  threads : Nat → Thread

namespace Ledger

/-- What a thread can do in one go. -/
inductive Move where
  /-- Opens a session and keeps its guard under a name. -/
  | enter (name : String)
  /-- Opens a session whose guard gets no name. -/
  | visit
  /-- Asks a guard for the counters at its opening. -/
  | entered (name : String)
  /-- Releases a guard and asks for the counters after it.  The guard is then due to be dropped. -/
  | leave (name : String)
  /-- Gives a guard up. -/
  | discard (name : String)
  /-- Gives every guard up, as a thread does that fails. -/
  | abandon
  /-- Drops the next guard that is due, which releases it. -/
  | drop
  | snapshot
  | active
  | max
  | report
deriving DecidableEq, Repr

/-- What can be done with a ledger from outside. -/
inductive Operation where
  /-- Opens a session and keeps its guard under a name.  A guard that had the name is dropped
  after the opening. -/
  | enter (name : String)
  | visit
  | entered (name : String)
  | leave (name : String)
  | discard (name : String)
  | discardAll
  /-- Opens a session in a thread that fails. -/
  | fail
  /-- Opens `count` sessions in as many threads before any of them is released again. -/
  | crowd (count : Nat)
  | snapshot
  | active
  | max
  | report
deriving Repr

/-- What a ledger answers. -/
inductive Answer where
  | counters (c : Counters)
  | number (n : UInt64)
  /-- The `active` counts that a crowd saw, in order of opening. -/
  | seen (counts : List UInt64)
  | page (body : Bytes)
  | failed
  | nothing
  | noGuard
deriving DecidableEq, Repr

def empty : Ledger := ⟨.zero, [], fun _ => .idle⟩

/-! ## Moves -/

def setThread (l : Ledger) (t : Nat) (thread : Thread) : Ledger :=
  { l with threads := fun u => if u = t then thread else l.threads u }

def enter (l : Ledger) : Ledger :=
  { l with counters := l.counters.enter, guards := l.guards ++ [⟨l.counters.enter, true⟩] }

/-- Releases a guard, which takes one session off unless it was released before. -/
def release (l : Ledger) (guard : Nat) : Ledger :=
  match l.guards[guard]? with
  | some ⟨opened, true⟩ =>
    { l with counters := l.counters.leave, guards := l.guards.set guard ⟨opened, false⟩ }
  | _ => l

/-- The guard that a thread has under a name, with its place. -/
def find? (l : Ledger) (t : Nat) (name : String) : Option (Nat × Guard) :=
  ((l.threads t).named.lookup name).bind fun guard => (l.guards[guard]?).map (guard, ·)

def move (l : Ledger) (t : Nat) : Move → Ledger × Answer
  | .enter name =>
    (l.enter.setThread t ((l.threads t).keep name l.guards.length), .counters l.counters.enter)
  | .visit =>
    (l.enter.setThread t
      { l.threads t with dropping := l.guards.length :: (l.threads t).dropping },
      .counters l.counters.enter)
  | .entered name =>
    match l.find? t name with
    | some (_, g) => (l, .counters g.opened)
    | none => (l, .noGuard)
  | .leave name =>
    match l.find? t name with
    | some (guard, g) =>
      ((l.release guard).setThread t ((l.threads t).giveUp name),
        .counters (if g.held then l.counters.leave else g.opened))
    | none => (l, .noGuard)
  | .discard name =>
    match l.find? t name with
    | some _ => (l.setThread t ((l.threads t).giveUp name), .nothing)
    | none => (l, .noGuard)
  | .abandon => (l.setThread t (l.threads t).giveUpAll, .nothing)
  | .drop =>
    match (l.threads t).dropping with
    | [] => (l, .nothing)
    | guard :: rest =>
      ((l.release guard).setThread t { l.threads t with dropping := rest }, .nothing)
  | .snapshot => (l, .counters l.counters)
  | .active => (l, .number l.counters.active)
  | .max => (l, .number l.counters.max)
  | .report => (l, .page (Report.ofCounters l.counters).render)

def run (l : Ledger) (schedule : List (Nat × Move)) : Ledger :=
  schedule.foldl (fun l m => (l.move m.1 m.2).1) l

/-! ## Operations -/

/-- Thread `t` makes a move and drops everything that is due after it. -/
def complete (l : Ledger) (t : Nat) (m : Move) : Ledger × Answer :=
  let (moved, answer) := l.move t m
  (moved.run ((moved.threads t).dropping.map fun _ => (t, .drop)), answer)

/-- Threads `count` down to 1 open sessions: the ledger after them and the counts they saw, last
first. -/
def enterMany : Nat → Ledger → List UInt64 → Ledger × List UInt64
  | 0, l, seen => (l, seen)
  | t + 1, l, seen => enterMany t (l.move (t + 1) (.enter "")).1 (l.counters.enter.active :: seen)

/-- Threads `count` down to 1 drop their guards. -/
def leaveMany : Nat → Ledger → Ledger
  | 0, l => l
  | t + 1, l => leaveMany t (l.complete (t + 1) .abandon).1

/-- Applies one operation.  Thread 0 keeps the named guards. -/
def apply (l : Ledger) : Operation → Ledger × Answer
  | .enter name => l.complete 0 (.enter name)
  | .visit => l.complete 0 .visit
  | .entered name => l.complete 0 (.entered name)
  | .leave name => l.complete 0 (.leave name)
  | .discard name => l.complete 0 (.discard name)
  | .discardAll => l.complete 0 .abandon
  | .fail => (((l.move 1 (.enter "")).1.complete 1 .abandon).1, .failed)
  | .crowd count =>
    let (full, seen) := enterMany count l []
    (leaveMany count full, .seen seen.reverse)
  | .snapshot => l.complete 0 .snapshot
  | .active => l.complete 0 .active
  | .max => l.complete 0 .max
  | .report => l.complete 0 .report

end Ledger

end WebSocketEcho
