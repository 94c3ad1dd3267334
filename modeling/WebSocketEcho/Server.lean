import WebSocketEcho.Log
import WebSocketEcho.StartFailure

/-!
# The server

All connections together.  A step applies what the clients do and then lets the server run until
everything waits.  Tasks stand in a queue: each is woken at most once at a time, runs until it waits
or lets others go first, and those that it wakes, itself perhaps among them, join at the end.  A
client is first accepted, then served HTTP, then perhaps handed over to an echo session.

A server of `Mode.sessions` takes every connection as an echo session from the start.
-/

namespace WebSocketEcho

/-- What a connection is taken for when it comes in. -/
inductive Mode where
  | sessions
  /-- An HTTP connection that a listener accepts. -/
  | http
deriving DecidableEq, Repr

/-- Where a connection stands on the server's side. -/
inductive Stage where
  /-- The listener has not accepted it yet. -/
  | arriving
  | requesting (c : Http.Connection)
  /-- An echo session that has not begun, with what was read before it. -/
  | starting (leftover : Bytes)
  | echoing (s : Session)
  /-- The handshake was accepted, but its answer could not be written. -/
  | abandoned
  | ended
deriving DecidableEq, Repr

structure Client where
  id : String
  peer : SocketAddress
  wire : Wire
  stage : Stage
  /-- An echo session that is to stop when its turn comes. -/
  cancelled : Bool
deriving DecidableEq, Repr

/-- What comes in at the listener. -/
inductive Arrival where
  | client (id : String)
  | failure (cause : NetworkError)
deriving DecidableEq, Repr

inductive Task where
  /-- The listener takes everything that has come in. -/
  | accept
  /-- A connection is brought forward as far as possible. -/
  | advance (id : String)
deriving DecidableEq, Repr

/-- The server with all its connections, in order of their coming. -/
structure Server where
  mode : Mode
  clients : List Client
  counters : Counters
  /-- What the listener has not taken yet. -/
  arrivals : List Arrival
  /-- Tasks that were woken, first woken first. -/
  ready : List Task
deriving Repr

/-- A change of the counters by the session on a connection. -/
inductive Passage where
  /-- The session begins and is counted. -/
  | entered (id : String)
  /-- The session has ended and is no longer counted. -/
  | left (id : String)
deriving DecidableEq, Repr

/-- What the server does in a step, in order.  The outside sees what is written, closed and
logged; of the passages it sees only what the counters make of them. -/
inductive Effect where
  | wrote (id : String) (bytes : Bytes)
  | closed (id : String)
  | logged (e : Log.Event)
  | passed (p : Passage)
deriving DecidableEq, Repr

inductive Action where
  | connect (id : String) (peer : SocketAddress)
  | send (id : String) (bytes : Bytes)
  /-- The client closes its side. -/
  | finish (id : String)
  | vanish (id : String)
  | reset (id : String)
  | abort (id : String)
  | failAccept
deriving DecidableEq, Repr

/-- Why an action cannot be done. -/
inductive Problem where
  | idInUse
  | noConnection
  | notASession
  | notListening
deriving DecidableEq, Repr

namespace Server

def empty (mode : Mode) : Server := ⟨mode, [], .zero, [], []⟩

def find? (s : Server) (id : String) : Option Client := s.clients.find? (·.id == id)

def update (s : Server) (id : String) (f : Client → Client) : Server :=
  { s with clients := s.clients.map fun c => if c.id == id then f c else c }

/-- Wakes a task, once. -/
def wake (s : Server) (t : Task) : Server :=
  if s.ready.contains t then s else { s with ready := s.ready ++ [t] }

/-! ## Tasks -/

/-- What a session's reactions are on the outside. -/
def reactionEffect (id : String) : Reaction → Effect
  | .send r => .wrote id r.bytes
  | .note farewell => .logged (.closeReceived farewell)

def runSession (s : Server) (c : Client) (session : Session) : Server × List Effect :=
  let (reactions, progress) := session.poll c.wire
  let effects := reactions.map (reactionEffect c.id)
  let wire := { c.wire with unread := [] }
  match progress with
  | .waiting session => (s.update c.id fun c => { c with wire, stage := .echoing session }, effects)
  | .ended outcome =>
    let counters := s.counters.leave
    ({ s.update c.id fun c => { c with wire, stage := .ended } with counters },
      effects ++ [.logged (.sessionEnded c.peer outcome), .passed (.left c.id),
        .logged (.sessionClosed c.peer counters.active), .closed c.id])

/-- Begins a session and lets it read. -/
def startSession (s : Server) (c : Client) (leftover : Bytes) : Server × List Effect :=
  let counters := s.counters.enter
  let (s, effects) := runSession { s with counters } c (.begin leftover)
  (s, .passed (.entered c.id) :: .logged (.sessionOpened c.peer counters.active) :: effects)

/-- What happens on an HTTP connection, on the outside. -/
def deedEffects (c : Client) : Http.Deed → List Effect
  | .write bytes => [.wrote c.id bytes]
  | .handle r =>
    .logged (.requested c.peer r.method r.target) ::
      (Service.refusal? r).toList.map fun why => .logged (.handshakeRefused c.peer why)

/-- Lets an HTTP connection read and answer. -/
def runConnection (s : Server) (c : Client) (connection : Http.Connection) :
    Server × List Effect :=
  let (deeds, standing, wire) := connection.poll (Service.answer s.counters) c.wire
  let effects := deeds.flatMap (deedEffects c)
  let stay (stage : Stage) : Server := s.update c.id fun c => { c with wire, stage }
  match standing with
  | .waiting connection => (stay (.requesting connection), effects)
  | .paused connection => ((stay (.requesting connection)).wake (.advance c.id), effects)
  | .closed none => (stay .ended, effects ++ [.closed c.id])
  | .closed (some fault) =>
    (stay .ended, effects ++ [.logged (.connectionFailed c.peer fault), .closed c.id])
  | .switched leftover => ((stay (.starting leftover)).wake (.advance c.id), effects)
  | .abandoned fault =>
    ((stay .abandoned).wake (.advance c.id),
      effects ++ [.logged (.connectionFailed c.peer fault), .closed c.id])

/-- A session stops: one that has begun gives its place in the counters back. -/
def cancel (s : Server) (c : Client) : Server × List Effect :=
  let stopped := s.update c.id fun c => { c with stage := .ended }
  match c.stage with
  | .ended => (s, [])
  | .echoing _ =>
    ({ stopped with counters := s.counters.leave }, [.passed (.left c.id), .closed c.id])
  | _ => (stopped, [.closed c.id])

/-- Brings a connection forward. -/
def advance (s : Server) (id : String) : Server × List Effect :=
  match s.find? id with
  | none => (s, [])
  | some c =>
    if c.cancelled then s.cancel c
    else
      match c.stage with
      | .arriving | .ended => (s, [])
      | .requesting connection => s.runConnection c connection
      | .starting leftover => s.startSession c leftover
      | .echoing session => s.runSession c session
      | .abandoned =>
        (s.update id fun c => { c with stage := .ended }, [.logged (.upgradeFailed c.peer)])

/-- The listener takes one arrival. -/
def take (s : Server) : Arrival → Server × List Effect
  | .failure cause => (s, [.logged (.acceptFailed cause)])
  | .client id =>
    match s.find? id with
    | none => (s, [])
    | some c =>
      ((s.update id fun c => { c with stage := .requesting .fresh }).wake (.advance id),
        [.logged (.connected c.peer)])

/-- Does one thing after another and joins the effects. -/
def each {α : Type} (run : Server → α → Server × List Effect) (s : Server) (items : List α) :
    Server × List Effect :=
  items.foldl
    (fun (s, effects) item =>
      let (s, more) := run s item
      (s, effects ++ more)) (s, [])

def run (s : Server) : Task → Server × List Effect
  | .accept => each take { s with arrivals := [] } s.arrivals
  | .advance id => s.advance id

/-- The most tasks that a client can still wake: one for each of its bytes, because a connection
that lets others go first has used up some, and one for the end of its HTTP connection. -/
def clientWork (c : Client) : Nat :=
  c.wire.unread.length + 1 +
    match c.stage with
    | .requesting connection => connection.buffer.length
    | _ => 0

/-- The most tasks that can run until everything waits. -/
def work (s : Server) : Nat :=
  s.clients.foldl (fun sum c => sum + clientWork c) (s.ready.length + s.arrivals.length)

/-- Runs at most `tasks` tasks.  `done` holds the effects of those before, last first. -/
def runReady : Nat → Server → List (List Effect) → Server × List Effect
  | 0, s, done => (s, done.reverse.flatten)
  | tasks + 1, s, done =>
    match s.ready with
    | [] => (s, done.reverse.flatten)
    | task :: rest =>
      let (s, effects) := run { s with ready := rest } task
      runReady tasks s (effects :: done)

/-- Runs until everything waits. -/
def settle (s : Server) : Server × List Effect := runReady s.work s []

/-! ## Actions -/

/-- The connection that a client may still act on. -/
def live? (s : Server) (id : String) : Option Client :=
  (s.find? id).filter fun c => c.wire.state = .present || c.wire.state = .finished

/-- Changes a connection and wakes whoever runs it. -/
def touch (s : Server) (c : Client) : Server :=
  let s := s.update c.id fun _ => c
  match c.stage with
  | .arriving | .ended => s
  | _ => s.wake (.advance c.id)

def connect (s : Server) (id : String) (peer : SocketAddress) : Server :=
  match s.mode with
  | .sessions =>
    wake { s with clients := s.clients ++ [⟨id, peer, .fresh, .starting [], false⟩] } (.advance id)
  | .http =>
    wake
      { s with
        clients := s.clients ++ [⟨id, peer, .fresh, .arriving, false⟩]
        arrivals := s.arrivals ++ [.client id] } .accept

/-- Does something to a connection that a client may still act on. -/
def onLive (s : Server) (id : String) (f : Client → Client) : Except Problem Server :=
  match s.live? id with
  | none => .error .noConnection
  | some c => .ok (s.touch (f c))

/-- One action, before the server runs. -/
def act (s : Server) : Action → Except Problem Server
  | .connect id peer =>
    if (s.find? id).isSome then .error .idInUse else .ok (s.connect id peer)
  | .send id bytes => s.onLive id fun c => { c with wire := c.wire.send bytes }
  | .finish id => s.onLive id fun c => { c with wire := { c.wire with state := .finished } }
  | .vanish id => s.onLive id fun c => { c with wire := { c.wire with state := .vanished } }
  | .reset id => s.onLive id fun c => { c with wire := { c.wire with state := .reset } }
  | .abort id =>
    match s.mode, s.live? id with
    | .http, some _ => .error .notASession
    | _, _ => s.onLive id fun c => { c with cancelled := true }
  | .failAccept =>
    match s.mode with
    | .sessions => .error .notListening
    | .http =>
      .ok (wake { s with arrivals := s.arrivals ++ [.failure .tooManyOpenFiles] } .accept)

/-! ## Steps -/

/-- What a step has shown. -/
structure Entry where
  effects : List Effect
  problems : List Problem
  counters : Counters
deriving Repr

/-- Does actions one after the other, before the server runs.  One that cannot be done is a
problem and changes nothing. -/
def perform (s : Server) (actions : List Action) : Server × List Problem :=
  actions.foldl
    (fun (s, problems) action =>
      match s.act action with
      | .ok s => (s, problems)
      | .error problem => (s, problems ++ [problem]))
    (s, [])

/-- Does the actions of one step one after the other, then lets the server run. -/
def step (s : Server) (actions : List Action) : Server × Entry :=
  let (s, problems) := s.perform actions
  let (s, effects) := s.settle
  (s, ⟨effects, problems, s.counters⟩)

def steps (s : Server) : List (List Action) → Server × List Entry
  | [] => (s, [])
  | actions :: rest =>
    let (s, entry) := s.step actions
    let (s, entries) := s.steps rest
    (s, entry :: entries)

namespace Entry

/-- What was written on a connection. -/
def output (e : Entry) (id : String) : Bytes :=
  Bytes.join (e.effects.filterMap fun
    | .wrote i bytes => if i == id then some bytes else none
    | _ => none)

/-- The connections that were written on, each once. -/
def written (e : Entry) : List String :=
  (e.effects.filterMap fun
    | .wrote id _ => some id
    | _ => none).eraseDups

/-- The connections that the server closed, sorted. -/
def closed (e : Entry) : List String :=
  (e.effects.filterMap fun
    | .closed id => some id
    | _ => none).mergeSort

/-- The lines of the log. -/
def log (e : Entry) : List Log.Event :=
  e.effects.filterMap fun
    | .logged event => some event
    | _ => none

end Entry

/-! ## Starting -/

/-- Starts a server that listens, unless its address is taken. -/
def listen (settings : Settings) (occupied : Bool) :
    Except StartFailure (Server × List Log.Event) :=
  if occupied then .error (.bind settings.bind .addressInUse)
  else .ok (empty .http, [.listening settings.bind.port])

end Server

end WebSocketEcho
