import WebSocketEcho.Http.Body

/-!
# HTTP connections

One connection with its requests, answered one after the other in order.  A connection waits only
for a request head: a body that is not at its end when its request has been answered gets one more
attempt, and if that does not bring its end the connection is closed instead.  What a request is
answered with is a parameter; this file decides how the answer is framed and when the connection
ends or is handed over.

A connection shares the server with others.  `Connection.poll` therefore takes a limited number of
turns, and also stops before the further attempt on a body, so that others come to their turn first.
-/

namespace WebSocketEcho.Http

/-- What a request is answered with, before it is framed. -/
structure Answer where
  status : Status
  headers : List Header
  body : Bytes
deriving DecidableEq, Repr

/-- What becomes of a connection when a request has been dealt with. -/
inductive Sequel where
  | nextRequest
  | close
  | switch
deriving DecidableEq, Repr

/-- What a connection is at. -/
inductive Phase where
  /-- It waits for a head; the buffer was this long at the last attempt on it. -/
  | head (seen : Nat)
  /-- A request has been answered, and the rest of its body comes before the sequel. -/
  | body (rest : Body.Rest) (sequel : Sequel)
deriving DecidableEq, Repr

/-- What a connection remembers while it stands still. -/
structure Connection where
  buffer : Bytes
  room : Room
  pace : Pace
  phase : Phase
  version : Version
deriving DecidableEq, Repr

namespace Connection

def fresh : Connection := ⟨[], .empty, .start, .head 0, .http11⟩

/-- What to remember of a connection. -/
def ofInlet (i : Inlet) (phase : Phase) (version : Version) : Connection :=
  ⟨i.buffer, i.room, i.pace, phase, version⟩

def inlet (c : Connection) (w : Wire) : Inlet := ⟨c.buffer, w, c.room, c.pace⟩

end Connection

/-- What happens on a connection. -/
inductive Deed where
  /-- A request is answered; the answer is written next, if it can be. -/
  | handle (r : Request)
  | write (bytes : Bytes)
deriving DecidableEq, Repr

/-- Where a connection stands after its turns. -/
inductive Standing where
  | waiting (c : Connection)
  /-- There is more to do after the others. -/
  | paused (c : Connection)
  | closed (fault : Option Fault)
  /-- The client has switched protocols; some of its bytes may have been read. -/
  | switched (leftover : Bytes)
  /-- The answer to an accepted switch could not be written. -/
  | abandoned (fault : Fault)
deriving DecidableEq, Repr

/-! ## Framing an answer -/

/-- Whether an answer ends the use of the connection for HTTP by its nature: a tunnel was asked
for and granted. -/
def opensTunnel (r : Request) (a : Answer) : Bool :=
  r.method == Bytes.ofText "CONNECT" && a.status == .ok

/-- The fields of an answer with what they say about the connection.  A field of the answer itself
is extended, otherwise one is added where the connection departs from the habit of its version. -/
def connectionFields (version : Version) (keepAlive : Bool) (headers : List Header) :
    List Header :=
  if version.atLeast11 && !keepAlive then
    if headers.any (·.isNamed "connection") then
      headers.map fun h =>
        if h.isNamed "connection" then { h with value := h.value ++ Bytes.ofText ", close" } else h
    else headers ++ [Header.ofText "connection" "close"]
  else if !version.atLeast11 && keepAlive then
    headers ++ [Header.ofText "connection" "keep-alive"]
  else headers

/-- The field that states the length of a body. -/
def lengthField (body : Bytes) : Header :=
  ⟨Bytes.ofText "content-length", Decimal.bytes body.length⟩

/-- The framed answer to a request.  A switch and a tunnel have no body, and the answer to `HEAD`
leaves its body out. -/
def frame (r : Request) (keepAlive : Bool) (a : Answer) : Response :=
  let bodiless := a.status == .switchingProtocols || opensTunnel r a
  let fields := connectionFields r.version keepAlive a.headers
  { version := r.version
    status := a.status
    headers := if bodiless then fields else fields ++ [lengthField a.body]
    body := if bodiless || r.method == Bytes.ofText "HEAD" then [] else a.body }

def Response.bytes (r : Response) : Bytes := r.head ++ r.body

/-- The answer to a faulty head, in the version of the last request. -/
def refusal (version : Version) (status : Status) : Response :=
  { version
    status
    headers := connectionFields version false [] ++ [lengthField []]
    body := [] }

/-! ## Waiting for a head -/

/-- The opening bytes of HTTP/2. -/
def preface : Bytes := Bytes.ofText "PRI * HTTP/2.0\r\n\r\nSM\r\n\r\n"

def dropLineEnds (bytes : Bytes) : Bytes := bytes.dropWhile fun b => b == 0x0D || b == 0x0A

/-- What waiting for a head leads to. -/
inductive HeadWait where
  | parsed (p : Head.Parsed) (i : Inlet)
  | faulty (f : Fault) (i : Inlet)
  | blocked (i : Inlet)
  /-- Nothing more will come. -/
  | gone (fault : Option Fault)

/-- Reads until there is a head.  `seen` is the length of the buffer at the last attempt on it. -/
def awaitHead (seen : Nat) (i : Inlet) : HeadWait :=
  match Head.attempt seen i.buffer with
  | .faulty f rest => .faulty f { i with buffer := rest }
  | .parsed p rest => .parsed p { i with buffer := rest }
  | .incomplete =>
    if Pace.most ≤ i.buffer.length then .faulty .tooLarge i
    else
      match h : i.read with
      | .filled j =>
        have := Inlet.read_filled h
        awaitHead i.buffer.length j
      | .blocked j => .blocked j
      | .ended => .gone none
      | .failed => .gone (if (dropLineEnds i.buffer).isEmpty then none else some .reset)
termination_by i.wire.unread.length

/-! ## One turn -/

/-- What one turn of a connection leads to. -/
inductive Turn where
  | stop (deeds : List Deed) (s : Standing) (w : Wire)
  | again (deeds : List Deed) (phase : Phase) (version : Version) (i : Inlet)

/-- The connection ends because of a faulty head. -/
def refuse (version : Version) (f : Fault) (i : Inlet) : Turn :=
  if preface.isPrefixOf (dropLineEnds i.buffer) then .stop [] (.closed (some .http2Preface)) i.wire
  else
    match f.status? with
    | none => .stop [] (.closed (some f)) i.wire
    | some status =>
      if i.wire.isWritable then
        .stop [.write (refusal version status).bytes] (.closed (some f)) i.wire
      else .stop [] (.closed (some .unwritable)) i.wire

/-- The connection is free for its next request: it goes on with `next` if something of that has
come, and else waits for it. -/
def reuse (deeds : List Deed) (version : Version) (i : Inlet) (next : Inlet → Turn) : Turn :=
  match i.fill with
  | .filled j => next j
  | .blocked j => .stop deeds (.waiting (.ofInlet j (.head 0) version)) j.wire
  | .ended => .stop deeds (.closed none) i.wire
  | .failed => .stop deeds (.closed (some .reset)) i.wire

/-- What comes after the answer to a request. -/
def sequel (p : Head.Parsed) (a : Answer) : Sequel :=
  if a.status == .switchingProtocols then .switch
  else if p.keepAlive && !opensTunnel p.request a then .nextRequest
  else .close

/-- Answers a request.  `body` tells where its body stands.  One that is not at its end makes the
connection stop, unless it is on its way anyhow. -/
def respond (handler : Request → Answer) (onTheWay : Bool) (p : Head.Parsed) (body : Body.Attempt)
    (i : Inlet) : Turn :=
  let a := handler p.request
  let next := sequel p a
  if !i.wire.isWritable then
    .stop [.handle p.request]
      (if next = .switch then .abandoned .unwritable else .closed (some .unwritable)) i.wire
  else
    let deeds : List Deed := [.handle p.request, .write (frame p.request p.keepAlive a).bytes]
    let version := p.request.version
    let i := i.release
    match body, next with
    | .advanced rest, _ | .blocked rest, _ =>
      if onTheWay then .again deeds (.body rest next) version i
      else .stop deeds (.paused (.ofInlet i (.body rest next) version)) i.wire
    | .finished, .nextRequest => reuse deeds version i (.again deeds (.head 0) version)
    | _, .switch => .stop deeds (.switched i.buffer) i.wire
    | _, _ => .stop deeds (.closed none) i.wire

def firstAttempt (p : Head.Parsed) (i : Inlet) : Body.Attempt × Inlet :=
  let body := Body.Rest.ofLength p.body
  if p.bodyWaits then (.blocked body, i) else Body.attempt body i

/-- Serves a request whose head has been read.  Nobody is answered who has left right behind the
request. -/
def serve (handler : Request → Answer) (onTheWay : Bool) (p : Head.Parsed) (i : Inlet) : Turn :=
  match firstAttempt p (if p.retains then i.hold else i) with
  | (.finished, i) =>
    match i.fill with
    | .filled j | .blocked j => respond handler onTheWay p .finished j
    | .ended => .stop [] (.closed none) i.wire
    | .failed => .stop [] (.closed (some .reset)) i.wire
  | (body, i) => respond handler onTheWay p body i

def headTurn (handler : Request → Answer) (onTheWay : Bool) (seen : Nat) (version : Version)
    (i : Inlet) : Turn :=
  match awaitHead seen i with
  | .parsed p j => serve handler onTheWay p j
  | .faulty f j => refuse version f j
  | .blocked j => .stop [] (.waiting (.ofInlet j (.head j.buffer.length) version)) j.wire
  | .gone fault => .stop [] (.closed fault) i.wire

/-- A turn of a connection with a body to finish first.  That is the last attempt on it. -/
def bodyTurn (handler : Request → Answer) (rest : Body.Rest) (next : Sequel) (version : Version)
    (i : Inlet) : Turn :=
  let (body, i) := Body.attempt rest i
  let i := i.release
  match body, next with
  | .finished, .nextRequest => reuse [] version i (headTurn handler true 0 version)
  | _, .switch => .stop [] (.switched i.buffer) i.wire
  | _, _ => .stop [] (.closed none) i.wire

def turn (handler : Request → Answer) (phase : Phase) (version : Version) (i : Inlet) : Turn :=
  match phase with
  | .head seen => headTurn handler false seen version i
  | .body rest next => bodyTurn handler rest next version i

/-! ## Every turn that is followed by another uses up bytes -/

/-- A turn leaves less than `n` bytes to be read if the connection has more to do. -/
def Turn.Leaves (t : Turn) (n : Nat) : Prop :=
  match t with
  | .again _ _ _ j => j.remaining < n
  | .stop _ (.paused c) w => (c.inlet w).remaining < n
  | .stop _ _ _ => True

theorem Turn.Leaves.mono {t : Turn} {m n : Nat} (h : t.Leaves m) (hle : m ≤ n) : t.Leaves n := by
  unfold Turn.Leaves at h ⊢
  split <;> simp_all <;> omega

theorem remaining_awaitHead {seen : Nat} {i j : Inlet} {p : Head.Parsed}
    (h : awaitHead seen i = .parsed p j) : j.remaining < i.remaining := by
  fun_induction awaitHead seen i with
  | case1 => simp at h
  | case2 seen i q rest hq =>
    simp only [HeadWait.parsed.injEq] at h
    have := Head.length_lt_of_attempt hq
    rw [← h.2]
    simp only [Inlet.remaining]
    omega
  | case3 => simp at h
  | case4 seen i _ _ k hk _ ih => exact Nat.lt_of_lt_of_eq (ih h) (Inlet.read_filled hk).1
  | case5 => simp at h
  | case6 => simp at h
  | case7 => simp at h

theorem leaves_refuse (version : Version) (f : Fault) (i : Inlet) (n : Nat) :
    (refuse version f i).Leaves n := by
  unfold refuse
  split
  · trivial
  · split
    · trivial
    · split <;> trivial

theorem leaves_reuse {deeds : List Deed} {version : Version} {i : Inlet} {next : Inlet → Turn}
    {n : Nat} (h : ∀ j, j.remaining = i.remaining → (next j).Leaves n) :
    (reuse deeds version i next).Leaves n := by
  unfold reuse
  split
  · rename_i j hj
    exact h j (Inlet.fill_filled hj)
  all_goals trivial

theorem leaves_respond (handler : Request → Answer) (onTheWay : Bool) (p : Head.Parsed)
    (body : Body.Attempt) (i : Inlet) :
    (respond handler onTheWay p body i).Leaves (i.remaining + 1) := by
  unfold respond
  dsimp only
  split
  · split <;> trivial
  · split
    · split <;> exact Nat.lt_succ_self _
    · split <;> exact Nat.lt_succ_self _
    · exact leaves_reuse fun j hj => Nat.lt_succ_of_le (Nat.le_of_eq hj)
    · trivial
    · trivial

theorem remaining_firstAttempt (p : Head.Parsed) (i : Inlet) :
    (firstAttempt p i).2.remaining ≤ i.remaining := by
  unfold firstAttempt
  split
  · exact Nat.le_refl _
  · exact Body.remaining_attempt _ _

theorem leaves_serve (handler : Request → Answer) (onTheWay : Bool) (p : Head.Parsed) (i : Inlet) :
    (serve handler onTheWay p i).Leaves (i.remaining + 1) := by
  have hi : (if p.retains then i.hold else i).remaining = i.remaining := by split <;> rfl
  have hfirst := remaining_firstAttempt p (if p.retains then i.hold else i)
  rw [hi] at hfirst
  unfold serve
  split
  · rename_i k hk
    rw [hk] at hfirst
    split
    · rename_i j hj
      exact (leaves_respond ..).mono (by rw [Inlet.fill_filled hj]; exact Nat.succ_le_succ hfirst)
    · rename_i j hj
      exact (leaves_respond ..).mono (by rw [Inlet.fill_blocked hj]; exact Nat.succ_le_succ hfirst)
    all_goals trivial
  · rename_i body k hne hk
    rw [hk] at hfirst
    exact (leaves_respond ..).mono (Nat.succ_le_succ hfirst)

theorem leaves_headTurn (handler : Request → Answer) (onTheWay : Bool) (seen : Nat)
    (version : Version) (i : Inlet) :
    (headTurn handler onTheWay seen version i).Leaves i.remaining := by
  unfold headTurn
  split
  · rename_i p j hj
    have := remaining_awaitHead hj
    exact (leaves_serve ..).mono this
  · exact leaves_refuse ..
  · trivial
  · trivial

/-- A turn that is not the last has used up a byte of the client's. -/
theorem leaves_turn (handler : Request → Answer) (phase : Phase) (version : Version) (i : Inlet) :
    (turn handler phase version i).Leaves i.remaining := by
  unfold turn
  split
  · exact leaves_headTurn ..
  · rename_i rest next
    have hbody := Body.remaining_attempt rest i
    unfold bodyTurn
    dsimp only
    split
    · refine leaves_reuse fun j hj => (leaves_headTurn ..).mono ?_
      have : (Body.attempt rest i).2.release.remaining = (Body.attempt rest i).2.remaining := rfl
      omega
    · trivial
    · trivial

/-! ## The connection -/

/-- How many turns a connection takes before the others come to theirs. -/
def maxTurns : Nat := 16

/-- Takes at most `turns` turns.  `done` holds the deeds so far, last first. -/
def takeTurns (handler : Request → Answer) :
    Nat → Phase → Version → Inlet → List Deed → List Deed × Standing × Wire
  | 0, phase, version, i, done => (done.reverse, .paused (.ofInlet i phase version), i.wire)
  | turns + 1, phase, version, i, done =>
    match turn handler phase version i with
    | .stop deeds s w => ((deeds.reverse ++ done).reverse, s, w)
    | .again deeds phase version j =>
      takeTurns handler turns phase version j (deeds.reverse ++ done)

/-- Runs a connection on what waits on it: what happens, where it then stands, and what is left on
the wire. -/
def Connection.poll (handler : Request → Answer) (c : Connection) (w : Wire) :
    List Deed × Standing × Wire :=
  takeTurns handler maxTurns c.phase c.version (c.inlet w) []

theorem remaining_takeTurns {handler : Request → Answer} {turns : Nat} {phase : Phase}
    {version : Version} {i : Inlet} {done deeds : List Deed} {c : Connection} {w : Wire}
    (h : takeTurns handler turns phase version i done = (deeds, .paused c, w)) :
    (c.inlet w).remaining ≤ i.remaining := by
  induction turns generalizing phase version i done with
  | zero =>
    simp only [takeTurns, Prod.mk.injEq, Standing.paused.injEq] at h
    rw [← h.2.1, ← h.2.2]
    exact Nat.le_refl _
  | succ turns ih =>
    have hturn := leaves_turn handler phase version i
    unfold takeTurns at h
    split at h
    · rename_i hs
      simp only [Prod.mk.injEq] at h
      rw [hs, h.2.1, h.2.2] at hturn
      exact Nat.le_of_lt hturn
    · rename_i hs
      rw [hs] at hturn
      exact Nat.le_trans (ih h) (Nat.le_of_lt hturn)

/-- A connection that lets others go first has used up a byte of its client's. -/
theorem Connection.remaining_poll {handler : Request → Answer} {c d : Connection} {w v : Wire}
    {deeds : List Deed} (h : c.poll handler w = (deeds, .paused d, v)) :
    (d.inlet v).remaining < (c.inlet w).remaining := by
  have hturn := leaves_turn handler c.phase c.version (c.inlet w)
  unfold Connection.poll maxTurns takeTurns at h
  split at h
  · rename_i hs
    simp only [Prod.mk.injEq] at h
    rw [hs, h.2.1, h.2.2] at hturn
    exact hturn
  · rename_i hs
    rw [hs] at hturn
    exact Nat.lt_of_le_of_lt (remaining_takeTurns h) hturn

end WebSocketEcho.Http
