import WebSocketEcho.CloseCode
import WebSocketEcho.Frame
import WebSocketEcho.Text.Quoted
import WebSocketEcho.Utf8
import WebSocketEcho.Wire

/-!
# Echo sessions

A session reads frames and sends every complete message back as one frame.  Pings are answered with
pongs, also between the fragments of a message; a close frame is answered once and ends the
session, and so does the first frame that breaks a rule.

`Session.judge` decides what one frame means, `Session.consume` reads frames as long as they are
complete, and `Session.poll` runs a session against its connection.
-/

namespace WebSocketEcho

inductive Kind where
  | text
  | binary
deriving DecidableEq, Repr

/-- The opcode that starts a message of a kind. -/
def Kind.opcode : Kind → Opcode
  | .text => .text
  | .binary => .binary

/-- A message whose last fragment is still to come. -/
structure Gathering where
  kind : Kind
  /-- The fragments so far, last first. -/
  pieces : List Bytes
  /-- Where the check of a text stands. -/
  check : Utf8.State
deriving DecidableEq, Repr

/-- The content of a close frame that has one. -/
structure Farewell where
  code : CloseCode
  reason : Bytes
deriving DecidableEq, Repr

/-- The payload that spells a farewell. -/
def Farewell.payload (f : Farewell) : Bytes := f.code.bytes ++ f.reason

/-- The answer to a farewell whose code may not travel. -/
def Farewell.violation : Farewell := ⟨.protocol, Bytes.ofText "Protocol violation"⟩

/-- The farewell that answers another: the same, as long as its code may travel. -/
def Farewell.reply (f : Farewell) : Farewell := if f.code.isAllowed then f else .violation

/-- A farewell in a log line. -/
def Farewell.describe : Option Farewell → String
  | none => "None"
  | some f =>
    "Some(CloseFrame \x7b code: " ++ f.code.name ++ ", reason: " ++
      Text.quote ((Utf8.decode? f.reason).getD []) ++ " \x7d)"

/-! ## Failures -/

/-- The rules of the protocol that a client can break. -/
inductive Violation where
  | reservedOpcode (number : Nat)
  | reservedBits
  | unmasked
  | fragmentedControl
  | controlTooBig
  | malformedClose
  | nothingToContinue
  /-- A new message starts inside a fragmented one. -/
  | interrupted (kind : Kind)
  /-- The stream ends without a close frame. -/
  | unfinished
deriving DecidableEq, Repr

def Violation.message : Violation → String
  | .reservedOpcode number => "Encountered invalid opcode: " ++ Decimal.text number
  | .reservedBits => "Reserved bits are non-zero"
  | .unmasked => "Received an unmasked frame from client"
  | .fragmentedControl => "Fragmented control frame"
  | .controlTooBig => "Control frame too big (payload must be 125 bytes or less)"
  | .malformedClose => "Invalid close sequence"
  | .nothingToContinue => "Continue frame but nothing to continue"
  | .interrupted .text => "While waiting for more fragments received: TEXT"
  | .interrupted .binary => "While waiting for more fragments received: BINARY"
  | .unfinished => "Connection reset without closing handshake"

/-- Why a session ends without a close frame. -/
inductive Failure where
  | protocol (v : Violation)
  /-- A text message or a reason is not UTF-8. -/
  | notUtf8
  | network (e : NetworkError)
deriving DecidableEq, Repr

def Failure.message : Failure → String
  | .protocol v => "WebSocket protocol error: " ++ v.message
  | .notUtf8 => "UTF-8 encoding error"
  | .network e => "IO error: " ++ e.message

/-- How a session ended. -/
inductive Outcome where
  /-- The client closed after this many echoed messages, in the 64 bits of the count. -/
  | peerClosed (echoed : UInt64)
  | failed (f : Failure)
deriving DecidableEq, Repr

/-! ## One frame -/

/-- What the server sends. -/
inductive Reply where
  | echo (kind : Kind) (payload : Bytes)
  | pong (payload : Bytes)
  | close (farewell : Option Farewell)
deriving DecidableEq, Repr

def Reply.bytes : Reply → Bytes
  | .echo kind payload => Frame.encode kind.opcode payload
  | .pong payload => Frame.encode .pong payload
  | .close none => Frame.encode .close []
  | .close (some f) => Frame.encode .close f.payload

/-- What one frame means to a session. -/
inductive Verdict where
  /-- The session goes on, perhaps with a message under way, and nothing is sent. -/
  | proceed (gathering : Option Gathering)
  /-- A message is complete. -/
  | message (kind : Kind) (payload : Bytes)
  /-- The frame asks for a pong; a message under way stays as it is. -/
  | ping (payload : Bytes)
  /-- The session ends with this answer. -/
  | close (farewell : Option Farewell)
  | fail (f : Failure)
deriving DecidableEq, Repr

namespace Session

/-- A fragment joins a message under way: a text must still be the beginning of some valid text,
and valid at its last fragment. -/
def join (g : Gathering) (fin : Bool) (payload : Bytes) : Verdict :=
  match g.kind with
  | .binary =>
    if fin then .message .binary (Bytes.join (payload :: g.pieces).reverse)
    else .proceed (some { g with pieces := payload :: g.pieces })
  | .text =>
    match Utf8.run g.check payload with
    | none => .fail .notUtf8
    | some check =>
      if !fin then .proceed (some { g with pieces := payload :: g.pieces, check })
      else if check = .boundary then .message .text (Bytes.join (payload :: g.pieces).reverse)
      else .fail .notUtf8

def start (kind : Kind) (fin : Bool) (payload : Bytes) : Verdict :=
  join ⟨kind, [], .boundary⟩ fin payload

/-- A close frame: empty, or a code and a reason in UTF-8. -/
def judgeClose : Bytes → Verdict
  | [] => .close none
  | [_] => .fail (.protocol .malformedClose)
  | high :: low :: reason =>
    if Utf8.isValid reason then
      .close (some (Farewell.reply ⟨⟨UInt16.ofNat (256 * high.toNat + low.toNat)⟩, reason⟩))
    else .fail .notUtf8

/-- A frame that passed the checks common to all. -/
def judgeOpcode (gathering : Option Gathering) (f : Frame) : Verdict :=
  match f.opcode, gathering with
  | .ping, _ => .ping f.payload
  | .pong, _ => .proceed gathering
  | .close, _ => judgeClose f.payload
  | .continuation, none => .fail (.protocol .nothingToContinue)
  | .continuation, some g => join g f.fin f.payload
  | .text, none => start .text f.fin f.payload
  | .binary, none => start .binary f.fin f.payload
  | .text, some _ => .fail (.protocol (.interrupted .text))
  | .binary, some _ => .fail (.protocol (.interrupted .binary))

/-- Control frames: they may come between fragments, but are whole and short themselves. -/
def isControl : Opcode → Bool
  | .close | .ping | .pong => true
  | .continuation | .text | .binary => false

/-- What a frame means, the rules in the order in which they are checked. -/
def judge (gathering : Option Gathering) (f : Frame) : Verdict :=
  if f.reserved then .fail (.protocol .reservedBits)
  else if !f.masked then .fail (.protocol .unmasked)
  else if isControl f.opcode && !f.fin then .fail (.protocol .fragmentedControl)
  else if isControl f.opcode && (f.payload.drop 125).length ≠ 0 then
    .fail (.protocol .controlTooBig)
  else judgeOpcode gathering f

end Session

/-! ## The session -/

structure Session where
  /-- Bytes that are not a whole frame yet. -/
  buffer : Bytes
  gathering : Option Gathering
  /-- The messages echoed so far.  The count has 64 bits and begins again at zero behind them. -/
  echoed : UInt64
deriving DecidableEq, Repr

/-- What a session does while it reads. -/
inductive Reaction where
  | send (r : Reply)
  /-- A close frame is noted, with the farewell that answers it. -/
  | note (farewell : Option Farewell)
deriving DecidableEq, Repr

/-- Whether a reaction writes. -/
def Reaction.isSend : Reaction → Bool
  | .send _ => true
  | .note _ => false

/-- Where a session stands after reading. -/
inductive Progress where
  | waiting (s : Session)
  | ended (o : Outcome)
deriving DecidableEq, Repr

/-- A stream that has ended fails a session that still waits. -/
def Progress.atEnd : Progress → Progress
  | .waiting _ => .ended (.failed (.protocol .unfinished))
  | .ended o => .ended o

namespace Session

/-- A session that starts with bytes that came before it. -/
def begin (buffer : Bytes) : Session := ⟨buffer, none, 0⟩

/-- Reads frames as long as they are complete.  `done` holds the reactions so far, last first. -/
def consume (gathering : Option Gathering) (echoed : UInt64) (buffer : Bytes)
    (done : List Reaction) : List Reaction × Progress :=
  match h : Frame.decode buffer with
  | .incomplete => (done.reverse, .waiting ⟨buffer, gathering, echoed⟩)
  | .reservedOpcode number => (done.reverse, .ended (.failed (.protocol (.reservedOpcode number))))
  | .frame f rest =>
    have : rest.length < buffer.length := Frame.length_lt_of_decode h
    match judge gathering f with
    | .proceed gathering => consume gathering echoed rest done
    | .message kind payload =>
      consume none (echoed + 1) rest (.send (.echo kind payload) :: done)
    | .ping payload => consume gathering echoed rest (.send (.pong payload) :: done)
    | .close farewell =>
      ((.send (.close farewell) :: .note farewell :: done).reverse, .ended (.peerClosed echoed))
    | .fail f => (done.reverse, .ended (.failed f))
termination_by buffer.length

/-- Reads bytes that have arrived. -/
def feed (s : Session) (bytes : Bytes) : List Reaction × Progress :=
  consume s.gathering s.echoed (s.buffer ++ bytes) []

/-- Runs a session on everything that waits on its connection.  A connection that was reset fails
at once; of a client that has vanished the rest is read, but the first thing to be sent fails. -/
def poll (s : Session) (w : Wire) : List Reaction × Progress :=
  match w.state with
  | .present => s.feed w.unread
  | .finished =>
    let (reactions, progress) := s.feed w.unread
    (reactions, progress.atEnd)
  | .vanished =>
    let (reactions, progress) := s.feed w.unread
    if reactions.any Reaction.isSend then
      (reactions.takeWhile fun r => !r.isSend, .ended (.failed (.network .brokenPipe)))
    else (reactions, progress.atEnd)
  | .reset => ([], .ended (.failed (.network .connectionReset)))

end Session

end WebSocketEcho
