import WebSocketEcho.Bytes

/-!
# The client's side of a connection

What the client has sent and the server has not read, and whether the client is still there.
-/

namespace WebSocketEcho

/-- What the network reports. -/
inductive NetworkError where
  | brokenPipe
  | connectionReset
  | addressInUse
  | tooManyOpenFiles
deriving DecidableEq, Repr

def NetworkError.message : NetworkError → String
  | .brokenPipe => "Broken pipe (os error 32)"
  | .connectionReset => "Connection reset by peer (os error 104)"
  | .addressInUse => "Address already in use (os error 98)"
  | .tooManyOpenFiles => "Too many open files (os error 24)"

/-- Whether the client is still there. -/
inductive Presence where
  /-- The client may send more and receives. -/
  | present
  /-- The client has closed its side and still receives. -/
  | finished
  /-- The client is gone: what it sent can be read, but writes fail. -/
  | vanished
  /-- The client has reset the connection: reads and writes fail. -/
  | reset
deriving DecidableEq, Repr

/-- One connection, seen from the server. -/
structure Wire where
  /-- Bytes that were sent and not read. -/
  unread : Bytes
  state : Presence
deriving DecidableEq, Repr

namespace Wire

/-- A connection on which nothing has happened. -/
def fresh : Wire := ⟨[], .present⟩

/-- The client sends. -/
def send (w : Wire) (bytes : Bytes) : Wire := { w with unread := w.unread ++ bytes }

/-- Whether what is written reaches the client. -/
def isWritable (w : Wire) : Bool :=
  match w.state with
  | .present | .finished => true
  | .vanished | .reset => false

end Wire

end WebSocketEcho
