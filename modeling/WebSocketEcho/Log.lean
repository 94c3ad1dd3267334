import WebSocketEcho.Service
import WebSocketEcho.Session
import WebSocketEcho.Settings

/-!
# The log

Everything that the server tells its operator, as events, and the one line that each is written as.
-/

namespace WebSocketEcho.Log

/-- What the log tells. -/
inductive Event where
  | listening (port : UInt16)
  | connected (peer : SocketAddress)
  | acceptFailed (cause : NetworkError)
  | requested (peer : SocketAddress) (method : Bytes) (target : Http.Target)
  | handshakeRefused (peer : SocketAddress) (why : Handshake.Refusal)
  | connectionFailed (peer : SocketAddress) (fault : Http.Fault)
  /-- The handshake was accepted, but its answer could not be written. -/
  | upgradeFailed (peer : SocketAddress)
  | sessionOpened (peer : SocketAddress) (active : UInt64)
  | closeReceived (farewell : Option Farewell)
  | sessionEnded (peer : SocketAddress) (outcome : Outcome)
  | sessionClosed (peer : SocketAddress) (active : UInt64)
deriving DecidableEq, Repr

inductive Level where
  | debug
  | info
  | warn
  | error
deriving DecidableEq, Repr

def Level.name : Level → String
  | .debug => "DEBUG"
  | .info => "INFO"
  | .warn => "WARN"
  | .error => "ERROR"

namespace Event

def level : Event → Level
  | .listening _ | .sessionOpened _ _ | .sessionClosed _ _ => .info
  | .connected _ | .requested _ _ _ | .connectionFailed _ _ | .closeReceived _
  | .sessionEnded _ _ => .debug
  | .handshakeRefused _ _ | .upgradeFailed _ => .warn
  | .acceptFailed _ => .error

def message : Event → String
  | .listening port => "Listening on port " ++ Decimal.text port.toNat
  | .connected peer => "new connection from " ++ peer.text
  | .acceptFailed cause => "accept error: " ++ cause.message
  | .requested peer method target =>
    peer.text ++ ": " ++ Bytes.toText method ++ " " ++ target.text
  | .handshakeRefused peer why =>
    peer.text ++ ": rejected WebSocket upgrade: " ++ why.message
  | .connectionFailed peer fault =>
    "connection " ++ peer.text ++ " ended with error: " ++ fault.message
  | .upgradeFailed peer => peer.text ++ ": WebSocket upgrade failed: operation was canceled"
  | .sessionOpened peer active =>
    "echo session " ++ peer.text ++ " opened (" ++ Decimal.text active.toNat ++ " active)"
  | .closeReceived farewell => "close frame received: " ++ Farewell.describe farewell
  | .sessionEnded peer (.peerClosed echoed) =>
    "echo session " ++ peer.text ++ ": peer closed after " ++ Decimal.text echoed.toNat ++ " frames"
  | .sessionEnded peer (.failed f) =>
    "echo session " ++ peer.text ++ " ended with error: " ++ f.message
  | .sessionClosed peer active =>
    "echo session " ++ peer.text ++ " closed (" ++ Decimal.text active.toNat ++ " active)"

def line (e : Event) : String := e.level.name ++ " " ++ e.message

end Event

end WebSocketEcho.Log
