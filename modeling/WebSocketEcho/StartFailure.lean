import WebSocketEcho.Settings
import WebSocketEcho.Wire

/-!
# Why a server does not start

A start fails on a host that is no address or on an address that cannot be bound.  Either failure
has a context and a cause, shown on one line or as a report.
-/

namespace WebSocketEcho

/-- Why a server does not start. -/
inductive StartFailure where
  | badHost (host : String)
  | bind (address : SocketAddress) (cause : NetworkError)
deriving DecidableEq, Repr

namespace StartFailure

def context : StartFailure → String
  | .badHost host => "invalid bind address: '" ++ host ++ "'"
  | .bind address _ => "failed to bind listener on " ++ address.text

def cause : StartFailure → String
  | .badHost _ => "invalid IP address syntax"
  | .bind _ cause => cause.message

def line (f : StartFailure) : String := f.context ++ ": " ++ f.cause

/-- Context and cause as a report. -/
def report (f : StartFailure) : String :=
  "Error: " ++ f.context ++ "\n\nCaused by:\n    " ++ f.cause ++ "\n"

end StartFailure

end WebSocketEcho
