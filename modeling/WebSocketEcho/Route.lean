import WebSocketEcho.Bytes

/-!
# Routes

One path leads to the echo endpoint; every other path shows the status page.
-/

namespace WebSocketEcho

inductive Route where
  | echo
  | status
deriving DecidableEq, Repr

def Route.echoPath : Bytes := Bytes.ofText "/ws"

/-- The route of a path without its query.  The path is compared byte for byte. -/
def Route.ofPath (path : Bytes) : Route :=
  if path = echoPath then .echo else .status

end WebSocketEcho
