import WebSocketEcho.Counters
import WebSocketEcho.Decimal

/-!
# The status report

The body of the status page: both counters as one JSON object without blanks, the peak first.
-/

namespace WebSocketEcho

/-- What the status page tells. -/
structure Report where
  max : UInt64
  active : UInt64
deriving DecidableEq, Repr, Inhabited

namespace Report

def ofCounters (c : Counters) : Report := ⟨c.max, c.active⟩

def render (r : Report) : Bytes :=
  Bytes.ofText "\x7b\"max\":" ++ Decimal.bytes r.max.toNat ++
    (Bytes.ofText ",\"active\":" ++ Decimal.bytes r.active.toNat ++ Bytes.ofText "\x7d")

end Report

end WebSocketEcho
