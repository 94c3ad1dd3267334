import WebSocketEcho.Bytes

/-!
# Connection counters

Two 64-bit counters: the sessions open now and the most that were ever open at once.  They change
together, so no reader sees more active sessions than the peak.  Both ends saturate: the counters
never wrap.
-/

namespace WebSocketEcho

structure Counters where
  /-- Sessions open now. -/
  active : UInt64
  /-- The highest value `active` has had. -/
  max : UInt64
deriving DecidableEq, Repr, Inhabited

namespace Counters

def zero : Counters := ⟨0, 0⟩

/-- One more, stopping at the largest 64-bit number. -/
def saturatingSucc (n : UInt64) : UInt64 :=
  if n = 0xFFFFFFFFFFFFFFFF then n else n + 1

/-- One less, stopping at zero. -/
def saturatingPred (n : UInt64) : UInt64 :=
  if n = 0 then 0 else n - 1

/-- A session opens: `active` grows, and `max` follows if it was passed. -/
def enter (c : Counters) : Counters :=
  let active := saturatingSucc c.active
  ⟨active, if c.max < active then active else c.max⟩

def leave (c : Counters) : Counters :=
  { c with active := saturatingPred c.active }

end Counters

end WebSocketEcho
