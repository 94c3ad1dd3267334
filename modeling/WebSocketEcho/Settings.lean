import WebSocketEcho.Address

/-!
# Settings

What the server is started with, and the limits of its WebSocket sessions.
-/

namespace WebSocketEcho

/-- The port that is used when none is given. -/
def defaultPort : UInt16 := 9000

structure Settings where
  bind : SocketAddress
deriving DecidableEq, Repr

/-- Every interface, at the default port. -/
def Settings.standard : Settings := ⟨⟨.v4 ⟨0, 0, 0, 0⟩, defaultPort⟩⟩

/-- The limits of an echo session; `none` is no limit. -/
structure SessionLimits where
  maxFrameSize : Option Nat
  maxMessageSize : Option Nat
  /-- Whether a client may leave its frames unmasked. -/
  acceptUnmasked : Bool
deriving DecidableEq, Repr

/-- Echo sessions take frames and messages of any size, masked as the protocol demands. -/
def SessionLimits.echo : SessionLimits := ⟨none, none, false⟩

end WebSocketEcho
