import WebSocketEcho.Decimal

/-!
# Close codes

The status numbers of a close frame (RFC 6455, section 7.4): which of them may travel, and their
names.
-/

namespace WebSocketEcho

/-- A status number of a close frame. -/
structure CloseCode where
  number : UInt16
deriving DecidableEq, Repr, Inhabited

namespace CloseCode

def protocol : CloseCode := ⟨1002⟩

/-- The codes with a meaning of their own, and their names. -/
def names : List (UInt16 × String) :=
  [(1000, "Normal"), (1001, "Away"), (1002, "Protocol"), (1003, "Unsupported"), (1007, "Invalid"),
    (1008, "Policy"), (1009, "Size"), (1010, "Extension"), (1011, "Error"), (1012, "Restart"),
    (1013, "Again")]

/-- The codes that may travel: those with a meaning, the registered and the private ones. -/
def isAllowed (c : CloseCode) : Bool :=
  (names.lookup c.number).isSome || (3000 ≤ c.number && c.number ≤ 4999)

/-- The name of a code that may travel. -/
def name (c : CloseCode) : String :=
  match names.lookup c.number with
  | some name => name
  | none =>
    (if c.number < 4000 then "Iana(" else "Library(") ++ Decimal.text c.number.toNat ++ ")"

def bytes (c : CloseCode) : Bytes := Bytes.ofNat 2 c.number.toNat

end CloseCode

end WebSocketEcho
