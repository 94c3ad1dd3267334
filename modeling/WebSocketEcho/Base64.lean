import WebSocketEcho.Bytes

/-!
# Base64

The standard alphabet with padding: three bytes become four letters, and one or two bytes at the
end are filled up with `=`.
-/

namespace WebSocketEcho.Base64

/-- The letter of a number below 64. -/
def letter (n : Nat) : UInt8 :=
  if n < 26 then UInt8.ofNat (0x41 + n)
  else if n < 52 then UInt8.ofNat (0x61 + (n - 26))
  else if n < 62 then UInt8.ofNat (0x30 + (n - 52))
  else if n = 62 then 0x2B
  else 0x2F

def filler : UInt8 := 0x3D

/-- Bytes as letters, in groups of four. -/
def encode : Bytes → Bytes
  | [] => []
  | [a] =>
    let n := 16 * a.toNat
    [letter (n / 64), letter (n % 64), filler, filler]
  | [a, b] =>
    let n := 4 * (256 * a.toNat + b.toNat)
    [letter (n / 4096), letter (n / 64 % 64), letter (n % 64), filler]
  | a :: b :: c :: rest =>
    let n := 65536 * a.toNat + 256 * b.toNat + c.toNat
    letter (n / 262144) :: letter (n / 4096 % 64) :: letter (n / 64 % 64) :: letter (n % 64) ::
      encode rest

end WebSocketEcho.Base64
