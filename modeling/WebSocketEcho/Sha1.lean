import WebSocketEcho.Bytes

/-!
# SHA-1

The hash of FIPS 180: the message is padded to blocks of sixteen words, and every block stirs five
words of state through eighty rounds.  The message schedule is kept as a window of its last sixteen
words.
-/

namespace WebSocketEcho.Sha1

/-- The five words that go from block to block. -/
structure Chain where
  a : UInt32
  b : UInt32
  c : UInt32
  d : UInt32
  e : UInt32
deriving DecidableEq, Repr

def Chain.start : Chain := ⟨0x67452301, 0xEFCDAB89, 0x98BADCFE, 0x10325476, 0xC3D2E1F0⟩

def Chain.add (x y : Chain) : Chain := ⟨x.a + y.a, x.b + y.b, x.c + y.c, x.d + y.d, x.e + y.e⟩

/-- The words of a chain, each in four bytes. -/
def Chain.bytes (x : Chain) : Bytes :=
  [x.a, x.b, x.c, x.d, x.e].flatMap fun w => Bytes.ofNat 4 w.toNat

def rotate (n : UInt32) (x : UInt32) : UInt32 := x <<< n ||| x >>> (32 - n)

/-- The bitwise function and the constant of round `t`. -/
def stir (t : Nat) (x y z : UInt32) : UInt32 × UInt32 :=
  if t < 20 then ((x &&& y) ^^^ (~~~x &&& z), 0x5A827999)
  else if t < 40 then (x ^^^ y ^^^ z, 0x6ED9EBA1)
  else if t < 60 then ((x &&& y) ^^^ (x &&& z) ^^^ (y &&& z), 0x8F1BBCDC)
  else (x ^^^ y ^^^ z, 0xCA62C1D6)

def round (t : Nat) (w : UInt32) (s : Chain) : Chain :=
  let (f, k) := stir t s.b s.c s.d
  ⟨rotate 5 s.a + f + s.e + k + w, s.a, rotate 30 s.b, s.c, s.d⟩

/-- The schedule word after a window of sixteen, from its words 0, 2, 8 and 13. -/
def nextWord (window : List UInt32) : UInt32 :=
  rotate 1 (window.getD 13 0 ^^^ window.getD 8 0 ^^^ window.getD 2 0 ^^^ window.getD 0 0)

/-- `count` rounds from round `t` on.  `window` holds the schedule words `t` to `t + 15`. -/
def rounds : Nat → Nat → List UInt32 → Chain → Chain
  | 0, _, _, s => s
  | count + 1, t, window, s =>
    rounds count (t + 1) (window.drop 1 ++ [nextWord window]) (round t (window.getD 0 0) s)

def compress (s : Chain) (block : List UInt32) : Chain := s.add (rounds 80 0 block s)

/-- The padded message: a one bit, zero bits, and the length in bits in the last eight bytes. -/
def pad (message : Bytes) : Bytes :=
  let zeros := (119 - message.length % 64) % 64
  message ++ 0x80 :: List.replicate zeros 0 ++ Bytes.ofNat 8 (8 * message.length)

/-- Bytes in groups of `size`, a shorter one at the end left out. -/
def groups (size : Nat) (bytes : Bytes) : List Bytes :=
  (List.range (bytes.length / size)).map fun i => (bytes.drop (size * i)).take size

/-- The blocks of a padded message, as words. -/
def blocks (padded : Bytes) : List (List UInt32) :=
  (groups 64 padded).map fun block => (groups 4 block).map fun w => UInt32.ofNat w.toNat

def digest (message : Bytes) : Bytes :=
  ((blocks (pad message)).foldl compress Chain.start).bytes

end WebSocketEcho.Sha1
