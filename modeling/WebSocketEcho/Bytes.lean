/-!
# Byte strings

Everything that travels on a connection is a list of bytes.  This file holds the passage between
bytes and texts of one byte a character, the ASCII classes that the formats below are written in,
and `Bytes.split?`, which takes a prefix of a stated length.
-/

namespace WebSocketEcho

/-- A byte string, first byte first. -/
abbrev Bytes := List UInt8

namespace Bytes

/-- The bytes of a text whose characters are all below U+0100, one byte each. -/
def ofText (text : String) : Bytes :=
  text.toList.map fun c => UInt8.ofNat c.toNat

/-- Every byte as the character of the same number. -/
def toText (bytes : Bytes) : String :=
  String.ofList (bytes.map fun b => Char.ofNat b.toNat)

/-- Byte strings one after the other.  One alone is not copied. -/
def join : List Bytes → Bytes
  | [] => []
  | [bytes] => bytes
  | pieces => pieces.flatten

theorem join_eq_flatten (pieces : List Bytes) : join pieces = pieces.flatten := by
  unfold join
  split <;> simp

/-- Moves bytes from the input to the front of `taken`, which is held in reverse. -/
def splitFrom : Nat → Bytes → Bytes → Option (Bytes × Bytes)
  | 0, taken, rest => some (taken.reverse, rest)
  | _ + 1, _, [] => none
  | n + 1, taken, b :: rest => splitFrom n (b :: taken) rest

/-- The first `n` bytes and what follows them, or nothing when there are fewer.  No more than `n`
bytes are looked at. -/
def split? (n : Nat) (bytes : Bytes) : Option (Bytes × Bytes) :=
  splitFrom n [] bytes

theorem splitFrom_eq (n : Nat) (taken bytes : Bytes) :
    splitFrom n taken bytes =
      if n ≤ bytes.length then some (taken.reverse ++ bytes.take n, bytes.drop n) else none := by
  induction n generalizing taken bytes with
  | zero => simp [splitFrom]
  | succ n ih =>
    cases bytes with
    | nil => simp [splitFrom]
    | cons b rest => simp [splitFrom, ih]

/-- `split?` is `take` beside `drop`, as long as there are enough bytes. -/
theorem split?_eq (n : Nat) (bytes : Bytes) :
    split? n bytes = if n ≤ bytes.length then some (bytes.take n, bytes.drop n) else none := by
  simp [split?, splitFrom_eq]

/-- The big-endian number that the bytes spell. -/
def toNat (bytes : Bytes) : Nat :=
  bytes.foldl (fun value b => 256 * value + b.toNat) 0

/-- The `count` lowest bytes of a number, highest first. -/
def ofNat : Nat → Nat → Bytes
  | 0, _ => []
  | count + 1, value => ofNat count (value / 256) ++ [UInt8.ofNat value]

@[simp] theorem length_ofNat (count value : Nat) : (ofNat count value).length = count := by
  induction count generalizing value with
  | zero => rfl
  | succ count ih => simp [ofNat, ih]

end Bytes

/-! ## ASCII classes -/

namespace Ascii

def isDigit (b : UInt8) : Bool := 0x30 ≤ b && b ≤ 0x39

def isUpper (b : UInt8) : Bool := 0x41 ≤ b && b ≤ 0x5A

def isLower (b : UInt8) : Bool := 0x61 ≤ b && b ≤ 0x7A

def isLetter (b : UInt8) : Bool := isUpper b || isLower b

/-- Space, tab, line feed, form feed and carriage return. -/
def isWhitespace (b : UInt8) : Bool :=
  b == 0x20 || b == 0x09 || b == 0x0A || b == 0x0C || b == 0x0D

/-- The characters that have a glyph: all but space, controls and DEL. -/
def isGraphic (b : UInt8) : Bool := 0x21 ≤ b && b ≤ 0x7E

def lower (b : UInt8) : UInt8 := if isUpper b then b + 0x20 else b

/-- The value of a hexadecimal digit of either case. -/
def hexValue? (b : UInt8) : Option Nat :=
  if isDigit b then some (b.toNat - 0x30)
  else if 0x41 ≤ b && b ≤ 0x46 then some (b.toNat - 0x37)
  else if 0x61 ≤ b && b ≤ 0x66 then some (b.toNat - 0x57)
  else none

/-- Equality that does not tell upper case from lower case. -/
def sameWord (a b : Bytes) : Bool := a.map lower == b.map lower

def trimBlanks (bytes : Bytes) : Bytes :=
  let isBlank (b : UInt8) : Bool := b == 0x20 || b == 0x09
  ((bytes.dropWhile isBlank).reverse.dropWhile isBlank).reverse

end Ascii

end WebSocketEcho
