import WebSocketEcho.Bytes

/-!
# UTF-8

UTF-8 as a machine that reads one byte at a time.  A state says which bytes may come next, so a
text that arrives in pieces is checked piece by piece, as early as possible: `step` refuses a byte
exactly when no continuation could make the text valid again.
-/

namespace WebSocketEcho.Utf8

/-- What a checker must remember between two bytes. -/
inductive State where
  /-- Between two characters. -/
  | boundary
  | one
  | two
  | three
  /-- After `E0`: the next byte may not make an overlong form. -/
  | afterE0
  /-- After `ED`: the next byte may not make a surrogate. -/
  | afterED
  /-- After `F0`: the next byte may not make an overlong form. -/
  | afterF0
  /-- After `F4`: the next byte may not pass U+10FFFF. -/
  | afterF4
deriving DecidableEq, Repr, Inhabited

def isContinuation (b : UInt8) : Bool := 0x80 ≤ b && b ≤ 0xBF

/-- One byte further, or a refusal. -/
def step : State → UInt8 → Option State
  | .boundary, b =>
    if b ≤ 0x7F then some .boundary
    else if b ≤ 0xC1 then none
    else if b ≤ 0xDF then some .one
    else if b = 0xE0 then some .afterE0
    else if b = 0xED then some .afterED
    else if b ≤ 0xEF then some .two
    else if b = 0xF0 then some .afterF0
    else if b ≤ 0xF3 then some .three
    else if b = 0xF4 then some .afterF4
    else none
  | .one, b => if isContinuation b then some .boundary else none
  | .two, b => if isContinuation b then some .one else none
  | .three, b => if isContinuation b then some .two else none
  | .afterE0, b => if 0xA0 ≤ b && b ≤ 0xBF then some .one else none
  | .afterED, b => if 0x80 ≤ b && b ≤ 0x9F then some .one else none
  | .afterF0, b => if 0x90 ≤ b && b ≤ 0xBF then some .two else none
  | .afterF4, b => if 0x80 ≤ b && b ≤ 0x8F then some .two else none

def run : State → Bytes → Option State
  | s, [] => some s
  | s, b :: rest =>
    match step s b with
    | none => none
    | some t => run t rest

/-- A piece that follows another piece is read from where that one ended. -/
theorem run_append (s : State) (a b : Bytes) :
    run s (a ++ b) = (run s a).bind (run · b) := by
  induction a generalizing s with
  | nil => rfl
  | cons x a ih =>
    simp only [List.cons_append, run]
    cases step s x with
    | none => rfl
    | some t => exact ih t

/-- Whole texts: the machine accepts and ends between two characters. -/
def isValid (bytes : Bytes) : Bool := run .boundary bytes == some .boundary

/-! ## Characters -/

def encodeChar (c : Char) : Bytes :=
  let n := c.toNat
  if n < 0x80 then [UInt8.ofNat n]
  else if n < 0x800 then [UInt8.ofNat (0xC0 + n / 0x40), UInt8.ofNat (0x80 + n % 0x40)]
  else if n < 0x10000 then
    [UInt8.ofNat (0xE0 + n / 0x1000), UInt8.ofNat (0x80 + n / 0x40 % 0x40),
      UInt8.ofNat (0x80 + n % 0x40)]
  else
    [UInt8.ofNat (0xF0 + n / 0x40000), UInt8.ofNat (0x80 + n / 0x1000 % 0x40),
      UInt8.ofNat (0x80 + n / 0x40 % 0x40), UInt8.ofNat (0x80 + n % 0x40)]

def encode (cs : List Char) : Bytes := cs.flatMap encodeChar

/-- The payload bits of a byte that starts a character. -/
def leadBits (b : UInt8) : Nat :=
  if b ≤ 0x7F then b.toNat
  else if b ≤ 0xDF then b.toNat % 0x20
  else if b ≤ 0xEF then b.toNat % 0x10
  else b.toNat % 0x08

/-- Reads characters: `value` holds the bits of the character under way, `done` the characters
before it, last first. -/
def decodeFrom : State → Nat → List Char → Bytes → Option (List Char)
  | .boundary, _, done, [] => some done.reverse
  | _, _, _, [] => none
  | s, value, done, b :: rest =>
    match step s b with
    | none => none
    | some t =>
      let value := if s = .boundary then leadBits b else 0x40 * value + b.toNat % 0x40
      if t = .boundary then decodeFrom t 0 (Char.ofNat value :: done) rest
      else decodeFrom t value done rest

/-- The characters that the bytes spell, if they are valid. -/
def decode? (bytes : Bytes) : Option (List Char) := decodeFrom .boundary 0 [] bytes

/-- The text that the bytes spell, and nothing for bytes that spell none. -/
def text (bytes : Bytes) : String := String.ofList ((decode? bytes).getD [])

def ofText (t : String) : Bytes := encode t.toList

end WebSocketEcho.Utf8
