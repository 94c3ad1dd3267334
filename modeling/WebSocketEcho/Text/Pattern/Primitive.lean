import WebSocketEcho.Bytes
import WebSocketEcho.Text.Blank

/-!
# The smallest pieces of a pattern

A pattern is a regular expression over a text.  This file reads what a backslash stands for, and
says which pieces are understood in which mode.  No property of characters is known beyond ASCII, so
whatever would need one is not understood: letter case, and the classes of letters, digits and
blanks.  Without Unicode these have their ASCII meaning, but then nothing may match a part of a
character.
-/

namespace WebSocketEcho.Text.Pattern

/-- What the flags of a pattern have set, as far as it decides whether the pattern is understood. -/
structure Modes where
  ignoresCase : Bool
  unicode : Bool
  /-- Blanks and comments between the pieces are passed over. -/
  verbose : Bool
deriving DecidableEq, Repr

def Modes.standard : Modes := ⟨false, true, false⟩

/-- A piece that is no group, set or operator. -/
inductive Primitive where
  /-- A character, perhaps given as a byte in two digits. -/
  | literal (c : Char) (byBytes : Bool)
  /-- A place; some are places at the edge of a word. -/
  | place (ofWord : Bool)
  /-- One of the classes that have a letter. -/
  | shorthand (negated : Bool)
deriving DecidableEq, Repr

namespace Modes

/-- Passes over a comment up to the end of its line. -/
def skipComment : List Char → List Char
  | [] => []
  | c :: rest => if c = '\n' then rest else skipComment rest

theorem length_skipComment (cs : List Char) : (skipComment cs).length ≤ cs.length := by
  induction cs with
  | nil => simp [skipComment]
  | cons c rest ih =>
    simp only [skipComment, List.length_cons]
    split <;> omega

/-- Passes over blanks and comments. -/
def skipInsignificant : List Char → List Char
  | [] => []
  | c :: rest =>
    if isBlank c then skipInsignificant rest
    else if c = '#' then
      have := length_skipComment rest
      skipInsignificant (skipComment rest)
    else c :: rest
termination_by cs => cs.length

/-- Passes over what the modes leave out of account. -/
def skip (m : Modes) (cs : List Char) : List Char :=
  if m.verbose then skipInsignificant cs else cs

/-- Whether a piece is understood outside of sets. -/
def understands (m : Modes) : Primitive → Bool
  | .literal c byBytes => if m.unicode then !m.ignoresCase else !byBytes || c.toNat < 0x80
  | .place ofWord => !ofWord || !m.unicode
  | .shorthand negated => !m.unicode && !negated

/-- Whether a piece is understood as a member of a set. -/
def understandsMember (m : Modes) : Primitive → Bool
  | .literal c _ => if m.unicode then !m.ignoresCase else c.toNat < 0x80
  | .place _ => false
  | .shorthand negated => !m.unicode && !negated

end Modes

/-! ## Escapes -/

def hexDigit? (c : Char) : Option Nat :=
  if c.toNat < 0x80 then Ascii.hexValue? (UInt8.ofNat c.toNat) else none

/-- Reads `count` more hexadecimal digits. -/
def readHex (m : Modes) : Nat → Nat → List Char → Option (Nat × List Char)
  | 0, value, cs => some (value, cs)
  | count + 1, value, cs =>
    match m.skip cs with
    | [] => none
    | c :: rest => (hexDigit? c).bind fun d => readHex m count (16 * value + d) rest

/-- Reads a character that is given by its number in a fixed count of digits. -/
def readNumbered (m : Modes) (count : Nat) (cs : List Char) : Option (Primitive × List Char) := do
  let (value, rest) ← readHex m count 0 cs
  if value < 0xD800 || (0xDFFF < value && value < 0x110000) then
    return (.literal (Char.ofNat value) (count = 2), rest)
  else none

/-- The controls that have a letter. -/
def control? : Char → Option Char
  | 'a' => some '\x07'
  | 't' => some '\x09'
  | 'n' => some '\x0a'
  | 'v' => some '\x0b'
  | 'f' => some '\x0c'
  | 'r' => some '\x0d'
  | _ => none

/-- Reads what follows a backslash.  Signs of ASCII stand for themselves; other letters and digits,
and everything beyond ASCII, have no meaning there. -/
def readEscape (m : Modes) : List Char → Option (Primitive × List Char)
  | [] => none
  | 'x' :: rest => readNumbered m 2 rest
  | 'u' :: rest => readNumbered m 4 rest
  | 'U' :: rest => readNumbered m 8 rest
  | c :: rest =>
    if ['d', 's', 'w'].contains c then some (.shorthand false, rest)
    else if ['D', 'S', 'W'].contains c then some (.shorthand true, rest)
    else if ['A', 'z'].contains c then some (.place false, rest)
    else if ['b', 'B', '<', '>'].contains c then some (.place true, rest)
    else
      match control? c with
      | some control => some (.literal control false, rest)
      | none =>
        if c.isAlphanum || 0x80 ≤ c.toNat then none else some (.literal c false, rest)

/-! ## Nesting -/

/-- How deep things side by side nest: one alone as itself, several one level more. -/
def nesting : List Nat → Nat
  | [] => 0
  | [depth] => depth
  | depths => depths.foldl max 0 + 1

end WebSocketEcho.Text.Pattern
