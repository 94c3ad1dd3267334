import WebSocketEcho.Report.Cause

/-!
# Strings in a report

JSON strings byte by byte, from the byte after the opening quote.  `Quoted.Partial` collects the text
and pairs surrogate escapes; `Quoted.Skipped` only finds the end of a string that nobody reads.
-/

namespace WebSocketEcho.Report.Quoted

/-- Where a string stands between two bytes. -/
inductive Phase where
  | plain
  | escape
  /-- In the four digits of an escape, the last first, perhaps after the escape of a first
  surrogate. -/
  | hex (first : Option Nat) (digits : Bytes)
  /-- After the escape of a first surrogate. -/
  | paired (first : Nat)
  /-- After the backslash that follows the escape of a first surrogate. -/
  | pairedEscape (first : Nat)
deriving DecidableEq, Repr

/-- The character that a one-letter escape stands for. -/
def escaped? (b : UInt8) : Option UInt8 :=
  if b = 0x22 ∨ b = 0x5C ∨ b = 0x2F then some b
  else if b = 0x62 then some 0x08
  else if b = 0x66 then some 0x0C
  else if b = 0x6E then some 0x0A
  else if b = 0x72 then some 0x0D
  else if b = 0x74 then some 0x09
  else none

/-- The number that four hexadecimal digits spell. -/
def hexNumber? (digits : Bytes) : Option Nat :=
  (digits.mapM Ascii.hexValue?).map fun ds => ds.foldl (fun value d => 16 * value + d) 0

def isFirst (n : Nat) : Bool := 0xD800 ≤ n && n ≤ 0xDBFF

def isSecond (n : Nat) : Bool := 0xDC00 ≤ n && n ≤ 0xDFFF

/-! ## Strings that are read -/

/-- A string under way: its bytes so far, last first. -/
structure Partial where
  read : Bytes
  phase : Phase
deriving DecidableEq, Repr

def Partial.start : Partial := ⟨[], .plain⟩

def Partial.push (p : Partial) (c : Nat) : Partial :=
  ⟨(Utf8.encodeChar (Char.ofNat c)).reverse ++ p.read, .plain⟩

/-- The end of a four-digit escape. -/
def Partial.endHex (p : Partial) (first : Option Nat) (digits : Bytes) : Feed Partial Bytes :=
  match hexNumber? digits, first with
  | none, _ => .fail .invalidEscape .past
  | some n, none =>
    if isSecond n then .fail .loneSurrogate .past
    else if isFirst n then .more { p with phase := .paired n }
    else .more (p.push n)
  | some n, some first =>
    if isSecond n then .more (p.push (0x10000 + 0x400 * (first - 0xD800) + (n - 0xDC00)))
    else .fail .loneSurrogate .past

/-- One byte of a string. -/
def Partial.feed (p : Partial) (b : UInt8) : Feed Partial Bytes :=
  match p.phase with
  | .plain =>
    if b = 0x22 then .last p.read.reverse
    else if b = 0x5C then .more { p with phase := .escape }
    else if b < 0x20 then .fail .controlCharacter .past
    else .more { p with read := b :: p.read }
  | .escape =>
    if b = 0x75 then .more { p with phase := .hex none [] }
    else
      match escaped? b with
      | some c => .more ⟨c :: p.read, .plain⟩
      | none => .fail .invalidEscape .past
  | .hex first digits =>
    if digits.length < 3 then .more { p with phase := .hex first (b :: digits) }
    else p.endHex first (b :: digits).reverse
  | .paired first =>
    if b = 0x5C then .more { p with phase := .pairedEscape first } else .fail .endOfEscape .past
  | .pairedEscape first =>
    if b = 0x75 then .more { p with phase := .hex (some first) [] } else .fail .endOfEscape .past

/-! ## Strings that are skipped -/

/-- A skipped string under way. -/
inductive Skipped where
  | plain
  | escape
  | hex (digits : Bytes)
deriving DecidableEq, Repr

/-- One byte of a skipped string. -/
def Skipped.feed (b : UInt8) : Skipped → Feed Skipped Unit
  | .plain =>
    if b = 0x22 then .last ()
    else if b = 0x5C then .more .escape
    else if b < 0x20 then .fail .controlCharacter .here
    else .more .plain
  | .escape =>
    if b = 0x75 then .more (.hex [])
    else if (escaped? b).isSome then .more .plain
    else .fail .invalidEscape .past
  | .hex digits =>
    if digits.length < 3 then .more (.hex (b :: digits))
    else if (hexNumber? (b :: digits)).isSome then .more .plain
    else .fail .invalidEscape .past

end WebSocketEcho.Report.Quoted
