import WebSocketEcho.Decimal.Shortest
import WebSocketEcho.Report
import WebSocketEcho.Text.Quoted
import WebSocketEcho.Utf8

/-!
# Errors in a report

What can be wrong with a text that should be a status report, where it is noticed, and the wording.
-/

namespace WebSocketEcho.Report

inductive Field where
  | max
  | active
deriving DecidableEq, Repr

def Field.name : Field → String
  | .max => "max"
  | .active => "active"

def Field.ofKey? (key : Bytes) : Option Field :=
  if key = Bytes.ofText "max" then some .max
  else if key = Bytes.ofText "active" then some .active
  else none

/-- What stands where something else was expected. -/
inductive Found where
  | null
  | boolean (b : Bool)
  | integer (n : Int)
  | float (bits : UInt64)
  | string (text : Bytes)
  | sequence
  | map
deriving DecidableEq, Repr

/-- What was expected. -/
inductive Wanted where
  | report
  | number
deriving DecidableEq, Repr

/-- What is wrong. -/
inductive Cause where
  | mismatch (found : Found) (wanted : Wanted)
  | negative (n : Int)
  | missing (f : Field)
  | duplicate (f : Field)
  /-- An array with fewer items than a report has fields. -/
  | tooShort (items : Nat)
  | expectedValue
  | invalidNumber
  | numberOutOfRange
  | trailingCharacters
  | trailingComma
  | expectedCommaOrBrace
  | expectedCommaOrBracket
  | expectedColon
  | keyNotString
  | expectedWord
  | invalidEscape
  | controlCharacter
  /-- A surrogate escape that is not the first of a pair, or is followed by no second one. -/
  | loneSurrogate
  /-- A first surrogate escape that no other escape follows. -/
  | endOfEscape
  | endInValue
  | endInObject
  | endInList
  | endInString
deriving DecidableEq, Repr

/-- The three kinds of errors. -/
inductive Category where
  /-- The text is well formed, but is no report. -/
  | data
  | syntactic
  /-- The text ends too early. -/
  | ended
deriving DecidableEq, Repr

def Cause.category : Cause → Category
  | .mismatch _ _ | .negative _ | .missing _ | .duplicate _ | .tooShort _ => .data
  | .expectedValue | .invalidNumber | .numberOutOfRange | .trailingCharacters | .trailingComma
  | .expectedCommaOrBrace | .expectedCommaOrBracket | .expectedColon | .keyNotString
  | .expectedWord | .invalidEscape | .controlCharacter | .loneSurrogate | .endOfEscape =>
    .syntactic
  | .endInValue | .endInObject | .endInList | .endInString => .ended

/-! ## Wording -/

def integerText (n : Int) : String :=
  (if n < 0 then "-" else "") ++ Decimal.text n.natAbs

def Found.describe : Found → String
  | .null => "null"
  | .boolean b => "boolean `" ++ (if b then "true" else "false") ++ "`"
  | .integer n => "integer `" ++ integerText n ++ "`"
  | .float bits => "floating point `" ++ Decimal.floatText bits ++ "`"
  | .string text => "string " ++ Text.quote ((Utf8.decode? text).getD [])
  | .sequence => "sequence"
  | .map => "map"

def Wanted.describe : Wanted → String
  | .report => "struct StatusReport"
  | .number => "u64"

def Cause.message : Cause → String
  | .mismatch found wanted =>
    "invalid type: " ++ found.describe ++ ", expected " ++ wanted.describe
  | .negative n =>
    "invalid value: " ++ (Found.integer n).describe ++ ", expected " ++ Wanted.number.describe
  | .missing f => "missing field `" ++ f.name ++ "`"
  | .duplicate f => "duplicate field `" ++ f.name ++ "`"
  | .tooShort items =>
    "invalid length " ++ Decimal.text items ++ ", expected " ++ Wanted.report.describe ++
      " with 2 elements"
  | .expectedValue => "expected value"
  | .invalidNumber => "invalid number"
  | .numberOutOfRange => "number out of range"
  | .trailingCharacters => "trailing characters"
  | .trailingComma => "trailing comma"
  | .expectedCommaOrBrace => "expected `,` or `\x7d`"
  | .expectedCommaOrBracket => "expected `,` or `]`"
  | .expectedColon => "expected `:`"
  | .keyNotString => "key must be a string"
  | .expectedWord => "expected ident"
  | .invalidEscape => "invalid escape"
  | .controlCharacter =>
    "control character (\\u0000-\\u001F) found while parsing a string"
  | .loneSurrogate => "lone leading surrogate in hex escape"
  | .endOfEscape => "unexpected end of hex escape"
  | .endInValue => "EOF while parsing a value"
  | .endInObject => "EOF while parsing an object"
  | .endInList => "EOF while parsing a list"
  | .endInString => "EOF while parsing a string"

/-! ## Places -/

/-- A place in a text: the line, from 1, and the bytes of that line before the place. -/
structure Position where
  line : Nat
  column : Nat
deriving DecidableEq, Repr

def Position.start : Position := ⟨1, 0⟩

def Position.advance (p : Position) (b : UInt8) : Position :=
  if b = 0x0A then ⟨p.line + 1, 0⟩ else ⟨p.line, p.column + 1⟩

structure Error where
  cause : Cause
  position : Position
deriving DecidableEq, Repr

def Error.message (e : Error) : String :=
  e.cause.message ++ " at line " ++ Decimal.text e.position.line ++ " column " ++
    Decimal.text e.position.column

/-- Where a byte that reveals an error puts it. -/
inductive Place where
  | here
  | past
deriving DecidableEq, Repr

/-- What one byte does to a machine that reads a token. -/
inductive Feed (α β : Type) where
  /-- The byte belongs to the token. -/
  | more (state : α)
  /-- The byte ends the token and belongs to it. -/
  | last (result : β)
  /-- The token has ended before the byte. -/
  | before (result : β)
  | fail (cause : Cause) (place : Place)
deriving Repr

end WebSocketEcho.Report
