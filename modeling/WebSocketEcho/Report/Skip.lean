import WebSocketEcho.Report.Quoted

/-!
# Values that are skipped

The values of unknown keys are read only for their syntax.  The brackets that are still open lie on
a stack, so nesting has no limit.
-/

namespace WebSocketEcho.Report

inductive Word where
  | null
  | yes
  | no
deriving DecidableEq, Repr

namespace Word

/-- The letters after the first. -/
def tail : Word → Bytes
  | .null => Bytes.ofText "ull"
  | .yes => Bytes.ofText "rue"
  | .no => Bytes.ofText "alse"

/-- The word that starts with a letter. -/
def begin? (b : UInt8) : Option Word :=
  if b = 0x6E then some .null
  else if b = 0x74 then some .yes
  else if b = 0x66 then some .no
  else none

/-- One letter of a word of which `rest` is to come. -/
def feed (rest : Bytes) (b : UInt8) : Feed Bytes Unit :=
  match rest with
  | [] => .before ()
  | [c] => if b = c then .last () else .fail .expectedWord .past
  | c :: rest => if b = c then .more rest else .fail .expectedWord .past

end Word

/-- The blanks of JSON: space, tab, line feed and carriage return. -/
def isBlank (b : UInt8) : Bool := b == 0x20 || b == 0x09 || b == 0x0A || b == 0x0D

namespace Skip

inductive Bracket where
  | list
  | object
deriving DecidableEq, Repr

/-- The byte that closes a bracket. -/
def Bracket.closing : Bracket → UInt8
  | .list => 0x5D
  | .object => 0x7D

/-- The error where a bracket is neither continued nor closed. -/
def Bracket.unclosed : Bracket → Cause
  | .list => .expectedCommaOrBracket
  | .object => .expectedCommaOrBrace

/-- The error where the text ends inside a bracket. -/
def Bracket.ended : Bracket → Cause
  | .list => .endInList
  | .object => .endInObject

/-- Where a skipped number stands. -/
inductive NumberPhase where
  | minus
  | zero
  | integer
  | point
  | fraction
  | exponentStart
  | exponentSign
  | exponent
deriving DecidableEq, Repr

/-- Whether a skipped number may end in a phase. -/
def NumberPhase.isWhole : NumberPhase → Bool
  | .zero | .integer | .fraction | .exponent => true
  | .minus | .point | .exponentStart | .exponentSign => false

/-- The phase after a byte that belongs to the number. -/
def NumberPhase.next? (b : UInt8) : NumberPhase → Option NumberPhase
  | .minus =>
    if b = 0x30 then some .zero else if Ascii.isDigit b then some .integer else none
  | .zero =>
    if b = 0x2E then some .point
    else if b = 0x65 ∨ b = 0x45 then some .exponentStart else none
  | .integer =>
    if Ascii.isDigit b then some .integer
    else if b = 0x2E then some .point
    else if b = 0x65 ∨ b = 0x45 then some .exponentStart else none
  | .point => if Ascii.isDigit b then some .fraction else none
  | .fraction =>
    if Ascii.isDigit b then some .fraction
    else if b = 0x65 ∨ b = 0x45 then some .exponentStart else none
  | .exponentStart =>
    if b = 0x2B ∨ b = 0x2D then some .exponentSign
    else if Ascii.isDigit b then some .exponent else none
  | .exponentSign => if Ascii.isDigit b then some .exponent else none
  | .exponent => if Ascii.isDigit b then some .exponent else none

/-- One byte of a skipped number, or the byte after it. -/
def NumberPhase.feed (p : NumberPhase) (b : UInt8) : Feed NumberPhase Unit :=
  match p.next? b with
  | some p => .more p
  | none =>
    if p.isWhole && !(p == .zero && Ascii.isDigit b) then .before ()
    else .fail .invalidNumber .past

/-- What is being read. -/
inductive Phase where
  | value
  | word (rest : Bytes)
  | number (p : NumberPhase)
  | text (t : Quoted.Skipped)
  /-- After an opening bracket. -/
  | opened
  /-- After a value inside a bracket. -/
  | afterItem
  | key
  | keyText (t : Quoted.Skipped)
  | colon
deriving DecidableEq, Repr

/-- A skipped value under way, with the open brackets, innermost first. -/
structure Partial where
  stack : List Bracket
  phase : Phase
deriving DecidableEq, Repr

def Partial.start : Partial := ⟨[], .value⟩

/-- After a value that ends with its last byte. -/
def close (stack : List Bracket) : Feed Partial Unit :=
  if stack.isEmpty then .last () else .more ⟨stack, .afterItem⟩

/-- The first byte of a value. -/
def feedValue (stack : List Bracket) (b : UInt8) : Feed Partial Unit :=
  if isBlank b then .more ⟨stack, .value⟩
  else if b = 0x5B then .more ⟨.list :: stack, .opened⟩
  else if b = 0x7B then .more ⟨.object :: stack, .opened⟩
  else if b = 0x22 then .more ⟨stack, .text .plain⟩
  else if b = 0x2D then .more ⟨stack, .number .minus⟩
  else if b = 0x30 then .more ⟨stack, .number .zero⟩
  else if Ascii.isDigit b then .more ⟨stack, .number .integer⟩
  else
    match Word.begin? b with
    | some w => .more ⟨stack, .word w.tail⟩
    | none => .fail .expectedValue .past

/-- A byte where a key is wanted. -/
def feedKey (stack : List Bracket) (b : UInt8) : Feed Partial Unit :=
  if isBlank b then .more ⟨stack, .key⟩
  else if b = 0x22 then .more ⟨stack, .keyText .plain⟩
  else .fail .keyNotString .past

/-- A byte after a value, inside the bracket that is on top of the stack. -/
def feedAfterItem (stack : List Bracket) (b : UInt8) : Feed Partial Unit :=
  match stack with
  | [] => .before ()
  | bracket :: rest =>
    if isBlank b then .more ⟨stack, .afterItem⟩
    else if b = 0x2C then
      .more ⟨stack, match bracket with | .list => .value | .object => .key⟩
    else if b = bracket.closing then close rest
    else .fail bracket.unclosed .past

/-- A byte after an opening bracket. -/
def feedOpened (stack : List Bracket) (b : UInt8) : Feed Partial Unit :=
  match stack with
  | [] => .before ()
  | bracket :: rest =>
    if isBlank b then .more ⟨stack, .opened⟩
    else if b = bracket.closing then close rest
    else
      match bracket with
      | .list => feedValue stack b
      | .object => feedKey stack b

/-- One byte of a skipped value, or the byte after it. -/
def Partial.feed (p : Partial) (b : UInt8) : Feed Partial Unit :=
  match p.phase with
  | .value => feedValue p.stack b
  | .opened => feedOpened p.stack b
  | .afterItem => feedAfterItem p.stack b
  | .key => feedKey p.stack b
  | .colon =>
    if isBlank b then .more p
    else if b = 0x3A then .more { p with phase := .value }
    else .fail .expectedColon .past
  | .word rest =>
    match Word.feed rest b with
    | .more rest => .more { p with phase := .word rest }
    | .last () => close p.stack
    | .before () => feedAfterItem p.stack b
    | .fail cause place => .fail cause place
  | .number n =>
    match n.feed b with
    | .more n => .more { p with phase := .number n }
    | .last () => close p.stack
    | .before () => feedAfterItem p.stack b
    | .fail cause place => .fail cause place
  | .text t =>
    match t.feed b with
    | .more t => .more { p with phase := .text t }
    | .last () => close p.stack
    | .before () => feedAfterItem p.stack b
    | .fail cause place => .fail cause place
  | .keyText t =>
    match t.feed b with
    | .more t => .more { p with phase := .keyText t }
    | .last () | .before () => .more { p with phase := .colon }
    | .fail cause place => .fail cause place

/-- The error if the text ends here, unless the value is whole. -/
def Partial.atEnd (p : Partial) : Option Cause :=
  match p.phase, p.stack with
  | .value, _ => some .endInValue
  | .word _, _ => some .endInValue
  | .text _, _ | .keyText _, _ => some .endInString
  | .key, _ | .colon, _ => some .endInObject
  | .number n, stack =>
    if n.isWhole then stack.head?.map Bracket.ended else some .invalidNumber
  | .opened, stack | .afterItem, stack => stack.head?.map Bracket.ended

end Skip

end WebSocketEcho.Report
