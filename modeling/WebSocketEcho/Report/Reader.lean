import WebSocketEcho.Report.Number
import WebSocketEcho.Report.Skip

/-!
# Reading a report

A status report is read byte by byte.  The first byte that reveals an error decides the error,
whatever follows, and its place; a text that just ends is judged by `State.atEnd`.  Besides the
object form there is an array form, the peak first; in the object form the keys may come in any
order and among others, but not twice.
-/

namespace WebSocketEcho.Report

/-- The fields that have been read. -/
structure Fields where
  max : Option UInt64
  active : Option UInt64
deriving DecidableEq, Repr

namespace Fields

def none : Fields := ⟨.none, .none⟩

def get? (fs : Fields) : Field → Option UInt64
  | .max => fs.max
  | .active => fs.active

def set (fs : Fields) (f : Field) (n : UInt64) : Fields :=
  match f with
  | .max => { fs with max := some n }
  | .active => { fs with active := some n }

/-- The report, or the first field that is missing. -/
def report (fs : Fields) : Except Field Report :=
  match fs.max, fs.active with
  | .none, _ => .error .max
  | some _, .none => .error .active
  | some max, some active => .ok ⟨max, active⟩

end Fields

/-- What a value is read for. -/
inductive Slot where
  | whole
  | first
  | second (max : UInt64)
  /-- A field of the object form. -/
  | member (fs : Fields) (f : Field)
deriving DecidableEq, Repr

/-- What a slot takes. -/
def Slot.wanted : Slot → Wanted
  | .whole => .report
  | .first | .second _ | .member _ _ => .number

/-- Where the reader stands between two bytes. -/
inductive State where
  | value (slot : Slot)
  | number (slot : Slot) (n : Number.Partial)
  | text (slot : Slot) (t : Quoted.Partial)
  | word (slot : Slot) (w : Word) (rest : Bytes)
  /-- After the opening bracket of the array form. -/
  | listStart
  | afterFirst (max : UInt64)
  /-- After the comma between the items. -/
  | beforeSecond (max : UInt64)
  | afterSecond (r : Report)
  /-- After a comma that follows the second item. -/
  | afterExtraComma
  /-- After the opening brace of the object form. -/
  | objectStart
  | afterMember (fs : Fields)
  /-- After a comma between members. -/
  | beforeKey (fs : Fields)
  | key (fs : Fields) (t : Quoted.Partial)
  /-- After a key; `none` is a key of no field. -/
  | colon (fs : Fields) (f : Option Field)
  /-- After a key that came before. -/
  | repeated (f : Field)
  | skip (fs : Fields) (p : Skip.Partial)
  | done (r : Report)
deriving DecidableEq, Repr

/-- What a byte leads to. -/
inductive Step where
  | goOn (s : State)
  | fail (cause : Cause) (place : Place)
deriving DecidableEq, Repr

namespace State

/-! ## The end of a value -/

/-- The state after a number that a slot takes. -/
def filled (n : UInt64) : Slot → State
  | .whole => .value .whole
  | .first => .afterFirst n
  | .second max => .afterSecond ⟨max, n⟩
  | .member fs f => .afterMember (fs.set f n)

/-- A number in its slot: only unsigned numbers fit, and none fits in place of the report. -/
def settle (slot : Slot) : Number → Except Cause State
  | .unsigned n =>
    match slot with
    | .whole => .error (.mismatch (.integer n) .report)
    | _ => .ok (filled (UInt64.ofNat n) slot)
  | .negative n =>
    match slot with
    | .whole => .error (.mismatch (.integer n) .report)
    | _ => .error (.negative n)
  | .float bits => .error (.mismatch (.float bits) slot.wanted)

/-- What a word stands for. -/
def foundWord : Word → Found
  | .null => .null
  | .yes => .boolean true
  | .no => .boolean false

/-! ## Bytes between tokens -/

/-- The first byte of a value. -/
def stepValue (slot : Slot) (b : UInt8) : Step :=
  match Number.begin? b with
  | some n => .goOn (.number slot n)
  | none =>
    if b = 0x22 then .goOn (.text slot .start)
    else if b = 0x5B then
      match slot with
      | .whole => .goOn .listStart
      | _ => .fail (.mismatch .sequence slot.wanted) .here
    else if b = 0x7B then
      match slot with
      | .whole => .goOn .objectStart
      | _ => .fail (.mismatch .map slot.wanted) .here
    else
      match Word.begin? b with
      | some w => .goOn (.word slot w w.tail)
      | none => .fail .expectedValue .past

/-- The end of the object form. -/
def closeObject (fs : Fields) : Step :=
  match fs.report with
  | .ok r => .goOn (.done r)
  | .error f => .fail (.missing f) .past

/-- A byte after a value that is whole. -/
def stepAfter (s : State) (b : UInt8) : Step :=
  if isBlank b then .goOn s
  else
    match s with
    | .afterFirst max =>
      if b = 0x2C then .goOn (.beforeSecond max)
      else if b = 0x5D then .fail (.tooShort 1) .past
      else .fail .expectedCommaOrBracket .past
    | .afterSecond r =>
      if b = 0x5D then .goOn (.done r)
      else if b = 0x2C then .goOn .afterExtraComma
      else .fail .trailingCharacters .past
    | .afterMember fs =>
      if b = 0x2C then .goOn (.beforeKey fs)
      else if b = 0x7D then closeObject fs
      else .fail .expectedCommaOrBrace .past
    | _ => .fail .trailingCharacters .past

/-- The state after a key. -/
def afterKey (fs : Fields) (name : Bytes) : State :=
  match Field.ofKey? name with
  | none => .colon fs none
  | some f => if (fs.get? f).isSome then .repeated f else .colon fs (some f)

/-! ## One byte -/

/-- One byte of a number, or the byte after it. -/
def stepNumber (slot : Slot) (n : Number.Partial) (b : UInt8) : Step :=
  match n.feed b with
  | .more n => .goOn (.number slot n)
  | .last n | .before n =>
    match settle slot n with
    | .ok s => stepAfter s b
    | .error cause => .fail cause .here
  | .fail cause place => .fail cause place

def stepText (slot : Slot) (t : Quoted.Partial) (b : UInt8) : Step :=
  match t.feed b with
  | .more t => .goOn (.text slot t)
  | .last content | .before content => .fail (.mismatch (.string content) slot.wanted) .past
  | .fail cause place => .fail cause place

def stepWord (slot : Slot) (w : Word) (rest : Bytes) (b : UInt8) : Step :=
  match Word.feed rest b with
  | .more rest => .goOn (.word slot w rest)
  | .last () | .before () => .fail (.mismatch (foundWord w) slot.wanted) .past
  | .fail cause place => .fail cause place

def stepKey (fs : Fields) (t : Quoted.Partial) (b : UInt8) : Step :=
  match t.feed b with
  | .more t => .goOn (.key fs t)
  | .last name | .before name => .goOn (afterKey fs name)
  | .fail cause place => .fail cause place

/-- One byte of a skipped value, or the byte after it. -/
def stepSkip (fs : Fields) (p : Skip.Partial) (b : UInt8) : Step :=
  match p.feed b with
  | .more p => .goOn (.skip fs p)
  | .last () => .goOn (.afterMember fs)
  | .before () => stepAfter (.afterMember fs) b
  | .fail cause place => .fail cause place

def step (s : State) (b : UInt8) : Step :=
  match s with
  | .number slot n => stepNumber slot n b
  | .text slot t => stepText slot t b
  | .word slot w rest => stepWord slot w rest b
  | .key fs t => stepKey fs t b
  | .skip fs p => stepSkip fs p b
  | .value slot => if isBlank b then .goOn s else stepValue slot b
  | .listStart =>
    if isBlank b then .goOn s
    else if b = 0x5D then .fail (.tooShort 0) .past
    else stepValue .first b
  | .beforeSecond max =>
    if isBlank b then .goOn s
    else if b = 0x5D then .fail .trailingComma .past
    else stepValue (.second max) b
  | .afterExtraComma =>
    if isBlank b then .goOn s
    else if b = 0x5D then .fail .trailingComma .past
    else .fail .trailingCharacters .past
  | .objectStart =>
    if isBlank b then .goOn s
    else if b = 0x22 then .goOn (.key .none .start)
    else if b = 0x7D then closeObject .none
    else .fail .keyNotString .past
  | .beforeKey fs =>
    if isBlank b then .goOn s
    else if b = 0x22 then .goOn (.key fs .start)
    else if b = 0x7D then .fail .trailingComma .past
    else .fail .keyNotString .past
  | .colon fs f =>
    if isBlank b then .goOn s
    else if b = 0x3A then
      match f with
      | some f => .goOn (.value (.member fs f))
      | none => .goOn (.skip fs .start)
    else .fail .expectedColon .past
  | .repeated f =>
    if isBlank b then .goOn s
    else if b = 0x7D then .fail (.duplicate f) .past
    else .fail (.duplicate f) .here
  | .afterFirst _ | .afterSecond _ | .afterMember _ | .done _ => stepAfter s b

/-! ## The end of the text -/

/-- The report, or the error of a text that ends between tokens. -/
def atRest : State → Except Cause Report
  | .done r => .ok r
  | .listStart | .afterFirst _ | .afterSecond _ => .error .endInList
  | .objectStart | .afterMember _ | .colon _ _ => .error .endInObject
  | .afterExtraComma => .error .trailingCharacters
  | .repeated f => .error (.duplicate f)
  | .text _ _ | .key _ _ => .error .endInString
  | .value _ | .number _ _ | .word _ _ _ | .beforeSecond _ | .beforeKey _ | .skip _ _ =>
    .error .endInValue

/-- The report, or the error of a text that ends here. -/
def atEnd (s : State) : Except Cause Report :=
  match s with
  | .number slot n =>
    match n.atEnd with
    | .error cause => .error cause
    | .ok n =>
      match settle slot n with
      | .error cause => .error cause
      | .ok s => s.atRest
  | .skip fs p =>
    match p.atEnd with
    | some cause => .error cause
    | none => (State.afterMember fs).atRest
  | _ => s.atRest

/-! ## Whole texts -/

/-- Reads on from a state and a place. -/
def read (s : State) (p : Position) : Bytes → Except Error Report
  | [] =>
    match s.atEnd with
    | .ok r => .ok r
    | .error cause => .error ⟨cause, p⟩
  | b :: rest =>
    match s.step b with
    | .goOn t => read t (p.advance b) rest
    | .fail cause .here => .error ⟨cause, p⟩
    | .fail cause .past => .error ⟨cause, p.advance b⟩

end State

/-- The report that a text spells, or the first error in it. -/
def parse (text : Bytes) : Except Error Report := State.read (.value .whole) .start text

end WebSocketEcho.Report
