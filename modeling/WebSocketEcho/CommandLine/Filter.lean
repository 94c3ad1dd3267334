import WebSocketEcho.Decimal
import WebSocketEcho.Text.Pattern
import WebSocketEcho.Text.Slice

/-!
# Log filters

A filter is a list of directives between commas.  Each lets the events of a target through from a
level on; of several that match an event, the most specific one decides.  A directive is a level, a
target, a target with a level, or one of these with a span and fields in brackets.

The signs of a directive are looked for in its text without the blanks at its ends.  The positions
where they were found are then taken in the text with its blanks, so blanks in front shift every
part towards the front, and blanks at the end belong to the last part.
-/

namespace WebSocketEcho.CommandLine

/-- The levels that a directive can have, from nothing to everything. -/
inductive Verbosity where
  | off
  | error
  | warn
  | info
  | debug
  | trace
deriving DecidableEq, Repr

namespace Verbosity

def rank : Verbosity → Nat
  | .off => 0
  | .error => 1
  | .warn => 2
  | .info => 3
  | .debug => 4
  | .trace => 5

def name : Verbosity → String
  | .off => "off"
  | .error => "error"
  | .warn => "warn"
  | .info => "info"
  | .debug => "debug"
  | .trace => "trace"

def all : List Verbosity := [.off, .error, .warn, .info, .debug, .trace]

/-- The level that a text names, by number or by name in either case. -/
def ofChars? (cs : List Char) : Option Verbosity :=
  let digits := if cs.head? = some '+' then cs.drop 1 else cs
  match Decimal.ofChars? digits with
  | some n => all.find? fun v => v.rank == n
  | none => all.find? fun v => v.name.toList == cs.map Char.toLower

end Verbosity

structure Directive where
  level : Verbosity
  target : Option (List Char)
  /-- The name of a span. -/
  span : Option (List Char)
  /-- The names of fields, and whether a value is asked of each. -/
  fields : List (List Char × Bool)
deriving DecidableEq, Repr

/-! ## Fields -/

/-- Whether a text is a number with a sign in front, whole or not, perhaps with an exponent, or one
of the words for what is no finite number. -/
def isSignedNumber : List Char → Bool
  | '+' :: cs | '-' :: cs =>
    let word := String.ofList (cs.map Char.toLower)
    if word = "inf" || word = "infinity" || word = "nan" then true
    else
      let whole := cs.takeWhile Char.isDigit
      let rest := cs.drop whole.length
      let tail := if rest.head? = some '.' then rest.drop 1 else []
      let part := tail.takeWhile Char.isDigit
      let rest := if rest.head? = some '.' then tail.drop part.length else rest
      let exponent : Bool := match rest with
        | [] => true
        | 'e' :: '+' :: ds | 'e' :: '-' :: ds | 'E' :: '+' :: ds | 'E' :: '-' :: ds
        | 'e' :: ds | 'E' :: ds => !ds.isEmpty && ds.all Char.isDigit
        | _ => false
      !(whole.isEmpty && part.isEmpty) && exponent
  | _ => false

/-- Whether a field can have a value: a truth value, a number or a pattern.  All of these are
patterns but numbers with a sign. -/
def isFieldValue (cs : List Char) : Bool := isSignedNumber cs || Text.Pattern.isUnderstood cs

/-- A field, perhaps with a value, which ends at a second equals sign. -/
def readField (cs : List Char) : Option (List Char × Bool) :=
  if cs.isEmpty then none
  else
    let name := cs.takeWhile (· != '=')
    match cs.drop name.length with
    | [] => some (name, false)
    | _ :: rest => if isFieldValue (rest.takeWhile (· != '=')) then some (name, true) else none

/-! ## Reading -/

/-- Whether a directive may start with a character, brackets aside. -/
def startsDirective (c : Char) : Bool :=
  c == '-' || c == ':' || c == '_' || Text.isAlphanumeric c

/-- A level after an equals sign, which stands right before a position; none is the highest. -/
def readLevel (whole : List Char) (start : Nat) : Option Verbosity := do
  let cs ← Text.sliceFrom? whole start
  if cs.isEmpty then some .trace else Verbosity.ofChars? cs

/-- The rest of a directive from a position behind the closing bracket of a span. -/
def readAfterSpan (whole : List Char) (d : Directive) (start : Nat) : List Char → Option Directive
  | [] => some d
  | '=' :: _ => (readLevel whole (start + 1)).map fun v => { d with level := v }
  | _ => none

/-- A span with its fields, from a position behind its opening bracket on, where `rest` stands. -/
def readSpan (whole : List Char) (target : Option (List Char)) (start : Nat) (rest : List Char) :
    Option Directive := do
  let word := rest.takeWhile fun c => c != ']' && c != '\x7b'
  let stop := start + Text.byteSize word
  let name ← Text.slice? whole start stop
  match rest.drop word.length with
  | ']' :: rest => readAfterSpan whole ⟨.trace, target, some name, []⟩ (stop + 1) rest
  | '\x7b' :: rest =>
    let inside := rest.takeWhile (· != '\x7d')
    let fieldStop := stop + 1 + Text.byteSize inside
    let field ← readField (← Text.slice? whole (stop + 1) fieldStop)
    match rest.drop inside.length with
    | '\x7d' :: ']' :: rest =>
      readAfterSpan whole ⟨.trace, target, if name.isEmpty then none else some name, [field]⟩
        (fieldStop + 2) rest
    | _ => none
  | _ => none

def Directive.read (whole : List Char) : Option Directive :=
  match Text.trim whole with
  | [] => none
  | '[' :: rest => readSpan whole none 1 rest
  | c :: rest =>
    if !startsDirective c then none
    else
      let word := (c :: rest).takeWhile fun c => c != '=' && c != '['
      let stop := Text.byteSize word
      match (c :: rest).drop word.length with
      | '=' :: _ => do
        let target ← Text.slice? whole 0 stop
        return ⟨← readLevel whole (stop + 1), target, none, []⟩
      | '[' :: rest => do readSpan whole (← Text.slice? whole 0 stop) (stop + 1) rest
      | _ =>
        match Verbosity.ofChars? whole with
        | some v => some ⟨v, none, none, []⟩
        | none => some ⟨.trace, whole, none, []⟩

/-- The directives of a filter, unless one of them cannot be read. -/
def readFilter (text : String) : Option (List Directive) :=
  ((text.toList.splitOnP (· == ',')).filter (!·.isEmpty)).mapM Directive.read

/-! ## Deciding -/

/-- Whether a directive can be decided without spans: it has none, and asks no value of a field. -/
def Directive.isStatic (d : Directive) : Bool := d.span.isNone && !d.fields.any (·.2)

/-- Whether a static directive speaks of a target.  The events of the program have a message and
no other field. -/
def Directive.matches (d : Directive) (target : List Char) : Bool :=
  (d.target.getD []).isPrefixOf target && d.fields.all fun f => f.1 == "message".toList

/-- Whether a directive is at least as specific as another: by its target, then by its fields. -/
def Directive.outranks (d e : Directive) : Bool :=
  let size (d : Directive) : Nat := match d.target with
    | none => 0
    | some t => t.length + 1
  size e < size d || (size e = size d && e.fields.length ≤ d.fields.length)

/-- The directive that decides about a target: the last of the most specific ones. -/
def deciding? (target : List Char) (directives : List Directive) : Option Directive :=
  (directives.filter fun d => d.isStatic && d.matches target).foldl
    (fun best d =>
      match best with
      | none => some d
      | some e => if d.outranks e then some d else best)
    none

/-- Whether directives let the events of a target through at a level.  No directives at all let
errors through. -/
def admits (directives : List Directive) (target : String) (level : Verbosity) : Bool :=
  if directives.isEmpty then level.rank ≤ Verbosity.error.rank
  else (deciding? target.toList directives).any fun d => level.rank ≤ d.level.rank

/-- Whether a filter text lets the events of a target through at a level.  A filter that is absent
or cannot be read is `info`. -/
def filterAdmits (filter : Option String) (target : String) (level : Verbosity) : Bool :=
  admits ((filter.bind readFilter).getD [⟨.info, none, none, []⟩]) target level

end WebSocketEcho.CommandLine
