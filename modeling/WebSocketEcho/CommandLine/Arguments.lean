import WebSocketEcho.CommandLine.Similarity
import WebSocketEcho.Settings

/-!
# Arguments

The options of the program and how they are read.  Arguments are taken from left to right.  An
option whose value is an argument of its own is judged when the next known option comes or the
arguments end; everything else is judged at once, and the first thing that goes wrong, or the first
request for help, decides.
-/

namespace WebSocketEcho.CommandLine

/-- Everything that can be written with two dashes. -/
inductive Flag where
  | host
  | port
  | help
  | version
deriving DecidableEq, Repr

namespace Flag

def name : Flag → String
  | .host => "host"
  | .port => "port"
  | .help => "help"
  | .version => "version"

def all : List Flag := [.host, .port, .help, .version]

def ofName? (name : List Char) : Option Flag := all.find? fun f => f.name.toList == name

/-- A flag with the name of its value. -/
def shape : Flag → String
  | .host => "--host <HOST>"
  | .port => "--port <PORT>"
  | .help => "--help"
  | .version => "--version"

end Flag

/-- The flags that take a value. -/
inductive Setting where
  | host
  | port
deriving DecidableEq, Repr

def Setting.flag : Setting → Flag
  | .host => .host
  | .port => .port

inductive PortFault where
  | empty
  | invalidDigit
  /-- More than the largest signed 64-bit number. -/
  | tooLarge
  /-- Less than the smallest signed 64-bit number. -/
  | tooSmall
  | outOfRange (n : Int)
deriving DecidableEq, Repr

inductive UsageError where
  /-- An argument that nothing takes, perhaps similar to a flag, and the flags that its usage line
  shows. -/
  | unexpected (argument : String) (similar : Option Flag) (shown : List Flag)
  | valueMissing (s : Setting)
  | repeated (s : Setting)
  | invalidPort (value : String) (why : PortFault)
  /-- A value for a flag that takes none, and whether settings have come before it. -/
  | needlessValue (value : String) (flag : Flag) (afterSettings : Bool)
deriving DecidableEq, Repr

inductive Stop where
  | help (long : Bool)
  | version
  | error (e : UsageError)
deriving DecidableEq, Repr

structure Arguments where
  host : Option String
  port : Option UInt16
  /-- The settings that have come once, in order. -/
  given : List Flag
deriving DecidableEq, Repr

/-! ## Ports -/

/-- The value of digits, as long as it stays within a bound. -/
def boundedDigits (bound : Nat) (excess : PortFault) : Nat → List Char → Except PortFault Nat
  | value, [] => .ok value
  | value, c :: rest =>
    match Decimal.digitValue? c with
    | none => .error .invalidDigit
    | some d =>
      if 10 * value + d ≤ bound then boundedDigits bound excess (10 * value + d) rest
      else .error excess

/-- A signed 64-bit number: digits after at most one sign. -/
def readSigned : List Char → Except PortFault Int
  | [] => .error .empty
  | ['+'] | ['-'] => .error .invalidDigit
  | '+' :: rest => (boundedDigits 0x7FFFFFFFFFFFFFFF .tooLarge 0 rest).map Int.ofNat
  | '-' :: rest => (boundedDigits 0x8000000000000000 .tooSmall 0 rest).map fun n => -(n : Int)
  | cs => (boundedDigits 0x7FFFFFFFFFFFFFFF .tooLarge 0 cs).map Int.ofNat

/-- The port that a text spells. -/
def readPort (text : String) : Except PortFault UInt16 :=
  match readSigned text.toList with
  | .error why => .error why
  | .ok n => if 0 ≤ n ∧ n ≤ 65535 then .ok (UInt16.ofNat n.toNat) else .error (.outOfRange n)

/-! ## One setting -/

def Arguments.none : Arguments := ⟨.none, .none, []⟩

def Arguments.has (a : Arguments) (s : Setting) : Bool := a.given.contains s.flag

/-- Judges a setting with its value.  What went wrong comes with the arguments as far as they got;
a setting that is repeated does not count as given any more. -/
def Arguments.settle (a : Arguments) (s : Setting) (value : Option String) :
    Arguments × Option Stop :=
  match value with
  | .none => (a, some (.error (.valueMissing s)))
  | some text =>
    if a.has s then
      ({ a with given := a.given.filter (· != s.flag) }, some (.error (.repeated s)))
    else
      let a := { a with given := a.given ++ [s.flag] }
      match s with
      | .host => ({ a with host := some text }, .none)
      | .port =>
        match readPort text with
        | .ok n => ({ a with port := some n }, .none)
        | .error why => (a, some (.error (.invalidPort text why)))

/-- A setting that has come without being judged, with its value if that has come too. -/
structure Waiting where
  setting : Setting
  value : Option String
deriving DecidableEq, Repr

/-- Judges the setting that waits. -/
def Arguments.settleWaiting (a : Arguments) : Option Waiting → Arguments × Option Stop
  | .none => (a, .none)
  | some w => a.settle w.setting w.value

/-! ## One argument -/

/-- Where reading stands between two arguments. -/
structure Reading where
  arguments : Arguments
  waiting : Option Waiting
  /-- After two dashes alone nothing is a flag. -/
  positional : Bool
deriving DecidableEq, Repr

/-- Goes on after the setting that waits, if there is nothing wrong with it. -/
def Reading.settled (r : Reading) (next : Arguments → Except Stop Reading) : Except Stop Reading :=
  match r.arguments.settleWaiting r.waiting with
  | (a, .none) => next a
  | (_, some stop) => .error stop

def Arguments.take (s : Setting) (value : String) (a : Arguments) : Except Stop Reading :=
  match a.settle s (some value) with
  | (a, .none) => .ok ⟨a, .none, false⟩
  | (_, some stop) => .error stop

/-- A setting whose value is still to come. -/
def Arguments.await (s : Setting) (a : Arguments) : Except Stop Reading :=
  .ok ⟨a, some ⟨s, .none⟩, false⟩

/-- An argument that nothing takes and that resembles no flag. -/
def unexpected (argument : String) : Except Stop Reading :=
  .error (.error (.unexpected argument .none []))

/-- A setting that is written with two dashes. -/
def Reading.longSetting (r : Reading) (s : Setting) : Option String → Except Stop Reading
  | some value => r.settled (Arguments.take s value)
  | .none => r.settled (Arguments.await s)

/-- A request that is written with two dashes. -/
def Reading.longRequest (r : Reading) (f : Flag) (stop : Stop) : Option String →
    Except Stop Reading
  | some value => .error (.error (.needlessValue value f !r.arguments.given.isEmpty))
  | .none => r.settled fun _ => .error stop

/-- An unknown name with two dashes.  A similar flag counts as given in the usage line. -/
def Reading.unknown (r : Reading) (name : List Char) : Except Stop Reading :=
  let (a, _) := r.arguments.settleWaiting r.waiting
  let similar := Similarity.mostSimilar? (fun f : Flag => f.name.toList) name Flag.all
  let shown := a.given ++ (similar.toList.filter fun f => !a.given.contains f)
  .error (.error (.unexpected ("--" ++ String.ofList name) similar shown))

/-- An argument that starts with two dashes, which are left out here. -/
def Reading.long (r : Reading) (text : List Char) : Except Stop Reading :=
  let name := text.takeWhile (· != '=')
  let value := (text.drop name.length).tail?.map String.ofList
  match Flag.ofName? name with
  | some .host => r.longSetting .host value
  | some .port => r.longSetting .port value
  | some .help => r.longRequest .help (.help true) value
  | some .version => r.longRequest .version .version value
  | .none => r.unknown name

/-- An argument that starts with one dash, which is left out here.  A value may follow its letter
with or without an equals sign. -/
def Reading.short (r : Reading) : List Char → Except Stop Reading
  | ['p'] => r.settled (Arguments.await .port)
  | 'p' :: '=' :: value | 'p' :: value => r.settled (Arguments.take .port (String.ofList value))
  | 'h' :: _ => r.settled fun _ => .error (.help false)
  | 'V' :: _ => r.settled fun _ => .error .version
  | c :: _ => unexpected (String.ofList ['-', c])
  | [] => unexpected "-"

def Reading.plain (r : Reading) (argument : String) : Except Stop Reading :=
  match r.waiting with
  | some ⟨s, .none⟩ => .ok { r with waiting := some ⟨s, some argument⟩ }
  | _ => unexpected argument

def Reading.next (r : Reading) (argument : String) : Except Stop Reading :=
  if r.positional then unexpected argument
  else
    match argument.toList with
    | ['-', '-'] => .ok { r with positional := true }
    | '-' :: '-' :: text => r.long text
    | '-' :: c :: text => r.short (c :: text)
    | _ => r.plain argument

/-- The settings that all arguments together make. -/
def Arguments.read (arguments : List String) : Except Stop Arguments := do
  let r ← arguments.foldlM Reading.next ⟨.none, .none, false⟩
  match r.arguments.settleWaiting r.waiting with
  | (a, .none) => return a
  | (_, some stop) => throw stop

end WebSocketEcho.CommandLine
