import WebSocketEcho.Text.Alphanumeric
import WebSocketEcho.Text.Pattern.Set

/-!
# Patterns

Whether a text is a pattern that is understood, `Pattern.isUnderstood`.  The pieces of a pattern are
read from left to right; groups that are open are kept on a stack.  Counted repetitions are left
out: the texts that are asked about hold no closing brace, which those cannot do without.
-/

namespace WebSocketEcho.Text.Pattern

/-! ## Flags -/

def flagLetters : List Char := ['i', 'm', 's', 'U', 'u', 'R', 'x']

/-- Whether a text is a list of flags: letters, each at most once, with at most one hyphen, which is
not the last. -/
def isFlags (cs : List Char) : Bool :=
  cs.all (fun c => c == '-' || flagLetters.contains c) && cs.eraseDups.length == cs.length &&
    cs.getLast? != some '-'

/-- What a list of flags sets a flag to: those before the hyphen are set, those after it unset. -/
def flagState (cs : List Char) (flag : Char) (before : Bool) : Bool :=
  if (cs.takeWhile (· != '-')).contains flag then true
  else if cs.contains flag then false
  else before

/-- The modes after a list of flags. -/
def Modes.set (m : Modes) (flags : List Char) : Modes :=
  { ignoresCase := flagState flags 'i' m.ignoresCase
    unicode := flagState flags 'u' m.unicode
    verbose := flagState flags 'x' m.verbose }

/-! ## Groups -/

/-- A group that is open, or the whole pattern. -/
structure OpenGroup where
  /-- How deep the pieces of the current alternative nest, last first. -/
  pieces : List Nat
  /-- Whether the last piece can be repeated. -/
  repeatable : Bool
  /-- How deep the alternatives before it nest, last first. -/
  alternatives : List Nat
  /-- The modes that hold again behind the group. -/
  around : Modes
deriving DecidableEq, Repr

namespace OpenGroup

def empty (around : Modes) : OpenGroup := ⟨[], false, [], around⟩

def add (g : OpenGroup) (depth : Nat) : OpenGroup :=
  { g with pieces := depth :: g.pieces, repeatable := true }

/-- The last piece is repeated. -/
def repeatLast? (g : OpenGroup) : Option OpenGroup :=
  match g.pieces with
  | depth :: pieces =>
    if g.repeatable then some { g with pieces := (depth + 1) :: pieces } else none
  | [] => none

/-- The next alternative begins. -/
def alternative (g : OpenGroup) : OpenGroup :=
  { g with pieces := [], repeatable := false, alternatives := nesting g.pieces :: g.alternatives }

/-- How deep the content of a group nests. -/
def depth (g : OpenGroup) : Nat := nesting (nesting g.pieces :: g.alternatives)

end OpenGroup

def isGroupName : List Char → Bool
  | [] => false
  | c :: rest =>
    (c == '_' || isAlphabetic c) &&
      rest.all fun c => ['_', '.', '[', ']'].contains c || isAlphanumeric c

/-! ## Reading -/

/-- What has been read of a pattern. -/
structure Progress where
  modes : Modes
  names : List (List Char)
  group : OpenGroup
  /-- The groups around it. -/
  outer : List OpenGroup
deriving DecidableEq, Repr

namespace Progress

def start : Progress := ⟨.standard, [], .empty .standard, []⟩

/-- A piece that nests to a depth. -/
def add (p : Progress) (depth : Nat) : Progress := { p with group := p.group.add depth }

def openGroup (p : Progress) (modes : Modes) : Progress :=
  { p with modes, group := .empty p.modes, outer := p.group :: p.outer }

def closeGroup? (p : Progress) : Option Progress :=
  match p.outer with
  | [] => none
  | g :: outer =>
    some { p with modes := p.group.around, group := g.add (p.group.depth + 1), outer }

/-- A group with a name, from after the bracket before the name on. -/
def readNamed (p : Progress) (cs : List Char) : Option (Progress × List Char) :=
  let name := cs.takeWhile (· != '>')
  match cs.drop name.length with
  | _ :: rest =>
    if isGroupName name && !p.names.contains name then
      some ({ p with names := name :: p.names }.openGroup p.modes, rest)
    else none
  | [] => none

/-- Flags, for the rest of the group or for a group of their own. -/
def readFlags (p : Progress) (cs : List Char) : Option (Progress × List Char) :=
  let flags := cs.takeWhile fun c => c != ':' && c != ')'
  if !isFlags flags then none
  else
    match cs.drop flags.length with
    | ':' :: rest => some (p.openGroup (p.modes.set flags), rest)
    | _ :: rest =>
      if flags.isEmpty then none
      else
        some ({ p with
          modes := p.modes.set flags
          group := { p.group.add 0 with repeatable := false } }, rest)
    | [] => none

/-- What follows an opening parenthesis.  No group looks ahead or behind. -/
def readOpen (p : Progress) (cs : List Char) : Option (Progress × List Char) :=
  match p.modes.skip cs with
  | '?' :: '=' :: _ | '?' :: '!' :: _ | '?' :: '<' :: '=' :: _ | '?' :: '<' :: '!' :: _ => none
  | '?' :: 'P' :: '<' :: rest | '?' :: '<' :: rest => p.readNamed rest
  | '?' :: rest => p.readFlags rest
  | rest => some (p.openGroup p.modes, rest)

def primitive (p : Progress) (piece : Primitive) : Option Progress :=
  if p.modes.understands piece then some (p.add 0) else none

/-- One piece or sign, from a text that is not empty. -/
def next (p : Progress) : List Char → Option (Progress × List Char)
  | [] => none
  | '(' :: rest => p.readOpen rest
  | ')' :: rest => p.closeGroup?.map fun p => (p, rest)
  | '|' :: rest => some ({ p with group := p.group.alternative }, rest)
  | '[' :: rest => (readSet p.modes rest).map fun (depth, rest) => (p.add depth, rest)
  | '?' :: rest | '*' :: rest | '+' :: rest =>
    p.group.repeatLast?.map fun group =>
      ({ p with group }, if rest.head? = some '?' then rest.drop 1 else rest)
  | '\x7b' :: _ => none
  | '.' :: rest => if p.modes.unicode then some (p.add 0, rest) else none
  | '^' :: rest | '$' :: rest => some (p.add 0, rest)
  | '\\' :: rest => do
    let (piece, rest) ← readEscape p.modes rest
    return (← p.primitive piece, rest)
  | c :: rest => (p.primitive (.literal c false)).map fun p => (p, rest)

/-- Reads to the end.  `fuel` is more than there are characters. -/
def finish? : Nat → Progress → List Char → Option Progress
  | 0, _, _ => none
  | fuel + 1, p, cs =>
    match p.modes.skip cs with
    | [] => some p
    | cs => (p.next cs).bind fun (p, rest) => finish? fuel p rest

end Progress

/-- How deep a pattern may nest. -/
def maxDepth : Nat := 250

/-- Whether a text is a pattern that is understood: every group is closed, and none nests too
deep. -/
def isUnderstood (cs : List Char) : Bool :=
  (Progress.finish? (cs.length + 1) .start cs).any fun p =>
    p.outer.isEmpty && p.group.depth ≤ maxDepth

end WebSocketEcho.Text.Pattern
