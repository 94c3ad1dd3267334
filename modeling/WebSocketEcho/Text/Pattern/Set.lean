import WebSocketEcho.Text.Pattern.Primitive

/-!
# Sets of characters in a pattern

A set stands in square brackets.  Its members are characters, ranges, classes and further sets, and
two ampersands, hyphens or tildes combine what stands on both sides of them.
-/

namespace WebSocketEcho.Text.Pattern

/-- A set that is open. -/
structure OpenSet where
  /-- How deep the members since the last operator nest, last first. -/
  members : List Nat
  /-- How deep that nests which stands before the last operator. -/
  left : Option Nat
deriving DecidableEq, Repr

namespace OpenSet

def add (s : OpenSet) (depth : Nat) : OpenSet := { s with members := depth :: s.members }

def depth (s : OpenSet) : Nat :=
  match s.left with
  | none => nesting s.members
  | some left => max left (nesting s.members) + 1

/-- An operator comes. -/
def operator (s : OpenSet) : OpenSet := ⟨[], some s.depth⟩

end OpenSet

/-- The names of the classes that stand in brackets and colons. -/
def classNames : List String :=
  ["alnum", "alpha", "ascii", "blank", "cntrl", "digit", "graph", "lower", "print", "punct",
    "space", "upper", "word", "xdigit"]

/-- Reads such a class from after its opening bracket on, and whether it is negated. -/
def readNamedClass : List Char → Option (Bool × List Char)
  | ':' :: rest =>
    let negated := rest.head? = some '^'
    let rest := if negated then rest.drop 1 else rest
    let name := rest.takeWhile (· != ':')
    match rest.drop name.length with
    | ':' :: ']' :: rest =>
      if classNames.any fun n => n.toList == name then some (negated, rest) else none
    | _ => none
  | _ => none

/-- A character of a set, as itself or behind a backslash. -/
def readMember (m : Modes) : List Char → Option (Primitive × List Char)
  | [] => none
  | '\\' :: rest => readEscape m rest
  | c :: rest => some (.literal c false, rest)

/-- The next character that is looked at behind a hyphen.  A comment is only recognised by its first
sign here. -/
def peek (m : Modes) (cs : List Char) : Option Char :=
  if m.verbose then
    let rest := cs.dropWhile isBlank
    let rest := if rest.head? = some '#' then (rest.drop 1).dropWhile isBlank else rest
    (rest.head?).or cs.head?
  else cs.head?

/-- Reads a character, a range or a class with a letter. -/
def readMembers (m : Modes) (cs : List Char) : Option (List Char) := do
  let (first, rest) ← readMember m cs
  if !m.understandsMember first then none
  else
    match m.skip rest with
    | '-' :: rest =>
      if peek m rest = some ']' || peek m rest = some '-' then return '-' :: rest
      else
        let (last, rest) ← readMember m (m.skip rest)
        if !m.understandsMember last then none
        else
          match first, last with
          | .literal low _, .literal high _ => if low ≤ high then return rest else none
          | _, _ => none
    | rest => return rest

/-- Hyphens at the front of a set, which are members. -/
def readHyphens (m : Modes) : Nat → OpenSet → List Char → OpenSet × List Char
  | 0, s, cs => (s, cs)
  | fuel + 1, s, cs =>
    match m.skip cs with
    | '-' :: rest => readHyphens m fuel (s.add 0) rest
    | cs => (s, cs)

/-- Opens a set, from after its bracket on.  A bracket that closes it at once is a member. -/
def readOpening (m : Modes) (cs : List Char) : Option (OpenSet × List Char) :=
  let cs := m.skip cs
  let negated := cs.head? = some '^'
  let (s, rest) := readHyphens m cs.length ⟨[], none⟩ (if negated then cs.drop 1 else cs)
  let (s, rest) :=
    match s.members, rest with
    | [], ']' :: rest => (s.add 0, rest)
    | _, _ => (s, rest)
  if negated && !m.unicode || !s.members.isEmpty && !m.understandsMember (.literal '-' false) then
    none
  else some (s, rest)

/-- Reads the rest of a set, and says how deep it nests.  `outer` holds the sets around it. -/
def readSetRest (m : Modes) :
    Nat → OpenSet → List OpenSet → List Char → Option (Nat × List Char)
  | 0, _, _, _ => none
  | fuel + 1, s, outer, cs =>
    match m.skip cs with
    | [] => none
    | '[' :: rest =>
      match readNamedClass rest with
      | some (negated, rest) =>
        if if m.unicode then m.ignoresCase else negated then none
        else readSetRest m fuel (s.add 0) outer rest
      | none =>
        (readOpening m rest).bind fun (inner, rest) => readSetRest m fuel inner (s :: outer) rest
    | ']' :: rest =>
      match outer with
      | [] => some (s.depth + 1, rest)
      | around :: outer => readSetRest m fuel (around.add (s.depth + 1)) outer rest
    | '&' :: '&' :: rest | '-' :: '-' :: rest | '~' :: '~' :: rest =>
      readSetRest m fuel s.operator outer rest
    | cs => (readMembers m cs).bind fun rest => readSetRest m fuel (s.add 0) outer rest

/-- Reads a set from after its opening bracket on, and says how deep it nests. -/
def readSet (m : Modes) (cs : List Char) : Option (Nat × List Char) := do
  let (s, rest) ← readOpening m cs
  readSetRest m (rest.length + 1) s [] rest

end WebSocketEcho.Text.Pattern
