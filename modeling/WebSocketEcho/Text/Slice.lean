/-!
# Slices of a text

Parts of a text between two positions.  A position counts the bytes of the text in UTF-8, so not
every number is one: it may fall inside a character.
-/

namespace WebSocketEcho.Text

/-- How many bytes a text takes. -/
def byteSize : List Char → Nat
  | [] => 0
  | c :: rest => c.utf8Size + byteSize rest

/-- What comes before a position and what follows it, unless the position falls inside a character
or beyond the end. -/
def splitAt? : Nat → List Char → Option (List Char × List Char)
  | 0, cs => some ([], cs)
  | _ + 1, [] => none
  | n + 1, c :: rest =>
    if n + 1 < c.utf8Size then none
    else (splitAt? (n + 1 - c.utf8Size) rest).map fun (left, right) => (c :: left, right)

def sliceFrom? (cs : List Char) (start : Nat) : Option (List Char) :=
  (splitAt? start cs).map (·.2)

def slice? (cs : List Char) (start stop : Nat) : Option (List Char) := do
  let rest ← sliceFrom? cs start
  (splitAt? (stop - start) rest).map (·.1)

end WebSocketEcho.Text
