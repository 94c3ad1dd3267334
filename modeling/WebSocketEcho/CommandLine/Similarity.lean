/-!
# Similar words

The Jaro similarity of two words: the share of letters that have a partner nearby in the other word,
lowered by partners that stand in another order.  It is a floating-point number, and its rounding
decides where a similarity lies exactly at the threshold.
-/

namespace WebSocketEcho.CommandLine.Similarity

/-- How far partners may be apart. -/
def reach (a b : Nat) : Nat := max a b / 2 - 1

/-- The place of the first letter `c` from place `i` on that is within `[low, high)` and not taken. -/
def findPartner (c : Char) (low high : Nat) (taken : List Nat) : Nat → List Char → Option Nat
  | _, [] => none
  | i, d :: rest =>
    if c = d ∧ low ≤ i ∧ i < high ∧ !taken.contains i then some i
    else findPartner c low high taken (i + 1) rest

/-- The partners of the letters of a word from place `i` on, each with its letter, last first. -/
def partners (b : List Char) (range : Nat) :
    Nat → List Char → List (Char × Nat) → List (Char × Nat)
  | _, [], found => found
  | i, c :: rest, found =>
    match findPartner c (i - range) (i + range + 1) (found.map (·.2)) 0 b with
    | some j => partners b range (i + 1) rest ((c, j) :: found)
    | none => partners b range (i + 1) rest found

def share (n all : Nat) : Float := n.toFloat / all.toFloat

/-- The similarity of two words, from zero to one. -/
def jaro (a b : List Char) : Float :=
  let found := (partners b (reach a.length b.length) 0 a []).reverse
  let m := found.length
  if m = 0 then if a.isEmpty && b.isEmpty then 1 else 0
  else
    let inA := found.map (·.1)
    let inB := (found.map (·.2)).mergeSort.map fun j => b.getD j ' '
    let crossed := ((inA.zip inB).filter fun p => p.1 != p.2).length / 2
    (share m a.length + share m b.length + share (m - crossed) m) / 3

/-- The similarity above which a word is suggested for another. -/
def threshold : Float := 0.7

/-- The most similar of several words, the last of equals, if one is similar enough. -/
def mostSimilar? {α : Type} (name : α → List Char) (word : List Char) (candidates : List α) :
    Option α :=
  (candidates.foldl
    (fun (best : Option (α × Float)) c =>
      let score := jaro word (name c)
      if score ≤ threshold then best
      else
        match best with
        | some (_, top) => if score < top then best else some (c, score)
        | none => some (c, score))
    none).map (·.1)

end WebSocketEcho.CommandLine.Similarity
