/-!
# Room for reading

The space that a read buffer lies in.  Bytes come in at its end, and those that are taken off the
front leave their place used up.  That place is won back when more room is asked for, as long as
nobody looks at the bytes that were taken and moving what is left costs no more than it wins;
otherwise the space grows.  A read takes whatever fits, so this decides how the client's bytes are
cut into reads.

The main statement is `Room.le_free_reserve`: what was asked for is there.
-/

namespace WebSocketEcho.Http

/-- The space of a read buffer. -/
structure Room where
  capacity : Nat
  /-- How far it is filled, counted from its front. -/
  filled : Nat
  /-- Whether somebody looks at bytes that were taken off the front. -/
  held : Bool
deriving DecidableEq, Repr

namespace Room

def empty : Room := ⟨0, 0, false⟩

def free (r : Room) : Nat := r.capacity - r.filled

/-- Makes room for `n` bytes behind a buffer of the given length.  While somebody looks at what was
taken the buffer moves to a space of its own; otherwise it moves to the front if that is enough and
at least as much was taken as there is to move; otherwise the space at least doubles. -/
def reserve (r : Room) (length n : Nat) : Room :=
  if n ≤ r.free then r
  else if r.held then ⟨length + n, length, false⟩
  else if length + n ≤ r.capacity && 2 * length ≤ r.filled then { r with filled := length }
  else { r with capacity := max (2 * r.capacity) (r.filled + n) }

def fill (r : Room) (n : Nat) : Room := { r with filled := r.filled + n }

/-- What was asked for is there. -/
theorem le_free_reserve (r : Room) (length n : Nat) : n ≤ (r.reserve length n).free := by
  unfold reserve
  split
  · assumption
  · split
    · simp only [free]
      omega
    · split
      · rename_i h
        simp only [Bool.and_eq_true, decide_eq_true_eq] at h
        simp only [free]
        omega
      · simp only [free]
        omega

end Room

end WebSocketEcho.Http
