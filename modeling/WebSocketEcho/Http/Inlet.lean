import WebSocketEcho.Http.Fault
import WebSocketEcho.Http.Room
import WebSocketEcho.Wire

/-!
# The read side of a connection

Bytes come off the wire in reads and wait in a buffer.  Before a read, room is made for the amount
that is expected, and the read then takes as much as fits.  The expected amount doubles when it was
reached, and goes down when two reads in a row brought much less.
-/

namespace WebSocketEcho.Http

/-- How much a read is expected to bring. -/
structure Pace where
  /-- How often the amount has doubled. -/
  doublings : Nat
  /-- The last read brought much less. -/
  lull : Bool
deriving DecidableEq, Repr

namespace Pace

def first : Nat := 8192

/-- The largest amount, which is also the largest head that is waited for. -/
def most : Nat := 417792

/-- The pace of a connection on which nothing has been read. -/
def start : Pace := ⟨0, false⟩

def amount (p : Pace) : Nat := min (first * Nat.pow 2 p.doublings) most

/-- A read has brought `n` bytes.  It brought much less if `n` is below half of the largest power
of two within the amount, and that half is the next amount when it happens again. -/
def note (p : Pace) (n : Nat) : Pace :=
  if p.amount ≤ n then ⟨if most ≤ p.amount then p.doublings else p.doublings + 1, false⟩
  else if n < Nat.pow 2 (Nat.log2 p.amount - 1) then
    if p.lull then ⟨Nat.log2 p.amount - Nat.log2 first - 1, false⟩ else { p with lull := true }
  else { p with lull := false }

theorem amount_pos (p : Pace) : 0 < p.amount := by
  have h : 0 < Nat.pow 2 p.doublings := Nat.two_pow_pos _
  simp only [amount, first, most, Nat.lt_min]
  omega

end Pace

/-- The read side: what was read and not used, what waits on the wire, and what the next read will
take. -/
structure Inlet where
  buffer : Bytes
  wire : Wire
  room : Room
  pace : Pace
deriving DecidableEq, Repr

/-- The result of asking for bytes. -/
inductive Inlet.Read where
  /-- There is something in the buffer. -/
  | filled (i : Inlet)
  /-- Nothing waits, but more may come. -/
  | blocked (i : Inlet)
  | ended
  | failed
deriving DecidableEq, Repr

namespace Inlet

/-- Bytes that are left to read, in the buffer or on the wire. -/
def remaining (i : Inlet) : Nat := i.buffer.length + i.wire.unread.length

/-- The inlet with room for the next read. -/
def prepared (i : Inlet) : Inlet :=
  { i with room := i.room.reserve i.buffer.length i.pace.amount }

/-- How much the next read takes. -/
def capacity (i : Inlet) : Nat := i.prepared.room.free

def read (i : Inlet) : Read :=
  if i.wire.state = .reset then .failed
  else if i.wire.unread.isEmpty then
    if i.wire.state = .present then .blocked i.prepared else .ended
  else
    let taken := i.wire.unread.take i.capacity
    .filled
      { buffer := i.buffer ++ taken
        wire := { i.wire with unread := i.wire.unread.drop i.capacity }
        room := i.prepared.room.fill taken.length
        pace := i.pace.note taken.length }

/-- Makes sure that there is something in the buffer, if need be with a read. -/
def fill (i : Inlet) : Read := if i.buffer.isEmpty then i.read else .filled i

/-- Somebody looks at bytes that were taken. -/
def hold (i : Inlet) : Inlet := { i with room := { i.room with held := true } }

/-- Nobody looks at bytes that were taken any more. -/
def release (i : Inlet) : Inlet := { i with room := { i.room with held := false } }

/-! ## Reads add no bytes -/

theorem capacity_pos (i : Inlet) : 0 < i.capacity :=
  Nat.lt_of_lt_of_le i.pace.amount_pos (Room.le_free_reserve _ _ _)

/-- A read moves bytes from the wire to the buffer, at least one of them. -/
theorem read_filled {i j : Inlet} (h : i.read = .filled j) :
    j.remaining = i.remaining ∧ j.wire.unread.length < i.wire.unread.length := by
  have hl := i.capacity_pos
  unfold read at h
  split at h
  · simp at h
  · split at h
    · split at h <;> simp at h
    · rename_i hu
      simp only [Read.filled.injEq] at h
      subst h
      have hu : 0 < i.wire.unread.length := by
        simp only [List.isEmpty_iff] at hu
        exact List.length_pos_iff.2 hu
      simp only [remaining, List.length_append, List.length_take, List.length_drop]
      omega

theorem read_blocked {i j : Inlet} (h : i.read = .blocked j) : j.remaining = i.remaining := by
  unfold read at h
  split at h
  · simp at h
  · split at h
    · split at h
      · simp only [Read.blocked.injEq] at h
        rw [← h]
        rfl
      · simp at h
    · simp at h

theorem fill_filled {i j : Inlet} (h : i.fill = .filled j) : j.remaining = i.remaining := by
  unfold fill at h
  split at h
  · exact (read_filled h).1
  · simp only [Read.filled.injEq] at h
    rw [h]

theorem fill_blocked {i j : Inlet} (h : i.fill = .blocked j) : j.remaining = i.remaining := by
  unfold fill at h
  split at h
  · exact read_blocked h
  · simp at h

end Inlet

end WebSocketEcho.Http
