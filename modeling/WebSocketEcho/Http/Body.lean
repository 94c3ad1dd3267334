import WebSocketEcho.Http.Head
import WebSocketEcho.Http.Inlet

/-!
# Request bodies

A body is skipped, and only in two attempts: one before the request is answered and one after it.
An attempt reads up to the next piece of content; `Body.Attempt` says whether the body has come to
its end, which alone decides if the connection can be used again.  The end of a chunked body may
carry trailers, which are read like the fields of a head and forgotten.
-/

namespace WebSocketEcho.Http.Body

/-- Where a chunked body stands between two bytes. -/
inductive ChunkState where
  /-- Before the size of a chunk. -/
  | start
  | size
  /-- After blanks that follow a size. -/
  | sizeBlank
  | extension
  | sizeEnd
  /-- Inside a chunk with this much to come. -/
  | content
  | contentReturn
  | contentEnd
  /-- At a line after the last chunk. -/
  | trailerStart
  | trailer
  | trailerEnd
  | lastEnd
deriving DecidableEq, Repr

/-- Everything after the last chunk, without the line that ends the body if there is nothing else. -/
structure Trailer where
  /-- What was read of it, last byte first. -/
  reversed : Bytes
  length : Nat
  /-- How many of its lines have ended. -/
  lines : Nat
deriving DecidableEq, Repr

/-- A chunked body. -/
structure Chunked where
  state : ChunkState
  size : Nat
  /-- How long all extensions are together. -/
  extensions : Nat
  trailer : Trailer
deriving DecidableEq, Repr

/-- What is left of a body. -/
inductive Rest where
  | sized (n : Nat)
  | chunked (c : Chunked)
deriving DecidableEq, Repr

/-- The whole body of a stated length. -/
def Rest.ofLength : Head.BodyLength → Rest
  | .sized n => .sized n
  | .chunked => .chunked ⟨.start, 0, 0, ⟨[], 0, 0⟩⟩

/-- The result of one attempt. -/
inductive Attempt where
  | finished
  /-- Some of the body was read. -/
  | advanced (rest : Rest)
  | blocked (rest : Rest)
  | broken
deriving DecidableEq, Repr

/-! ## Chunks -/

/-- What one byte of a chunked body leads to. -/
inductive ChunkStep where
  | goOn (c : Chunked)
  | finished
  | broken
deriving DecidableEq, Repr

/-- The extensions of a body are shorter than this. -/
def maxExtensions : Nat := 16384

/-- A trailer is shorter than this. -/
def maxTrailer : Nat := 16384

/-- A trailer with one more byte, unless it gets too long. -/
def Trailer.push? (t : Trailer) (b : UInt8) : Option Trailer :=
  if maxTrailer ≤ t.length + 1 then none
  else some { t with reversed := b :: t.reversed, length := t.length + 1 }

/-- Whether a trailer consists of fields, not more than it has lines, and a blank line. -/
def Trailer.isReadable (t : Trailer) : Bool :=
  match Head.readHeaders t.lines [] t.reversed.reverse with
  | .done _ _ => true
  | .incomplete | .fault _ => false

/-- A byte of the trailer, which leads to a state. -/
def Chunked.push (c : Chunked) (b : UInt8) (state : ChunkState) : ChunkStep :=
  match c.trailer.push? b with
  | some trailer => .goOn { c with state, trailer }
  | none => .broken

/-- After the size of a chunk: blanks, an extension, or the end of the line. -/
def afterSize (c : Chunked) (b : UInt8) : ChunkStep :=
  if b == 0x20 || b == 0x09 then .goOn { c with state := .sizeBlank }
  else if b == 0x3B then .goOn { c with state := .extension }
  else if b == 0x0D then .goOn { c with state := .sizeEnd }
  else .broken

/-- One byte of a chunked body outside the content of its chunks. -/
def Chunked.next (c : Chunked) (b : UInt8) : ChunkStep :=
  match c.state with
  | .start =>
    match Ascii.hexValue? b with
    | some d => .goOn { c with state := .size, size := d }
    | none => .broken
  | .size =>
    match Ascii.hexValue? b with
    | some d =>
      if 16 * c.size + d ≤ 0xFFFFFFFFFFFFFFFF then .goOn { c with size := 16 * c.size + d }
      else .broken
    | none => afterSize c b
  | .sizeBlank => afterSize c b
  | .extension =>
    if b == 0x0D then .goOn { c with state := .sizeEnd }
    else if b == 0x0A || maxExtensions ≤ c.extensions + 1 then .broken
    else .goOn { c with extensions := c.extensions + 1 }
  | .sizeEnd =>
    if b != 0x0A then .broken
    else if c.size = 0 then .goOn { c with state := .trailerStart }
    else .goOn { c with state := .content }
  | .content => .broken
  | .contentReturn => if b == 0x0D then .goOn { c with state := .contentEnd } else .broken
  | .contentEnd => if b == 0x0A then .goOn { c with state := .start } else .broken
  | .trailerStart =>
    if b == 0x0D then
      if c.trailer.length = 0 then .goOn { c with state := .lastEnd } else c.push b .lastEnd
    else c.push b .trailer
  | .trailer => c.push b (if b == 0x0D then .trailerEnd else .trailer)
  | .trailerEnd =>
    if b != 0x0A || Head.maxHeaders ≤ c.trailer.lines then .broken
    else
      Chunked.push { c with trailer := { c.trailer with lines := c.trailer.lines + 1 } } b
        .trailerStart
  | .lastEnd =>
    if b != 0x0A then .broken
    else if c.trailer.length = 0 || (c.trailer.push? b).any Trailer.isReadable then .finished
    else .broken

/-! ## Attempts -/

/-- Takes up to `n` bytes of content off a buffer that holds some, and says how much is still to
come.  The content is looked at. -/
def takeContent (n : Nat) (i : Inlet) : Nat × Inlet :=
  (n - (i.buffer.take n).length, { i with buffer := i.buffer.drop n }.hold)

/-- Reads a body of stated length: what the buffer holds of it, or else what one read brings. -/
def attemptSized (n : Nat) (i : Inlet) : Attempt × Inlet :=
  if n = 0 then (.finished, i)
  else
    match i.fill with
    | .filled i =>
      let (n, i) := takeContent n i
      (if n = 0 then .finished else .advanced (.sized n), i)
    | .blocked i => (.blocked (.sized n), i)
    | .ended | .failed => (.broken, i)

/-- Reads a chunked body up to the end of its next piece of content.  A byte that has no place where
it stands is passed too. -/
def attemptChunked (c : Chunked) (i : Inlet) : Attempt × Inlet :=
  match _hb : i.buffer with
  | [] =>
    match hr : i.read with
    | .filled j =>
      have := Inlet.read_filled hr
      attemptChunked c j
    | .blocked i => (.blocked (.chunked c), i)
    | .ended | .failed => (.broken, i)
  | b :: rest =>
    if c.state = .content then
      let (n, i) := takeContent c.size i
      (.advanced (.chunked { c with
        state := if n = 0 then .contentReturn else .content, size := n }), i)
    else
      match c.next b with
      | .goOn c => attemptChunked c { i with buffer := rest }
      | .finished => (.finished, { i with buffer := rest })
      | .broken => (.broken, { i with buffer := rest })
termination_by (i.remaining, i.wire.unread.length)
decreasing_by
  · simp only [Prod.lex_def]
    omega
  · simp only [Prod.lex_def, Inlet.remaining, _hb, List.length_cons]
    omega

def attempt (r : Rest) (i : Inlet) : Attempt × Inlet :=
  match r with
  | .sized n => attemptSized n i
  | .chunked c => attemptChunked c i

/-! ## No attempt adds bytes -/

theorem remaining_takeContent (n : Nat) (i : Inlet) :
    (takeContent n i).2.remaining ≤ i.remaining := by
  simp only [takeContent, Inlet.hold, Inlet.remaining, List.length_drop]
  omega

theorem remaining_attemptSized (n : Nat) (i : Inlet) :
    (attemptSized n i).2.remaining ≤ i.remaining := by
  unfold attemptSized
  split
  · simp
  · split
    · rename_i j hj
      exact Nat.le_trans (remaining_takeContent n j) (Nat.le_of_eq (Inlet.fill_filled hj))
    · rename_i j hj
      exact Nat.le_of_eq (Inlet.fill_blocked hj)
    all_goals simp

theorem remaining_attemptChunked (c : Chunked) (i : Inlet) :
    (attemptChunked c i).2.remaining ≤ i.remaining := by
  fun_induction attemptChunked c i with
  | case1 c i hb j hr _ ih => exact Nat.le_trans ih (Nat.le_of_eq (Inlet.read_filled hr).1)
  | case2 c i hb j hr => exact Nat.le_of_eq (Inlet.read_blocked hr)
  | case3 => simp
  | case4 => simp
  | case5 c i b rest hb hc n j hj =>
    have h := remaining_takeContent c.size i
    rw [hj] at h
    exact h
  | case6 c i b rest hb hc d hd ih =>
    refine Nat.le_trans ih ?_
    simp only [Inlet.remaining, hb, List.length_cons]
    omega
  | case7 c i b rest hb =>
    simp only [Inlet.remaining, hb, List.length_cons]
    omega
  | case8 c i b rest hb =>
    simp only [Inlet.remaining, hb, List.length_cons]
    omega

theorem remaining_attempt (r : Rest) (i : Inlet) : (attempt r i).2.remaining ≤ i.remaining := by
  cases r with
  | sized n => exact remaining_attemptSized n i
  | chunked c => exact remaining_attemptChunked c i

end WebSocketEcho.Http.Body
