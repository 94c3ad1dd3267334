import WebSocketEcho.Proofs.Report.Truncated

/-!
# The first error decides

The reader stops at the first byte that reveals an error, and nothing behind that byte is looked at.
`read_eq_error_cases` says how a text can be rejected: at a byte inside it, or at its end.  A byte
inside puts the error before itself or behind itself, so the place that is reported tells how much of
the text was read: one byte more than its offset is enough for the same error, whatever comes then
(`rejected_alike`).

The offset of a place is found in the text from its line and its column (`Position.offset`), not by
the way the reader keeps its place; `offset_foldl_advance` says that the two agree.
-/

namespace WebSocketEcho.Report

/-! ## Offsets -/

/-- How many bytes the first lines of a text take, their line feeds included. -/
def bytesOfLines : Nat → Bytes → Nat
  | 0, _ => 0
  | _ + 1, [] => 0
  | lines + 1, b :: rest => 1 + bytesOfLines (if b = 0x0A then lines else lines + 1) rest

/-- How many bytes of a text come before a place in it. -/
def Position.offset (text : Bytes) (p : Position) : Nat :=
  bytesOfLines (p.line - 1) text + p.column

theorem line_advance (p : Position) (b : UInt8) :
    (p.advance b).line = if b = 0x0A then p.line + 1 else p.line := by
  unfold Position.advance
  split <;> rfl

theorem line_le_foldl_advance (p : Position) (read : Bytes) :
    p.line ≤ (read.foldl Position.advance p).line := by
  induction read generalizing p with
  | nil => exact Nat.le_refl _
  | cons b read ih =>
    refine Nat.le_trans ?_ (ih (p.advance b))
    rw [line_advance]
    split <;> omega

/-- Counted from a place in a line, the bytes that are read are those of the lines that they end and
of the line where they stop; the column of the first place counts only if they stay in its line. -/
theorem bytesOfLines_foldl_advance (p : Position) (read rest : Bytes) :
    bytesOfLines ((read.foldl Position.advance p).line - p.line) (read ++ rest) +
        (read.foldl Position.advance p).column =
      read.length + if (read.foldl Position.advance p).line = p.line then p.column else 0 := by
  induction read generalizing p with
  | nil => simp [bytesOfLines]
  | cons b read ih =>
    have hih := ih (p.advance b)
    have hle := line_le_foldl_advance (p.advance b) read
    rw [List.foldl_cons, List.cons_append, List.length_cons]
    generalize read.foldl Position.advance (p.advance b) = q at hih hle ⊢
    by_cases hb : b = 0x0A
    · -- The byte ends a line, so the place is in a later one.
      have hlines : q.line - p.line = (q.line - (p.line + 1)) + 1 := by
        rw [line_advance, if_pos hb] at hle
        omega
      rw [Position.advance, if_pos hb] at hih hle
      simp only [ite_self] at hih hle
      rw [hlines, bytesOfLines, if_pos hb, if_neg (by omega)]
      omega
    · rw [Position.advance, if_neg hb] at hih hle
      dsimp only at hih hle
      by_cases hline : q.line = p.line
      · rw [if_pos hline, hline, Nat.sub_self] at hih ⊢
        simp only [bytesOfLines] at hih ⊢
        omega
      · have hlines : q.line - p.line = (q.line - p.line - 1) + 1 := by omega
        rw [if_neg hline] at hih ⊢
        rw [hlines, bytesOfLines, if_neg hb, ← hlines]
        omega

/-- The place behind the first bytes of a text has their number as its offset. -/
theorem offset_foldl_advance (read rest : Bytes) :
    (read.foldl Position.advance .start).offset (read ++ rest) = read.length := by
  have h := bytesOfLines_foldl_advance .start read rest
  rw [show Position.start.column = 0 from rfl, ite_self] at h
  exact h

/-! ## Errors inside a text -/

/-- The place of an error that a byte reveals. -/
def Place.position (p : Position) (b : UInt8) : Place → Position
  | .here => p
  | .past => p.advance b

namespace State

/-- Behind the bytes that were read, the next one reveals an error. -/
def Reveals (s : State) (read : Bytes) (b : UInt8) (cause : Cause) (place : Place) : Prop :=
  ∃ t, s.over? read = some t ∧ t.step b = .fail cause place

variable {s : State} {text read : Bytes} {b : UInt8} {cause : Cause} {place : Place} {e : Error}

/-- An error is the same whatever follows the byte that reveals it. -/
theorem Reveals.read_eq (h : s.Reveals read b cause place) (p : Position) (rest : Bytes) :
    s.read p (read ++ b :: rest) =
      .error ⟨cause, place.position (read.foldl Position.advance p) b⟩ := by
  obtain ⟨t, hover, hstep⟩ := h
  induction read generalizing s p with
  | nil =>
    cases hover
    rw [List.nil_append, State.read, hstep]
    cases place <;> rfl
  | cons a read ih =>
    rw [over?] at hover
    rw [List.cons_append, State.read]
    cases ha : s.step a with
    | goOn u =>
      rw [ha] at hover
      exact ih _ hover
    | fail cause place =>
      rw [ha] at hover
      cases hover

/-- A text is rejected at a byte inside it, or at its end. -/
theorem read_eq_error_cases {p : Position} (h : s.read p text = .error e) :
    (∃ read b rest cause place, text = read ++ b :: rest ∧ s.Reveals read b cause place ∧
      e = ⟨cause, place.position (read.foldl Position.advance p) b⟩) ∨
    e.position = text.foldl Position.advance p := by
  induction text generalizing s p with
  | nil =>
    rw [State.read] at h
    split at h
    · cases h
    · cases h
      exact Or.inr rfl
  | cons b rest ih =>
    rw [State.read] at h
    cases hstep : s.step b with
    | goOn t =>
      rw [hstep] at h
      rcases ih h with ⟨read, c, rest, cause, place, rfl, ⟨u, hover, hc⟩, rfl⟩ | hend
      · refine Or.inl ⟨b :: read, c, rest, cause, place, rfl, ⟨u, ?_, hc⟩, rfl⟩
        rw [over?, hstep]
        exact hover
      · exact Or.inr hend
    | fail cause place =>
      rw [hstep] at h
      refine Or.inl ⟨[], b, rest, cause, place, rfl, ⟨s, rfl, hstep⟩, ?_⟩
      cases place <;> cases h <;> rfl

end State

/-- The byte that reveals an error is right behind the place that is reported for it, or is the last
before that place. -/
theorem exists_offset_position (read : Bytes) (b : UInt8) (place : Place) :
    ∃ n, ∀ rest, (place.position (read.foldl Position.advance .start) b).offset
      (read ++ b :: rest) = read.length + n := by
  cases place with
  | here => exact ⟨0, fun rest => offset_foldl_advance read (b :: rest)⟩
  | past =>
    refine ⟨1, fun rest => ?_⟩
    have h := offset_foldl_advance (read ++ [b]) rest
    rw [List.foldl_append, List.append_assoc, List.length_append] at h
    exact h

/-- A text begins with the same bytes as another if it agrees with it for longer. -/
theorem exists_eq_append_cons {read rest other : Bytes} {b : UInt8} {k : Nat}
    (hle : read.length ≤ k) (hagree : other.take (k + 1) = (read ++ b :: rest).take (k + 1)) :
    ∃ rest', other = read ++ b :: rest' := by
  have hfront : other.take (read.length + 1) = read ++ [b] := by
    calc
      other.take (read.length + 1) = (other.take (k + 1)).take (read.length + 1) := by
        rw [List.take_take, Nat.min_eq_left (by omega)]
      _ = ((read ++ b :: rest).take (k + 1)).take (read.length + 1) := by rw [hagree]
      _ = read ++ [b] := by
        rw [List.take_take, Nat.min_eq_left (by omega), List.take_length_add_append]
        rfl
  refine ⟨other.drop (read.length + 1), ?_⟩
  calc
    other = other.take (read.length + 1) ++ other.drop (read.length + 1) :=
      (List.take_append_drop _ _).symm
    _ = read ++ b :: other.drop (read.length + 1) := by rw [hfront, List.append_assoc]; rfl

/-- When an error is placed inside a text, every text that has the same bytes up to that place, and
the one behind it, is rejected with the same error: with its kind, its wording, its line and its
column, which denote the same place there, whatever else may be wrong later on. -/
theorem rejected_alike {text other : Bytes} {e : Error} (hrejected : parse text = .error e)
    (hinside : e.position.offset text < text.length)
    (hagree : other.take (e.position.offset text + 1) = text.take (e.position.offset text + 1)) :
    parse other = .error e ∧ e.position.offset other = e.position.offset text := by
  rcases State.read_eq_error_cases hrejected with
    ⟨read, b, rest, cause, place, rfl, hreveals, rfl⟩ | hend
  · obtain ⟨n, hoffset⟩ := exists_offset_position read b place
    have hle : read.length ≤
        (place.position (read.foldl Position.advance .start) b).offset (read ++ b :: rest) := by
      rw [hoffset]
      exact Nat.le_add_right _ _
    obtain ⟨rest', rfl⟩ := exists_eq_append_cons hle hagree
    exact ⟨hreveals.read_eq .start rest', (hoffset rest').trans (hoffset rest).symm⟩
  · -- An error at the end has no byte of the text behind its place.
    have hoffset := offset_foldl_advance text []
    rw [List.append_nil, ← hend] at hoffset
    omega

/-- A negative count on the second line, known to be whole from the blank behind it: a text that goes
on with a third item and one that ends the list are rejected alike. -/
theorem negativeCount_rejected_alike :
    parse (Bytes.ofText "[1,\n -25 ,x") = .error ⟨.negative (-25), ⟨2, 4⟩⟩ ∧
      Position.offset (Bytes.ofText "[1,\n -25 ,x") ⟨2, 4⟩ = 8 ∧
      parse (Bytes.ofText "[1,\n -25 ]") = .error ⟨.negative (-25), ⟨2, 4⟩⟩ :=
  have hrejected : parse (Bytes.ofText "[1,\n -25 ,x") = .error ⟨.negative (-25), ⟨2, 4⟩⟩ := rfl
  ⟨hrejected, rfl, (rejected_alike hrejected (by decide) (by decide)).1⟩

end WebSocketEcho.Report
