import WebSocketEcho.Report.Reader

/-!
# Rendered reports are read back

The reader goes over a text byte by byte, so a text is taken in pieces: `State.over?` is where it
stands behind a piece.  The pieces of a rendered report are the fixed ones, which are evaluated, and
the two numerals (`over?_numeral`).  `parse_render` puts them together.
-/

namespace WebSocketEcho.Report

namespace State

/-- Where the reader stands behind these bytes, unless they reveal an error. -/
def over? (s : State) : Bytes → Option State
  | [] => some s
  | b :: rest =>
    match s.step b with
    | .goOn t => t.over? rest
    | .fail _ _ => none

theorem over?_append {s t : State} {a : Bytes} (h : s.over? a = some t) (b : Bytes) :
    s.over? (a ++ b) = t.over? b := by
  induction a generalizing s with
  | nil =>
    cases h
    rfl
  | cons d rest ih =>
    rw [over?] at h
    rw [List.cons_append, over?]
    cases hstep : s.step d with
    | goOn u =>
      rw [hstep] at h
      exact ih h
    | fail cause place =>
      rw [hstep] at h
      cases h

/-- A text that is whole at its end is a report. -/
theorem read_of_over? {s t : State} {r : Report} {text : Bytes} (h : s.over? text = some t)
    (hend : t.atEnd = .ok r) (p : Position) : s.read p text = .ok r := by
  induction text generalizing s p with
  | nil =>
    cases h
    rw [read, hend]
  | cons b rest ih =>
    rw [over?] at h
    rw [read]
    cases hstep : s.step b with
    | goOn u =>
      rw [hstep] at h
      exact ih h _
    | fail cause place =>
      rw [hstep] at h
      cases h

/-! ## Numerals -/

/-- A number that may still grow. -/
def numeral (n : Nat) : Number.Partial := ⟨false, if n = 0 then .zero else .integer n⟩

theorem numeral_of_pos {n : Nat} (h : 0 < n) : numeral n = ⟨false, .integer n⟩ := by
  rw [numeral, if_neg (Nat.ne_of_gt h)]

theorem begin?_digit {d : Nat} (h : d < 10) :
    Number.begin? (UInt8.ofNat (0x30 + d)) = some (numeral d) := by
  have hall : ∀ k < 10, Number.begin? (UInt8.ofNat (0x30 + k)) = some (numeral k) := by decide
  exact hall d h

theorem digit?_digit {d : Nat} (h : d < 10) : Number.digit? (UInt8.ofNat (0x30 + d)) = some d := by
  have hall : ∀ k < 10, Number.digit? (UInt8.ofNat (0x30 + k)) = some k := by decide
  exact hall d h

/-- One more digit, as long as the number fits. -/
theorem feed_numeral {n : Nat} (hten : 10 ≤ n) (hfits : n ≤ Number.maxUnsigned) :
    (numeral (n / 10)).feed (UInt8.ofNat (0x30 + n % 10)) = .more (numeral n) := by
  have hlast : n % 10 < 10 := Nat.mod_lt n (by decide)
  have hjoined : 10 * (n / 10) + n % 10 = n := Nat.div_add_mod n 10
  rw [numeral_of_pos (by omega : 0 < n / 10), numeral_of_pos (by omega : 0 < n),
    Number.Partial.feed, digit?_digit hlast]
  dsimp only
  rw [Number.Phase.digit, Number.push?, hjoined, if_pos hfits]

/-- The digits of a number are read up to its last. -/
theorem over?_numeral (slot : Slot) {n : Nat} (hfits : n ≤ Number.maxUnsigned) :
    (value slot).over? (Decimal.bytes n) = some (.number slot (numeral n)) := by
  induction n using Nat.strongRecOn with
  | ind n ih =>
    rw [Decimal.bytes, Decimal.digits]
    split
    · rename_i hlt
      -- The first digit is no blank.
      have hblank : isBlank (UInt8.ofNat (0x30 + n)) = false := by
        have hall : ∀ k < 10, isBlank (UInt8.ofNat (0x30 + k)) = false := by decide
        exact hall n hlt
      have hstep : (value slot).step (UInt8.ofNat (0x30 + n)) =
          .goOn (.number slot (numeral n)) := by
        rw [step, hblank, if_neg Bool.false_ne_true, stepValue.eq_def, begin?_digit hlt]
      rw [List.map_singleton, over?, hstep]
      rfl
    · rename_i hge
      have hfront : (value slot).over? ((Decimal.digits (n / 10)).map fun d =>
          UInt8.ofNat (0x30 + d)) = some (.number slot (numeral (n / 10))) :=
        ih (n / 10) (by omega) (by omega)
      rw [List.map_append, over?_append hfront, List.map_singleton, over?, step, stepNumber,
        feed_numeral (by omega) hfits]
      rfl

/-- A byte that ends a numeral is read behind the number. -/
theorem stepNumber_numeral (fs : Fields) (f : Field) (n : Nat) {b : UInt8}
    (hdigit : Number.digit? b = none) (hdot : b ≠ 0x2E) (hmark : Number.isExponentMark b = false) :
    stepNumber (.member fs f) (numeral n) b =
      stepAfter (.afterMember (fs.set f (UInt64.ofNat n))) b := by
  have hfeed : (numeral n).feed b = .before (.unsigned n) := by
    rw [Number.Partial.feed, hdigit]
    dsimp only
    by_cases hzero : n = 0
    · rw [hzero]
      simp [numeral, Number.Phase.mark?, hdot, hmark, Number.Phase.isWhole, Number.Partial.value,
        Number.ofInteger]
    · rw [numeral_of_pos (Nat.pos_of_ne_zero hzero)]
      simp [Number.Phase.mark?, hdot, hmark, Number.Phase.isWhole, Number.Partial.value,
        Number.ofInteger]
  rw [stepNumber, hfeed]
  rfl

end State

/-! ## The report -/

/-- The report as a JSON object, with the numerals of the standard library. -/
def text (r : Report) : String :=
  "\x7b\"max\":" ++ toString r.max.toNat ++ ",\"active\":" ++ toString r.active.toNat ++ "\x7d"

theorem ofText_toString (n : Nat) : Bytes.ofText (toString n) = Decimal.bytes n := by
  rw [← Decimal.text_eq_toString, Decimal.text, Bytes.ofText, String.toList_ofList, Decimal.chars,
    List.map_map]
  refine List.map_congr_left fun d hd => ?_
  have hall : ∀ k < 10, UInt8.ofNat (Char.ofNat (0x30 + k)).toNat = UInt8.ofNat (0x30 + k) := by
    decide
  exact hall d (Decimal.lt_ten_of_mem_digits hd)

theorem render_eq_ofText (r : Report) : r.render = Bytes.ofText r.text := by
  have happend : ∀ a b : String, Bytes.ofText (a ++ b) = Bytes.ofText a ++ Bytes.ofText b := by
    intro a b
    rw [Bytes.ofText, String.toList_append, List.map_append]
    rfl
  simp only [text, happend, ofText_toString, render, List.append_assoc]

/-! ### The pieces of a rendered report -/

section Pieces

variable (r : Report)

theorem over?_opening : (State.value .whole).over? (Bytes.ofText "\x7b\"max\":") =
    some (.value (.member .none .max)) := by
  decide

/-- The comma between the fields. -/
theorem step_comma : (State.number (.member .none .max) (State.numeral r.max.toNat)).step 0x2C =
    .goOn (.beforeKey ⟨some r.max, none⟩) := by
  rw [State.step, State.stepNumber_numeral _ _ _ rfl (by decide) rfl, UInt64.ofNat_toNat]
  rfl

/-- The brace behind the fields. -/
theorem step_brace : (State.number (.member ⟨some r.max, none⟩ .active)
    (State.numeral r.active.toNat)).step 0x7D = .goOn (.done r) := by
  rw [State.step, State.stepNumber_numeral _ _ _ rfl (by decide) rfl, UInt64.ofNat_toNat]
  rfl

theorem ofText_between : Bytes.ofText ",\"active\":" = 0x2C :: Bytes.ofText "\"active\":" := by
  decide

theorem ofText_closing : Bytes.ofText "\x7d" = [0x7D] := by decide

theorem over?_between : (State.number (.member .none .max) (State.numeral r.max.toNat)).over?
    (Bytes.ofText ",\"active\":") = some (.value (.member ⟨some r.max, none⟩ .active)) := by
  rw [ofText_between, State.over?, step_comma]
  rfl

theorem over?_closing : (State.number (.member ⟨some r.max, none⟩ .active)
    (State.numeral r.active.toNat)).over? (Bytes.ofText "\x7d") = some (.done r) := by
  rw [ofText_closing, State.over?, step_brace]
  rfl

theorem toNat_le_maxUnsigned (n : UInt64) : n.toNat ≤ Number.maxUnsigned :=
  Nat.le_of_lt_succ n.toNat_lt

end Pieces

/-- What is rendered is read back. -/
theorem parse_render (r : Report) : parse r.render = .ok r := by
  refine State.read_of_over? (t := .done r) ?_ rfl _
  rw [render, List.append_assoc, List.append_assoc, State.over?_append over?_opening,
    State.over?_append (State.over?_numeral _ (toNat_le_maxUnsigned r.max)),
    State.over?_append (over?_between r),
    State.over?_append (State.over?_numeral _ (toNat_le_maxUnsigned r.active)), over?_closing]

end WebSocketEcho.Report
