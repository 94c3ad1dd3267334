import WebSocketEcho.Proofs.Report.Rendered

/-!
# Reports that are cut off

A rendered report tells its two counts and no others, and no beginning of it tells any
(`render_faithful`).  A shorter numeral is a numeral too, so a cut inside one cannot be noticed
where it is; it is noticed because the brace is missing that closes the report.

`staysInside` goes over a piece of a text and asks at every byte whether a text that ends before it
would have ended too early.  The pieces are those of `parse_render`.
-/

namespace WebSocketEcho.Report

namespace State

/-- A text that ends in this state has ended too early. -/
def isCutShort (s : State) : Bool :=
  match s.atEnd with
  | .ok _ => false
  | .error cause => cause.category == .ended

/-- The reader goes over these bytes, and wherever they are cut off, the text ends too early. -/
def staysInside (s : State) : Bytes → Bool
  | [] => true
  | b :: rest =>
    s.isCutShort &&
      match s.step b with
      | .goOn t => t.staysInside rest
      | .fail _ _ => false

theorem staysInside_append {s t : State} {a : Bytes} (h : s.over? a = some t) (b : Bytes) :
    s.staysInside (a ++ b) = (s.staysInside a && t.staysInside b) := by
  induction a generalizing s with
  | nil =>
    cases h
    rfl
  | cons d rest ih =>
    rw [over?] at h
    rw [List.cons_append, staysInside, staysInside]
    cases hstep : s.step d with
    | goOn u =>
      rw [hstep] at h
      simp only [ih h, Bool.and_assoc]
    | fail cause place =>
      rw [hstep] at h
      cases h

/-- A cut before the end of such bytes leaves the reader where the text may not end. -/
theorem exists_isCutShort {s : State} {text : Bytes} (h : s.staysInside text = true) {cut : Nat}
    (hcut : cut < text.length) :
    ∃ t, s.over? (text.take cut) = some t ∧ t.isCutShort = true := by
  induction text generalizing s cut with
  | nil => exact absurd hcut (Nat.not_lt_zero cut)
  | cons b rest ih =>
    rw [staysInside, Bool.and_eq_true] at h
    obtain ⟨hshort, hrest⟩ := h
    cases cut with
    | zero => exact ⟨s, rfl, hshort⟩
    | succ cut =>
      rw [List.take_succ_cons, over?]
      cases hstep : s.step b with
      | goOn t =>
        rw [hstep] at hrest
        exact ih hrest (Nat.lt_of_succ_lt_succ hcut)
      | fail cause place =>
        rw [hstep] at hrest
        cases hrest

/-- An error at the end of a text is placed behind its last byte. -/
theorem read_of_over?_error {s t : State} {text : Bytes} {cause : Cause}
    (h : s.over? text = some t) (hend : t.atEnd = .error cause) (p : Position) :
    s.read p text = .error ⟨cause, text.foldl Position.advance p⟩ := by
  induction text generalizing s p with
  | nil =>
    cases h
    rw [read, hend]
    rfl
  | cons b rest ih =>
    rw [over?] at h
    rw [read]
    cases hstep : s.step b with
    | goOn u =>
      rw [hstep] at h
      exact ih h _
    | fail cause place =>
      rw [hstep] at h
      cases h

/-! ## Numerals -/

/-- Behind a numeral the object form is still open. -/
theorem isCutShort_numeral (fs : Fields) (f : Field) (n : Nat) :
    (State.number (.member fs f) (numeral n)).isCutShort = true := by
  by_cases hzero : n = 0
  · rw [hzero]
    rfl
  · rw [numeral_of_pos (Nat.pos_of_ne_zero hzero)]
    rfl

theorem staysInside_numeral (fs : Fields) (f : Field) {n : Nat} (hfits : n ≤ Number.maxUnsigned) :
    (value (.member fs f)).staysInside (Decimal.bytes n) = true := by
  induction n using Nat.strongRecOn with
  | ind n ih =>
    rw [Decimal.bytes, Decimal.digits]
    split
    · rename_i hlt
      have hover := over?_numeral (.member fs f) hfits
      rw [Decimal.bytes, Decimal.digits, if_pos hlt, List.map_singleton, over?] at hover
      rw [List.map_singleton, staysInside]
      cases hstep : (value (.member fs f)).step (UInt8.ofNat (0x30 + n)) with
      | goOn t => rfl
      | fail cause place =>
        rw [hstep] at hover
        cases hover
    · rename_i hge
      have hfront : n / 10 ≤ Number.maxUnsigned := by omega
      rw [List.map_append, List.map_singleton]
      show (value (.member fs f)).staysInside (Decimal.bytes (n / 10) ++ _) = true
      rw [staysInside_append (over?_numeral _ hfront), ih (n / 10) (by omega) hfront, staysInside,
        isCutShort_numeral, step, stepNumber, feed_numeral (by omega) hfits]
      rfl

end State

/-! ## The report -/

theorem ne_lineFeed_of_all {text : Bytes} (h : text.all (· != 0x0A) = true) :
    ∀ c ∈ text, c ≠ 0x0A := by
  simpa using h

/-- A report is rendered on one line. -/
theorem ne_lineFeed_of_mem_render {r : Report} {b : UInt8} (h : b ∈ r.render) : b ≠ 0x0A := by
  have hdigits : ∀ n, ∀ c ∈ Decimal.bytes n, c ≠ 0x0A := by
    intro n c hc
    obtain ⟨d, hd, rfl⟩ := List.mem_map.1 hc
    have hall : ∀ k < 10, UInt8.ofNat (0x30 + k) ≠ 0x0A := by decide
    exact hall d (Decimal.lt_ten_of_mem_digits hd)
  have hopening : ∀ c ∈ Bytes.ofText "\x7b\"max\":", c ≠ 0x0A := ne_lineFeed_of_all (by decide)
  have hbetween : ∀ c ∈ Bytes.ofText ",\"active\":", c ≠ 0x0A := ne_lineFeed_of_all (by decide)
  have hclosing : ∀ c ∈ Bytes.ofText "\x7d", c ≠ 0x0A := ne_lineFeed_of_all (by decide)
  simp only [render, List.mem_append] at h
  rcases h with (h | h) | (h | h) | h
  · exact hopening b h
  · exact hdigits _ b h
  · exact hbetween b h
  · exact hdigits _ b h
  · exact hclosing b h

theorem foldl_advance {text : Bytes} (h : ∀ b ∈ text, b ≠ 0x0A) (line column : Nat) :
    text.foldl Position.advance ⟨line, column⟩ = ⟨line, column + text.length⟩ := by
  induction text generalizing column with
  | nil => rfl
  | cons b rest ih =>
    have hb : b ≠ 0x0A := h b List.mem_cons_self
    rw [List.foldl_cons, Position.advance, if_neg hb,
      ih (fun c hc => h c (List.mem_cons_of_mem b hc)), List.length_cons, Nat.add_assoc,
      Nat.add_comm 1]

theorem staysInside_render (r : Report) : (State.value .whole).staysInside r.render = true := by
  have hopening : (State.value .whole).staysInside (Bytes.ofText "\x7b\"max\":") = true := by
    decide
  have hbetween : (State.number (.member .none .max) (State.numeral r.max.toNat)).staysInside
      (Bytes.ofText ",\"active\":") = true := by
    rw [ofText_between, State.staysInside, State.isCutShort_numeral, step_comma]
    rfl
  have hclosing : (State.number (.member ⟨some r.max, none⟩ .active)
      (State.numeral r.active.toNat)).staysInside (Bytes.ofText "\x7d") = true := by
    rw [ofText_closing, State.staysInside, State.isCutShort_numeral, step_brace]
    rfl
  have hmax := toNat_le_maxUnsigned r.max
  have hactive := toNat_le_maxUnsigned r.active
  rw [render, List.append_assoc, List.append_assoc, State.staysInside_append over?_opening,
    State.staysInside_append (State.over?_numeral _ hmax),
    State.staysInside_append (over?_between r),
    State.staysInside_append (State.over?_numeral _ hactive), hopening, hbetween, hclosing,
    State.staysInside_numeral _ _ hmax, State.staysInside_numeral _ _ hactive]
  rfl

/-- A text that is cut off inside ends too early, at the end of its last line. -/
theorem parse_take_of_staysInside {text : Bytes}
    (hinside : (State.value .whole).staysInside text = true) (hline : ∀ b ∈ text, b ≠ 0x0A)
    {cut : Nat} (hcut : cut < text.length) :
    ∃ cause, parse (text.take cut) = .error ⟨cause, ⟨1, cut⟩⟩ ∧ cause.category = .ended := by
  obtain ⟨t, hover, hshort⟩ := State.exists_isCutShort hinside hcut
  unfold State.isCutShort at hshort
  cases hend : t.atEnd with
  | ok r =>
    rw [hend] at hshort
    cases hshort
  | error cause =>
    rw [hend] at hshort
    refine ⟨cause, ?_, beq_iff_eq.1 hshort⟩
    have hread := State.read_of_over?_error hover hend .start
    rw [Position.start, foldl_advance (fun b hb => hline b (List.mem_of_mem_take hb)),
      List.length_take_of_le (Nat.le_of_lt hcut), Nat.zero_add] at hread
    exact hread

/-- A rendered report is read back as what it is, and rendering that gives the same text; no other
report has this text; and no part that is left of it when it is cut off is a report. -/
theorem render_faithful (r : Report) :
    parse r.render = .ok r ∧ (parse r.render).map render = .ok r.render ∧
      (∀ other : Report, other.render = r.render → other = r) ∧
      ∀ cut < r.render.length, ∃ cause,
        parse (r.render.take cut) = .error ⟨cause, ⟨1, cut⟩⟩ ∧ cause.category = .ended := by
  have hback := parse_render r
  refine ⟨hback, ?_, ?_, ?_⟩
  · rw [hback]
    rfl
  · intro other hsame
    have hother := parse_render other
    rw [hsame, hback] at hother
    exact (Except.ok.inj hother).symm
  · intro cut hcut
    exact parse_take_of_staysInside (staysInside_render r)
      (fun _ hb => ne_lineFeed_of_mem_render hb) hcut

end WebSocketEcho.Report
