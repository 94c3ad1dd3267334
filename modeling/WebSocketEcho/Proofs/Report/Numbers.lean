import WebSocketEcho.Proofs.Report.Tokens

/-!
# The numbers of a report

A number that is skipped is read for its syntax only.  The part that is still to come is a part of
speech for each phase (`Skip.Finishes`), and a number is read as far as it goes: what follows it
must be a delimiter.

A count is a number that never leaves the integers below 2^64.  A machine that has left them, or has
read a sign, finds no count any more (`Number.CannotCount`).
-/

namespace WebSocketEcho.Report

open Grammar

theorem isDigit_of_delimiter {b : UInt8} (h : IsDelimiter b) : Ascii.isDigit b = false := by
  rcases h.cases with rfl | rfl | rfl | rfl | rfl | rfl | rfl <;> rfl

theorem Grammar.Digits.nil : Digits [] := fun _ h => nomatch h

theorem Grammar.Digits.cons {d : UInt8} {ds : Bytes} (hd : Ascii.isDigit d = true)
    (hds : Digits ds) : Digits (d :: ds) :=
  List.forall_mem_cons.2 ⟨hd, hds⟩

/-- A digit is none of the other bytes that can start a value or stand in a number. -/
theorem ne_of_isDigit {d b : UInt8} (hd : Ascii.isDigit d = true) (hb : Ascii.isDigit b = false) :
    d ≠ b := by
  rintro rfl
  rw [hd] at hb
  cases hb

theorem Grammar.IsWhole.exists_cons {text : Bytes} (h : IsWhole text) :
    ∃ d ds, Ascii.isDigit d = true ∧ text = d :: ds := by
  cases h with
  | zero => exact ⟨0x30, [], rfl, rfl⟩
  | @digits d ds hd _ _ => exact ⟨d, ds, hd, rfl⟩

namespace Skip

/-! ## Numbers that are skipped -/

theorem NumberPhase.feed_of_next? {p q : NumberPhase} {b : UInt8} (h : p.next? b = some q) :
    p.feed b = .more q := by
  rw [NumberPhase.feed, h]

/-- A byte that does not belong to a number stands behind it or is wrong there. -/
theorem NumberPhase.feed_cases {p : NumberPhase} {b : UInt8} (h : p.next? b = none) :
    p.isWhole = true ∧ p.feed b = .before () ∨ p.feed b = .fail .invalidNumber .past := by
  rw [NumberPhase.feed, h]
  cases p.isWhole with
  | false => exact Or.inr rfl
  | true =>
    cases p == .zero && Ascii.isDigit b with
    | false => exact Or.inl ⟨rfl, rfl⟩
    | true => exact Or.inr rfl

theorem NumberPhase.next?_of_delimiter {b : UInt8} (h : IsDelimiter b) (p : NumberPhase) :
    p.next? b = none := by
  rcases h.cases with rfl | rfl | rfl | rfl | rfl | rfl | rfl <;> cases p <;> rfl

section Scan

variable {p q : NumberPhase} {b : UInt8} {text rest tail : Bytes}

theorem scan?_of_next? (h : p.next? b = some q) :
    scan? NumberPhase.feed p (b :: rest) = scan? NumberPhase.feed q rest :=
  scan?_of_more (NumberPhase.feed_of_next? h) rest

/-- A number that may end ends before a delimiter. -/
theorem scan?_of_delimited (hwhole : p.isWhole = true) (htail : Delimited tail) :
    scan? NumberPhase.feed p tail = some ((), tail) := by
  obtain ⟨b, rest, hb, rfl⟩ := htail
  refine scan?_of_before ?_ rest
  rw [NumberPhase.feed, NumberPhase.next?_of_delimiter hb, isDigit_of_delimiter hb, hwhole]
  simp

theorem scan?_of_digits {ds : Bytes} (hds : Digits ds)
    (hp : ∀ d, Ascii.isDigit d = true → p.next? d = some p) (rest : Bytes) :
    scan? NumberPhase.feed p (ds ++ rest) = scan? NumberPhase.feed p rest := by
  induction ds with
  | nil => rfl
  | cons d ds ih =>
    obtain ⟨hd, hds⟩ := List.forall_mem_cons.1 hds
    rw [List.cons_append, scan?_of_next? (hp d hd), ih hds]

theorem next?_exponent {d : UInt8} (hd : Ascii.isDigit d = true) :
    NumberPhase.next? d .exponent = some .exponent := if_pos hd

theorem next?_fraction {d : UInt8} (hd : Ascii.isDigit d = true) :
    NumberPhase.next? d .fraction = some .fraction := if_pos hd

theorem next?_integer {d : UInt8} (hd : Ascii.isDigit d = true) :
    NumberPhase.next? d .integer = some .integer := if_pos hd

/-- An exponent is skipped, if there is one. -/
theorem scan?_of_isExponent {text : Bytes} (h : IsExponent text) (htail : Delimited tail)
    (hp : p = .zero ∨ p = .integer ∨ p = .fraction) :
    scan? NumberPhase.feed p (text ++ tail) = some ((), tail) := by
  have hdigits : ∀ {q d ds}, q.next? d = some .exponent → Digits ds →
      scan? NumberPhase.feed q (d :: ds ++ tail) = some ((), tail) := by
    intro q d ds hnext hds
    rw [List.cons_append, scan?_of_next? hnext, scan?_of_digits hds fun d => next?_exponent,
      scan?_of_delimited rfl htail]
  cases h with
  | none =>
    refine scan?_of_delimited ?_ htail
    rcases hp with rfl | rfl | rfl <;> rfl
  | @some mark sign ds hmark hsign hne hds =>
    obtain ⟨d, ds, rfl⟩ := List.exists_cons_of_ne_nil hne
    obtain ⟨hd, hds⟩ := List.forall_mem_cons.1 hds
    have hstart : p.next? mark = some .exponentStart := by
      rcases hmark with rfl | rfl <;> rcases hp with rfl | rfl | rfl <;> rfl
    have hafterSign : NumberPhase.next? d .exponentSign = some .exponent := if_pos hd
    rw [List.cons_append, scan?_of_next? hstart, List.append_assoc]
    rcases hsign with rfl | rfl | rfl
    · have hplus : d ≠ 0x2B := ne_of_isDigit hd rfl
      have hminus : d ≠ 0x2D := ne_of_isDigit hd rfl
      exact hdigits (by simp [NumberPhase.next?, hplus, hminus, hd]) hds
    · exact (scan?_of_next? rfl).trans (hdigits hafterSign hds)
    · exact (scan?_of_next? rfl).trans (hdigits hafterSign hds)

/-- So is a fraction. -/
theorem scan?_of_isFraction {fraction exponent : Bytes} (hf : IsFraction fraction)
    (he : IsExponent exponent) (htail : Delimited tail) (hp : p = .zero ∨ p = .integer) :
    scan? NumberPhase.feed p (fraction ++ (exponent ++ tail)) = some ((), tail) := by
  cases hf with
  | none =>
    refine scan?_of_isExponent he htail ?_
    rcases hp with hp | hp
    · exact Or.inl hp
    · exact Or.inr (Or.inl hp)
  | @some ds hne hds =>
    obtain ⟨d, ds, rfl⟩ := List.exists_cons_of_ne_nil hne
    obtain ⟨hd, hds⟩ := List.forall_mem_cons.1 hds
    have hpoint : p.next? 0x2E = some .point := by
      rcases hp with rfl | rfl <;> rfl
    have hfirst : NumberPhase.next? d .point = some .fraction := if_pos hd
    rw [List.cons_append, scan?_of_next? hpoint, List.cons_append, scan?_of_next? hfirst,
      scan?_of_digits hds fun d => next?_fraction,
      scan?_of_isExponent he htail (Or.inr (Or.inr rfl))]

/-- A number is skipped from behind its sign. -/
theorem scan?_of_isWhole {whole fraction exponent : Bytes} (hw : IsWhole whole)
    (hf : IsFraction fraction) (he : IsExponent exponent) (htail : Delimited tail) :
    scan? NumberPhase.feed .minus (whole ++ (fraction ++ (exponent ++ tail))) =
      some ((), tail) := by
  cases hw with
  | zero => exact (scan?_of_next? rfl).trans (scan?_of_isFraction hf he htail (Or.inl rfl))
  | @digits d ds hd hne hds =>
    have hfirst : NumberPhase.next? d .minus = some .integer := by
      simp [NumberPhase.next?, hne, hd]
    rw [List.cons_append, scan?_of_next? hfirst, scan?_of_digits hds fun d => next?_integer,
      scan?_of_isFraction hf he htail (Or.inr rfl)]

end Scan

/-! ### What is still to come of a number -/

/-- The ends of numbers that a phase waits for. -/
def Finishes : NumberPhase → Bytes → Prop
  | .exponent, text => Digits text
  | .exponentSign, text => text ≠ [] ∧ Digits text
  | .exponentStart, text =>
    ∃ sign ds, (sign = [] ∨ sign = [0x2B] ∨ sign = [0x2D]) ∧ ds ≠ [] ∧ Digits ds ∧
      text = sign ++ ds
  | .fraction, text => ∃ ds exponent, Digits ds ∧ IsExponent exponent ∧ text = ds ++ exponent
  | .point, text =>
    ∃ ds exponent, ds ≠ [] ∧ Digits ds ∧ IsExponent exponent ∧ text = ds ++ exponent
  | .zero, text =>
    ∃ fraction exponent, IsFraction fraction ∧ IsExponent exponent ∧ text = fraction ++ exponent
  | .integer, text =>
    ∃ ds fraction exponent, Digits ds ∧ IsFraction fraction ∧ IsExponent exponent ∧
      text = ds ++ (fraction ++ exponent)
  | .minus, text =>
    ∃ whole fraction exponent, IsWhole whole ∧ IsFraction fraction ∧ IsExponent exponent ∧
      text = whole ++ (fraction ++ exponent)

theorem finishes_nil {p : NumberPhase} (h : p.isWhole = true) : Finishes p [] := by
  cases p with
  | exponent => exact .nil
  | fraction => exact ⟨[], [], .nil, .none, rfl⟩
  | zero => exact ⟨[], [], .none, .none, rfl⟩
  | integer => exact ⟨[], [], [], .nil, .none, .none, rfl⟩
  | minus | point | exponentStart | exponentSign => cases h

/-- A mark starts an exponent. -/
theorem isExponent_cons {b : UInt8} {text : Bytes} (hb : b = 0x65 ∨ b = 0x45)
    (h : Finishes .exponentStart text) : IsExponent (b :: text) := by
  obtain ⟨sign, ds, hsign, hne, hds, rfl⟩ := h
  exact .some hb hsign hne hds

/-- A point starts a fraction, and an exponent may follow. -/
theorem exists_isFraction_cons {text : Bytes} (h : Finishes .point text) :
    ∃ fraction exponent, IsFraction fraction ∧ IsExponent exponent ∧
      0x2E :: text = fraction ++ exponent := by
  obtain ⟨ds, exponent, hne, hds, he, rfl⟩ := h
  exact ⟨0x2E :: ds, exponent, .some hne hds, he, rfl⟩

/-- A byte that belongs to a number in a phase, and what is to come behind it. -/
theorem finishes_cons {p q : NumberPhase} {b : UInt8} {text : Bytes} (hnext : p.next? b = some q)
    (h : Finishes q text) : Finishes p (b :: text) := by
  cases p with
  | exponent =>
    simp only [NumberPhase.next?, Option.ite_none_right_eq_some, Option.some.injEq] at hnext
    obtain ⟨hb, rfl⟩ := hnext
    exact .cons hb h
  | exponentSign =>
    simp only [NumberPhase.next?, Option.ite_none_right_eq_some, Option.some.injEq] at hnext
    obtain ⟨hb, rfl⟩ := hnext
    exact ⟨List.cons_ne_nil _ _, .cons hb h⟩
  | exponentStart =>
    simp only [NumberPhase.next?] at hnext
    split at hnext
    · rename_i hb
      cases hnext
      obtain ⟨hne, hds⟩ := h
      rcases hb with rfl | rfl
      · exact ⟨[0x2B], text, Or.inr (Or.inl rfl), hne, hds, rfl⟩
      · exact ⟨[0x2D], text, Or.inr (Or.inr rfl), hne, hds, rfl⟩
    · simp only [Option.ite_none_right_eq_some, Option.some.injEq] at hnext
      obtain ⟨hb, rfl⟩ := hnext
      exact ⟨[], b :: text, Or.inl rfl, List.cons_ne_nil _ _, .cons hb h, rfl⟩
  | fraction =>
    simp only [NumberPhase.next?] at hnext
    split at hnext
    · rename_i hb
      cases hnext
      obtain ⟨ds, exponent, hds, he, rfl⟩ := h
      exact ⟨b :: ds, exponent, .cons hb hds, he, rfl⟩
    · simp only [Option.ite_none_right_eq_some, Option.some.injEq] at hnext
      obtain ⟨hb, rfl⟩ := hnext
      exact ⟨[], b :: text, .nil, isExponent_cons hb h, rfl⟩
  | point =>
    simp only [NumberPhase.next?, Option.ite_none_right_eq_some, Option.some.injEq] at hnext
    obtain ⟨hb, rfl⟩ := hnext
    obtain ⟨ds, exponent, hds, he, rfl⟩ := h
    exact ⟨b :: ds, exponent, List.cons_ne_nil _ _, .cons hb hds, he, rfl⟩
  | zero =>
    simp only [NumberPhase.next?] at hnext
    split at hnext
    · rename_i hb
      cases hnext
      subst hb
      exact exists_isFraction_cons h
    · simp only [Option.ite_none_right_eq_some, Option.some.injEq] at hnext
      obtain ⟨hb, rfl⟩ := hnext
      exact ⟨[], b :: text, .none, isExponent_cons hb h, rfl⟩
  | integer =>
    simp only [NumberPhase.next?] at hnext
    split at hnext
    · rename_i hb
      cases hnext
      obtain ⟨ds, fraction, exponent, hds, hf, he, rfl⟩ := h
      exact ⟨b :: ds, fraction, exponent, .cons hb hds, hf, he, rfl⟩
    · split at hnext
      · rename_i hb
        cases hnext
        subst hb
        obtain ⟨fraction, exponent, hf, he, heq⟩ := exists_isFraction_cons h
        exact ⟨[], fraction, exponent, .nil, hf, he, heq⟩
      · simp only [Option.ite_none_right_eq_some, Option.some.injEq] at hnext
        obtain ⟨hb, rfl⟩ := hnext
        exact ⟨[], [], b :: text, .nil, .none, isExponent_cons hb h, rfl⟩
  | minus =>
    simp only [NumberPhase.next?] at hnext
    split at hnext
    · rename_i hb
      cases hnext
      subst hb
      obtain ⟨fraction, exponent, hf, he, rfl⟩ := h
      exact ⟨[0x30], fraction, exponent, .zero, hf, he, rfl⟩
    · rename_i hne
      simp only [Option.ite_none_right_eq_some, Option.some.injEq] at hnext
      obtain ⟨hb, rfl⟩ := hnext
      obtain ⟨ds, fraction, exponent, hds, hf, he, rfl⟩ := h
      exact ⟨b :: ds, fraction, exponent, .digits hb hne hds, hf, he, rfl⟩

/-- What has been skipped as the end of a number is one. -/
theorem exists_finishes {p : NumberPhase} {text rest : Bytes}
    (h : scan? NumberPhase.feed p text = some ((), rest)) :
    ∃ token, Finishes p token ∧ text = token ++ rest := by
  induction text generalizing p with
  | nil => cases h
  | cons b text ih =>
    cases hnext : p.next? b with
    | some q =>
      rw [scan?_of_next? hnext] at h
      obtain ⟨token, htoken, rfl⟩ := ih h
      exact ⟨b :: token, finishes_cons hnext htoken, rfl⟩
    | none =>
      rcases NumberPhase.feed_cases hnext with ⟨hwhole, hfeed⟩ | hfeed
      · rw [scan?_of_before hfeed, Option.some.injEq, Prod.mk.injEq] at h
        exact ⟨[], finishes_nil hwhole, h.2⟩
      · rw [scan?_of_fail hfeed] at h
        cases h

end Skip

namespace Number

/-! ## Counts -/

/-- The number that digits add to. -/
def grown (m : Nat) (ds : Bytes) : Nat :=
  (ds.map fun b => b.toNat - 0x30).foldl (fun value d => 10 * value + d) m

theorem le_grown (m : Nat) (ds : Bytes) : m ≤ grown m ds := by
  induction ds generalizing m with
  | nil => exact Nat.le_refl m
  | cons d ds ih =>
    have hmore : 10 * m + (d.toNat - 0x30) ≤ grown m (d :: ds) := ih _
    omega

/-- Phases behind which no integer below 2^64 can come any more. -/
def Phase.isLate : Phase → Bool
  | .minus | .zero | .integer _ => false
  | .long _ _ | .point _ _ | .fraction _ _ | .longFraction _ _ | .exponentStart _ _
  | .exponentSign _ _ _ | .exponent _ _ _ _ | .vanished => true

/-- The number will not be a count. -/
def CannotCount (p : Partial) : Prop := p.isNegative = true ∨ p.phase.isLate = true

theorem isLate_digit {phase next : Phase} {d : Nat} (h : phase.isLate = true)
    (hnext : phase.digit d = .ok next) : next.isLate = true := by
  cases phase with
  | minus | zero | integer => cases h
  | long | longFraction | exponentStart | exponentSign | vanished =>
    cases hnext
    rfl
  | point m e | fraction m e =>
    simp only [Phase.digit] at hnext
    split at hnext <;> cases hnext <;> rfl
  | exponent m e down stated =>
    simp only [Phase.digit] at hnext
    split at hnext
    · cases hnext
      rfl
    · split at hnext
      · cases hnext
      · cases hnext
        rfl

theorem isLate_mark {phase next : Phase} {b : UInt8} (hnext : phase.mark? b = some next) :
    next.isLate = true := by
  cases phase with
  | minus | point | exponentSign | exponent | vanished => cases hnext
  | zero | integer | long | exponentStart =>
    simp only [Phase.mark?] at hnext
    split at hnext
    · cases hnext
      rfl
    · simp only [Option.ite_none_right_eq_some, Option.some.injEq] at hnext
      rw [← hnext.2]
      rfl
  | fraction | longFraction =>
    simp only [Phase.mark?, Option.ite_none_right_eq_some, Option.some.injEq] at hnext
    rw [← hnext.2]
    rfl

theorem ofParts_ne_unsigned (isNegative : Bool) (significand : Nat) (exponent : Int) (n : Nat) :
    ofParts isNegative significand exponent ≠ .ok (.unsigned n) := by
  rw [ofParts]
  cases toFloat? significand exponent <;> simp [ofFloat]

theorem ofInteger_true_ne_unsigned (m n : Nat) : ofInteger true m ≠ .unsigned n := by
  rw [ofInteger]
  split
  · contradiction
  · split <;> simp [ofFloat]

theorem value_ne_unsigned {p : Partial} (h : CannotCount p) (n : Nat) :
    p.value ≠ .ok (.unsigned n) := by
  obtain ⟨isNegative, phase⟩ := p
  cases phase with
  | minus | point | exponentStart | exponentSign => simp [Partial.value]
  | zero | integer =>
    obtain rfl : isNegative = true := h.resolve_right (by simp [Phase.isLate])
    simp [Partial.value, ofInteger_true_ne_unsigned]
  | long | fraction | longFraction | exponent => exact ofParts_ne_unsigned _ _ _ _
  | vanished => simp [Partial.value, ofFloat]

theorem digit?_eq_some_iff {b : UInt8} {d : Nat} :
    digit? b = some d ↔ Ascii.isDigit b = true ∧ d = b.toNat - 0x30 := by
  rw [digit?, Option.ite_none_right_eq_some, Option.some.injEq]
  exact and_congr_right fun _ => eq_comm

theorem digit?_eq_none_iff {b : UInt8} : digit? b = none ↔ Ascii.isDigit b = false := by
  rw [digit?]
  simp

/-- A byte that is no digit leads away from the integers, or stands behind the number. -/
theorem feed_cases (p : Partial) {b : UInt8} (hb : Ascii.isDigit b = false) :
    (∃ q, p.feed b = .more q ∧ q.phase.isLate = true) ∨
      (∃ n, p.value = .ok n ∧ p.feed b = .before n) ∨
        ∃ cause place, p.feed b = .fail cause place := by
  rw [Partial.feed, digit?_eq_none_iff.2 hb]
  dsimp only
  cases hmark : p.phase.mark? b with
  | some phase => exact Or.inl ⟨_, rfl, isLate_mark hmark⟩
  | none =>
    refine Or.inr ?_
    cases p.phase.isWhole with
    | false => exact Or.inr ⟨_, _, rfl⟩
    | true =>
      cases p.value with
      | error cause => exact Or.inr ⟨_, _, rfl⟩
      | ok n => exact Or.inl ⟨n, rfl, rfl⟩

/-- What cannot be a count is none. -/
theorem scan?_ne_unsigned {p : Partial} (h : CannotCount p) (text : Bytes) (n : Nat)
    (rest : Bytes) : scan? Partial.feed p text ≠ some (.unsigned n, rest) := by
  induction text generalizing p with
  | nil => simp
  | cons b text ih =>
    cases hb : Ascii.isDigit b with
    | true =>
      rw [scan?, Partial.feed, digit?_eq_some_iff.2 ⟨hb, rfl⟩]
      dsimp only
      cases hdigit : p.phase.digit (b.toNat - 0x30) with
      | error cause => simp
      | ok phase => exact ih (h.imp_right fun h => isLate_digit h hdigit)
    | false =>
      rcases feed_cases p hb with ⟨q, hfeed, hlate⟩ | ⟨k, hvalue, hfeed⟩ | ⟨cause, place, hfeed⟩
      · rw [scan?_of_more hfeed]
        exact ih (Or.inr hlate)
      · rw [scan?_of_before hfeed]
        intro heq
        rw [Option.some.injEq, Prod.mk.injEq] at heq
        rw [heq.1] at hvalue
        exact value_ne_unsigned h n hvalue
      · rw [scan?_of_fail hfeed]
        simp

theorem feed_of_isDigit {m : Nat} {d : UInt8} (hd : Ascii.isDigit d = true)
    (hfits : 10 * m + (d.toNat - 0x30) ≤ maxUnsigned) :
    Partial.feed ⟨false, .integer m⟩ d = .more ⟨false, .integer (10 * m + (d.toNat - 0x30))⟩ := by
  rw [Partial.feed, digit?_eq_some_iff.2 ⟨hd, rfl⟩]
  dsimp only
  rw [Phase.digit, push?, if_pos hfits]

/-- An integer ends before a delimiter. -/
theorem feed_of_delimiter {b : UInt8} (hb : IsDelimiter b) {phase : Phase} {m : Nat}
    (hphase : phase = .zero ∧ m = 0 ∨ phase = .integer m) :
    Partial.feed ⟨false, phase⟩ b = .before (.unsigned m) := by
  have hdigit : digit? b = none := digit?_eq_none_iff.2 (isDigit_of_delimiter hb)
  have hmark : phase.mark? b = none := by
    rcases hphase with ⟨rfl, -⟩ | rfl <;>
      rcases hb.cases with rfl | rfl | rfl | rfl | rfl | rfl | rfl <;> rfl
  rw [Partial.feed, hdigit]
  dsimp only
  rw [hmark]
  rcases hphase with ⟨rfl, rfl⟩ | rfl <;> rfl

/-- Digits are read as the number that they add to. -/
theorem scan?_of_digits {m : Nat} {ds tail : Bytes} (hds : Digits ds)
    (hfits : grown m ds ≤ maxUnsigned) (htail : Delimited tail) :
    scan? Partial.feed ⟨false, .integer m⟩ (ds ++ tail) = some (.unsigned (grown m ds), tail) := by
  induction ds generalizing m with
  | nil =>
    obtain ⟨b, rest, hb, rfl⟩ := htail
    exact scan?_of_before (feed_of_delimiter hb (Or.inr rfl)) rest
  | cons d ds ih =>
    obtain ⟨hd, hds⟩ := List.forall_mem_cons.1 hds
    have hfirst : 10 * m + (d.toNat - 0x30) ≤ maxUnsigned := Nat.le_trans (le_grown _ ds) hfits
    rw [List.cons_append, scan?_of_more (feed_of_isDigit hd hfirst), ih hds hfits]
    rfl

/-- An unsigned number ends before a byte that is no digit. -/
theorem eq_of_not_isDigit {p : Partial} {b : UInt8} (hb : Ascii.isDigit b = false)
    {text rest : Bytes} {k : Nat}
    (h : scan? Partial.feed p (b :: text) = some (.unsigned k, rest)) :
    p.value = .ok (.unsigned k) ∧ rest = b :: text := by
  rcases feed_cases p hb with ⟨q, hfeed, hlate⟩ | ⟨n, hvalue, hfeed⟩ | ⟨cause, place, hfeed⟩
  · rw [scan?_of_more hfeed] at h
    exact absurd h (scan?_ne_unsigned (Or.inr hlate) _ _ _)
  · rw [scan?_of_before hfeed, Option.some.injEq, Prod.mk.injEq] at h
    exact ⟨h.1 ▸ hvalue, h.2.symm⟩
  · rw [scan?_of_fail hfeed] at h
    cases h

/-- What has been read as an unsigned number are digits that add to it. -/
theorem exists_digits {m k : Nat} {text rest : Bytes} (hm : m ≤ maxUnsigned)
    (h : scan? Partial.feed ⟨false, .integer m⟩ text = some (.unsigned k, rest)) :
    ∃ ds, Digits ds ∧ text = ds ++ rest ∧ k = grown m ds ∧ k ≤ maxUnsigned := by
  induction text generalizing m with
  | nil => cases h
  | cons b text ih =>
    cases hb : Ascii.isDigit b with
    | true =>
      by_cases hfits : 10 * m + (b.toNat - 0x30) ≤ maxUnsigned
      · rw [scan?_of_more (feed_of_isDigit hb hfits)] at h
        obtain ⟨ds, hds, rfl, rfl, hk⟩ := ih hfits h
        exact ⟨b :: ds, .cons hb hds, rfl, rfl, hk⟩
      · have hlong : Partial.feed ⟨false, .integer m⟩ b = .more ⟨false, .long m 1⟩ := by
          rw [Partial.feed, digit?_eq_some_iff.2 ⟨hb, rfl⟩]
          dsimp only
          rw [Phase.digit, push?, if_neg hfits]
        rw [scan?_of_more hlong] at h
        exact absurd h (scan?_ne_unsigned (Or.inr rfl) _ _ _)
    | false =>
      obtain ⟨hvalue, rfl⟩ := eq_of_not_isDigit hb h
      cases hvalue
      exact ⟨[], .nil, rfl, rfl, hm⟩

/-- Behind `0` there is no other digit. -/
theorem eq_of_zero {text rest : Bytes} {k : Nat}
    (h : scan? Partial.feed ⟨false, .zero⟩ text = some (.unsigned k, rest)) :
    k = 0 ∧ rest = text := by
  cases text with
  | nil => cases h
  | cons b text =>
    cases hb : Ascii.isDigit b with
    | true =>
      rw [scan?, Partial.feed, digit?_eq_some_iff.2 ⟨hb, rfl⟩] at h
      cases h
    | false =>
      obtain ⟨hvalue, rfl⟩ := eq_of_not_isDigit hb h
      cases hvalue
      exact ⟨rfl, rfl⟩

/-! ### Counts as they are read -/

/-- A count is read from its first byte to the delimiter behind it. -/
theorem scan?_of_isCount {token tail : Bytes} {n : UInt64} (h : IsCount token n)
    (htail : Delimited tail) :
    ∃ b more p, token ++ tail = b :: more ∧ begin? b = some p ∧
      scan? Partial.feed p more = some (.unsigned n.toNat, tail) := by
  obtain ⟨hwhole, hvalue⟩ := h
  cases hwhole with
  | zero =>
    obtain ⟨b, rest, hb, rfl⟩ := htail
    have hzero : n.toNat = 0 := hvalue.symm
    refine ⟨0x30, b :: rest, ⟨false, .zero⟩, rfl, rfl, ?_⟩
    rw [hzero]
    exact scan?_of_before (feed_of_delimiter hb (Or.inl ⟨rfl, rfl⟩)) rest
  | @digits d ds hd hne hds =>
    have hminus : d ≠ 0x2D := ne_of_isDigit hd rfl
    have hgrown : grown (d.toNat - 0x30) ds = n.toNat := by
      rw [← hvalue, Decimal.ofDigits, List.map_cons, List.foldl_cons, Nat.mul_zero, Nat.zero_add]
      rfl
    have hfits : grown (d.toNat - 0x30) ds ≤ maxUnsigned := by
      rw [hgrown]
      exact Nat.le_of_lt_succ n.toNat_lt
    refine ⟨d, ds ++ tail, ⟨false, .integer (d.toNat - 0x30)⟩, rfl, ?_, ?_⟩
    · rw [begin?, if_neg hminus, if_neg hne, digit?_eq_some_iff.2 ⟨hd, rfl⟩]
      rfl
    · rw [scan?_of_digits hds hfits htail, hgrown]

/-- What has been read as an unsigned number is a count. -/
theorem exists_isCount {b : UInt8} {p : Partial} {text rest : Bytes} {k : Nat}
    (hb : begin? b = some p) (h : scan? Partial.feed p text = some (.unsigned k, rest)) :
    ∃ token, IsCount token (UInt64.ofNat k) ∧ b :: text = token ++ rest := by
  unfold begin? at hb
  split at hb
  · cases hb
    exact absurd h (scan?_ne_unsigned (Or.inl rfl) _ _ _)
  · split at hb
    · rename_i hzero
      cases hb
      subst hzero
      obtain ⟨rfl, rfl⟩ := eq_of_zero h
      exact ⟨[0x30], ⟨.zero, rfl⟩, rfl⟩
    · rename_i hne
      obtain ⟨d, hd, rfl⟩ := Option.map_eq_some_iff.1 hb
      obtain ⟨hdigit, rfl⟩ := digit?_eq_some_iff.1 hd
      have hsmall : b.toNat - 0x30 ≤ maxUnsigned :=
        Nat.le_trans (Nat.le_of_lt_succ (Nat.lt_of_le_of_lt (Nat.sub_le _ _) b.toNat_lt))
          (by decide)
      obtain ⟨ds, hds, rfl, hk, hfits⟩ := exists_digits hsmall h
      refine ⟨b :: ds, ⟨.digits hdigit hne hds, ?_⟩, rfl⟩
      rw [UInt64.toNat_ofNat_of_lt' (Nat.lt_succ_of_le hfits), hk, Decimal.ofDigits,
        List.map_cons, List.foldl_cons, Nat.mul_zero, Nat.zero_add]
      rfl

end Number

end WebSocketEcho.Report
