import WebSocketEcho.Proofs.Report.Rendered
import WebSocketEcho.Proofs.Report.Skipped

/-!
# What the reader accepts

A text is accepted from a state when the reader, once it has gone over all of it, has read a report
(`State.Accepts`).  For each state this is said in terms of the texts that come next and the states
behind them, so that nobody has to look at single bytes any more.  Some states accept nothing
(`State.isDead`): what has gone wrong there is told only by a later byte.
-/

namespace WebSocketEcho.Report.State

open Grammar

/-- The reader has read this report when it has gone over the text. -/
def Accepts (s : State) (text : Bytes) (r : Report) : Prop := s.over? text = some (.done r)

section Steps

variable {s t : State} {b : UInt8} {text rest : Bytes} {r : Report}

theorem accepts_of_goOn (h : s.step b = .goOn t) : s.Accepts (b :: rest) r ↔ t.Accepts rest r := by
  rw [Accepts, over?, h]
  rfl

theorem not_accepts_of_fail {cause : Cause} {place : Place} (h : s.step b = .fail cause place) :
    ¬ s.Accepts (b :: rest) r := by
  rw [Accepts, over?, h]
  simp

/-- A state that waits between tokens goes over blanks. -/
theorem accepts_blanks_append (hs : ∀ b, isBlank b = true → s.step b = .goOn s) {blanks : Bytes}
    (h : Blanks blanks) : s.Accepts (blanks ++ text) r ↔ s.Accepts text r := by
  induction blanks with
  | nil => exact Iff.rfl
  | cons b blanks ih =>
    have hrest : Blanks blanks := fun c hc => h c (List.mem_cons_of_mem b hc)
    rw [List.cons_append, accepts_of_goOn (hs b (h.isBlank List.mem_cons_self)), ih hrest]

/-- Such a state is known by the first byte behind the blanks. -/
theorem accepts_iff_of_blanks (hs : ∀ b, isBlank b = true → s.step b = .goOn s)
    (hend : ∀ r, s ≠ .done r) :
    s.Accepts text r ↔ ∃ blanks b rest, Blanks blanks ∧ text = blanks ++ b :: rest ∧
      isBlank b = false ∧ s.Accepts (b :: rest) r := by
  constructor
  · intro h
    obtain ⟨blanks, rest, hblanks, rfl, hrest⟩ := exists_blanks text
    rw [accepts_blanks_append hs hblanks] at h
    cases rest with
    | nil => exact absurd (Option.some.inj h) (hend r)
    | cons b rest => exact ⟨blanks, b, rest, hblanks, rfl, hrest b rfl, h⟩
  · rintro ⟨blanks, b, rest, hblanks, rfl, -, h⟩
    exact (accepts_blanks_append hs hblanks).2 h

/-- Two such states accept the same when they do the same with all other bytes, or both fail. -/
theorem accepts_congr (hs : ∀ b, isBlank b = true → s.step b = .goOn s)
    (ht : ∀ b, isBlank b = true → t.step b = .goOn t) (hsend : ∀ r, s ≠ .done r)
    (htend : ∀ r, t ≠ .done r)
    (h : ∀ b, isBlank b = false → s.step b = t.step b ∨
      (∃ cause place, s.step b = .fail cause place) ∧ ∃ cause place, t.step b = .fail cause place) :
    s.Accepts text r ↔ t.Accepts text r := by
  rw [accepts_iff_of_blanks hs hsend, accepts_iff_of_blanks ht htend]
  refine exists_congr fun blanks => exists_congr fun b => exists_congr fun rest =>
    and_congr_right fun _ => and_congr_right fun _ => and_congr_right fun hblank => ?_
  rcases h b hblank with heq | ⟨⟨_, _, hfail⟩, ⟨_, _, hfail'⟩⟩
  · rw [Accepts, Accepts, over?, over?, heq]
  · exact iff_of_false (not_accepts_of_fail hfail) (not_accepts_of_fail hfail')

/-- A token is read by its own machine, and then the reader goes on. -/
theorem accepts_iff_of_token {α β : Type} (feed : α → UInt8 → Feed α β) (wrap : α → State)
    (Behind : β → Bytes → Prop) (hwrap : ∀ t r, wrap t ≠ .done r)
    (hmore : ∀ t t' b, feed t b = .more t' → (wrap t).step b = .goOn (wrap t'))
    (hlast : ∀ t x b rest, feed t b = .last x →
      ((wrap t).Accepts (b :: rest) r ↔ Behind x rest))
    (hbefore : ∀ t x b rest, feed t b = .before x →
      ((wrap t).Accepts (b :: rest) r ↔ Behind x (b :: rest)))
    (hfail : ∀ t b cause place, feed t b = .fail cause place →
      (wrap t).step b = .fail cause place) (t : α) :
    (wrap t).Accepts text r ↔ ∃ x rest, scan? feed t text = some (x, rest) ∧ Behind x rest := by
  induction text generalizing t with
  | nil => exact iff_of_false (fun h => hwrap t r (Option.some.inj h)) (by simp)
  | cons b text ih =>
    cases hstep : feed t b with
    | more t' =>
      rw [accepts_of_goOn (hmore t t' b hstep), ih, scan?_of_more hstep]
    | last x =>
      rw [hlast t x b text hstep, scan?_of_last hstep]
      simp
    | before x =>
      rw [hbefore t x b text hstep, scan?_of_before hstep]
      simp
    | fail cause place =>
      rw [scan?_of_fail hstep]
      exact iff_of_false (not_accepts_of_fail (hfail t b cause place hstep)) (by simp)

end Steps

/-! ## Texts that are read to their end -/

theorem settle_whole (n : Number) : ∃ cause, settle .whole n = .error cause := by
  cases n <;> exact ⟨_, rfl⟩

/-- Only a count fills a slot. -/
theorem settle_eq_ok_iff {slot : Slot} {n : Number} {s : State} :
    settle slot n = .ok s ↔
      ∃ m, n = .unsigned m ∧ slot ≠ .whole ∧ s = filled (UInt64.ofNat m) slot := by
  cases n with
  | unsigned m => cases slot <;> simp [settle, eq_comm]
  | negative m => cases slot <;> simp [settle]
  | float bits => simp [settle]

theorem atRest_filled (n : UInt64) (slot : Slot) (r : Report) : (filled n slot).atRest ≠ .ok r := by
  cases slot <;> simp [filled, atRest]

/-- Only a report that has been read can be the end of a text. -/
theorem eq_done_of_atEnd {s : State} {r : Report} (h : s.atEnd = .ok r) : s = .done r := by
  cases s with
  | done r' =>
    cases h
    rfl
  | number slot n =>
    rw [atEnd] at h
    split at h
    · cases h
    · split at h
      · cases h
      · rename_i hsettle
        obtain ⟨m, -, -, rfl⟩ := settle_eq_ok_iff.1 hsettle
        exact absurd h (atRest_filled _ _ r)
  | skip fs p =>
    rw [atEnd] at h
    split at h <;> cases h
  | _ => cases h

theorem accepts_of_read {s : State} {p : Position} {text : Bytes} {r : Report}
    (h : s.read p text = .ok r) : s.Accepts text r := by
  induction text generalizing s p with
  | nil =>
    rw [read] at h
    cases hend : s.atEnd with
    | ok r' =>
      rw [hend] at h
      cases h
      rw [eq_done_of_atEnd hend]
      rfl
    | error cause =>
      rw [hend] at h
      cases h
  | cons b text ih =>
    rw [read] at h
    cases hstep : s.step b with
    | goOn t =>
      rw [hstep] at h
      exact (accepts_of_goOn hstep).2 (ih h)
    | fail cause place =>
      rw [hstep] at h
      cases place <;> cases h

theorem parse_eq_ok_iff_accepts {text : Bytes} {r : Report} :
    parse text = .ok r ↔ (State.value .whole).Accepts text r :=
  ⟨accepts_of_read, fun h => read_of_over? h rfl .start⟩

/-! ## States that accept nothing -/

/-- What was read is no part of a report. -/
def isDead : State → Bool
  | .text _ _ | .word _ _ _ | .number .whole _ | .afterExtraComma | .repeated _ => true
  | _ => false

theorem isDead_step {s t : State} {b : UInt8} (hs : s.isDead = true) (h : s.step b = .goOn t) :
    t.isDead = true := by
  cases s with
  | text slot q =>
    rw [step, stepText] at h
    split at h <;> cases h
    rfl
  | word slot w rest =>
    rw [step, stepWord] at h
    split at h <;> cases h
    rfl
  | number slot n =>
    cases slot with
    | whole =>
      rw [step, stepNumber] at h
      split at h
      · cases h
        rfl
      · obtain ⟨cause, hcause⟩ := settle_whole ‹_›
        rw [hcause] at h
        cases h
      · obtain ⟨cause, hcause⟩ := settle_whole ‹_›
        rw [hcause] at h
        cases h
      · cases h
    | first | second | member => cases hs
  | afterExtraComma =>
    rw [step] at h
    split at h
    · cases h
      rfl
    · split at h <;> cases h
  | repeated f =>
    rw [step] at h
    split at h
    · cases h
      rfl
    · split at h <;> cases h
  | _ => cases hs

theorem not_accepts_of_isDead {s : State} (hs : s.isDead = true) (text : Bytes) (r : Report) :
    ¬ s.Accepts text r := by
  induction text generalizing s with
  | nil =>
    intro h
    obtain rfl := Option.some.inj h
    cases hs
  | cons b text ih =>
    cases hstep : s.step b with
    | goOn t =>
      rw [accepts_of_goOn hstep]
      exact ih (isDead_step hs hstep)
    | fail cause place => exact not_accepts_of_fail hstep

/-! ## Tokens -/

/-- A string ends with its quote. -/
theorem key_feed_ne_before (p : Quoted.Partial) (b : UInt8) (name : Bytes) :
    p.feed b ≠ .before name := by
  obtain ⟨read, phase⟩ := p
  cases phase with
  | plain =>
    simp only [Quoted.Partial.feed]
    split
    · simp
    · split
      · simp
      · split <;> simp
  | escape =>
    simp only [Quoted.Partial.feed]
    split
    · simp
    · split <;> simp
  | hex first digits =>
    simp only [Quoted.Partial.feed]
    split
    · simp
    · rcases Quoted.endHex_cases ⟨read, .hex first digits⟩ first (b :: digits).reverse with
        ⟨q, hend⟩ | ⟨cause, place, hend⟩ <;> rw [hend] <;> simp
  | paired first | pairedEscape first =>
    simp only [Quoted.Partial.feed]
    split <;> simp

/-- A number ends before the byte behind it. -/
theorem number_feed_ne_last (p : Number.Partial) (b : UInt8) (n : Number) :
    p.feed b ≠ .last n := by
  cases hb : Ascii.isDigit b with
  | true =>
    rw [Number.Partial.feed, Number.digit?_eq_some_iff.2 ⟨hb, rfl⟩]
    dsimp only
    cases p.phase.digit (b.toNat - 0x30) <;> simp
  | false =>
    rcases Number.feed_cases p hb with ⟨q, hfeed, -⟩ | ⟨k, -, hfeed⟩ | ⟨cause, place, hfeed⟩ <;>
      simp [hfeed]

/-- Behind a value that fills its slot the reader looks at the next byte. -/
theorem step_filled {slot : Slot} (hslot : slot ≠ .whole) (n : UInt64) (b : UInt8) :
    (filled n slot).step b = stepAfter (filled n slot) b := by
  cases slot with
  | whole => exact absurd rfl hslot
  | first | second | member => rfl

section Tokens

variable {fs : Fields} {text : Bytes} {r : Report}

theorem accepts_key {p : Quoted.Partial} :
    (State.key fs p).Accepts text r ↔ ∃ name rest,
      scan? Quoted.Partial.feed p text = some (name, rest) ∧ (afterKey fs name).Accepts rest r := by
  refine accepts_iff_of_token Quoted.Partial.feed (State.key fs)
    (fun name rest => (afterKey fs name).Accepts rest r) ?_ ?_ ?_ ?_ ?_ p
  · intro t r
    simp
  · intro t t' b h
    rw [step, stepKey, h]
  · intro t name b rest h
    exact accepts_of_goOn (by rw [step, stepKey, h])
  · intro t name b rest h
    exact absurd h (key_feed_ne_before t b name)
  · intro t b cause place h
    rw [step, stepKey, h]

theorem accepts_skip {p : Skip.Partial} :
    (State.skip fs p).Accepts text r ↔ ∃ rest,
      scan? Skip.Partial.feed p text = some ((), rest) ∧ (State.afterMember fs).Accepts rest r := by
  refine (accepts_iff_of_token Skip.Partial.feed (State.skip fs)
    (fun _ rest => (State.afterMember fs).Accepts rest r) ?_ ?_ ?_ ?_ ?_ p).trans ?_
  · intro t r
    simp
  · intro t t' b h
    rw [step, stepSkip, h]
  · intro t x b rest h
    exact accepts_of_goOn (by rw [step, stepSkip, h])
  · intro t x b rest h
    rw [Accepts, Accepts, over?, over?, step, step, stepSkip, h]
  · intro t b cause place h
    rw [step, stepSkip, h]
  · constructor
    · rintro ⟨_, h⟩
      exact h
    · intro h
      exact ⟨(), h⟩

theorem accepts_number {slot : Slot} {n : Number.Partial} (hslot : slot ≠ .whole) :
    (State.number slot n).Accepts text r ↔ ∃ m rest,
      scan? Number.Partial.feed n text = some (.unsigned m, rest) ∧
        (filled (UInt64.ofNat m) slot).Accepts rest r := by
  refine (accepts_iff_of_token Number.Partial.feed (State.number slot)
    (fun k rest => ∃ s, settle slot k = .ok s ∧ s.Accepts rest r) ?_ ?_ ?_ ?_ ?_ n).trans ?_
  · intro t r
    simp
  · intro t t' b h
    rw [step, stepNumber, h]
  · intro t k b rest h
    exact absurd h (number_feed_ne_last t b k)
  · intro t k b rest h
    cases hsettle : settle slot k with
    | error cause =>
      have hfail : (State.number slot t).step b = .fail cause .here := by
        rw [step, stepNumber, h]
        dsimp only
        rw [hsettle]
      exact iff_of_false (not_accepts_of_fail hfail) (by simp)
    | ok s =>
      obtain ⟨m, rfl, -, rfl⟩ := settle_eq_ok_iff.1 hsettle
      have hstep : (State.number slot t).step b = (filled (UInt64.ofNat m) slot).step b := by
        rw [step, stepNumber, h, step_filled hslot]
        dsimp only
        rw [hsettle]
      rw [Accepts, over?, hstep]
      simp [Accepts, over?]
  · intro t b cause place h
    rw [step, stepNumber, h]
  · constructor
    · rintro ⟨k, rest, hscan, s, hsettle, h⟩
      obtain ⟨m, rfl, -, rfl⟩ := settle_eq_ok_iff.1 hsettle
      exact ⟨m, rest, hscan, h⟩
    · rintro ⟨m, rest, hscan, h⟩
      exact ⟨_, rest, hscan, _, settle_eq_ok_iff.2 ⟨m, rfl, hslot, rfl⟩, h⟩

end Tokens

end WebSocketEcho.Report.State
