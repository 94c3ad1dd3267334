import WebSocketEcho.Proofs.Report.Accepting

/-!
# The texts that are reports

The reader accepts a text exactly when the grammar says that it is a report, and then reads the
report that it is: `parse_eq_ok_iff_isReport`.

Between tokens, what a state accepts is a token and what the state behind it accepts.  For an object
this is a recursion over its members (`accepts_member`), and what the fields that have been read say
about the members that are to come is `Collects`.
-/

namespace WebSocketEcho.Report

open Grammar

namespace State

variable {s t : State} {fs : Fields} {slot : Slot} {text : Bytes} {r : Report}

/-! ## Between tokens -/

/-- States in which the reader goes over blanks. -/
def isBetween : State → Bool
  | .value _ | .listStart | .afterFirst _ | .beforeSecond _ | .afterSecond _ | .afterExtraComma
  | .objectStart | .afterMember _ | .beforeKey _ | .colon _ _ | .repeated _ | .done _ => true
  | .number _ _ | .text _ _ | .word _ _ _ | .key _ _ | .skip _ _ => false

theorem step_blank (hs : s.isBetween = true) {b : UInt8} (hb : isBlank b = true) :
    s.step b = .goOn s := by
  cases s with
  | number | text | word | key | skip => cases hs
  | _ => simp [step, stepAfter, hb]

/-- A state that waits for one byte. -/
theorem accepts_iff_of_byte {c : UInt8} (hs : s.isBetween = true) (hend : ∀ r, s ≠ .done r)
    (hc : isBlank c = false) (hgo : s.step c = .goOn t)
    (hother : ∀ b, isBlank b = false → b ≠ c →
      (∃ cause place, s.step b = .fail cause place) ∨ ∃ u, s.step b = .goOn u ∧ u.isDead = true) :
    s.Accepts text r ↔ ∃ blanks rest, Blanks blanks ∧ text = blanks ++ c :: rest ∧
      t.Accepts rest r := by
  rw [accepts_iff_of_blanks (fun _ => step_blank hs) hend]
  constructor
  · rintro ⟨blanks, b, rest, hblanks, rfl, hblank, h⟩
    by_cases hb : b = c
    · subst hb
      exact ⟨blanks, rest, hblanks, rfl, (accepts_of_goOn hgo).1 h⟩
    · rcases hother b hblank hb with ⟨_, _, hfail⟩ | ⟨u, hu, hdead⟩
      · exact absurd h (not_accepts_of_fail hfail)
      · exact absurd ((accepts_of_goOn hu).1 h) (not_accepts_of_isDead hdead rest r)
  · rintro ⟨blanks, rest, hblanks, rfl, h⟩
    exact ⟨blanks, c, rest, hblanks, rfl, hc, (accepts_of_goOn hgo).2 h⟩

theorem accepts_done {r' : Report} : (State.done r').Accepts text r ↔ Blanks text ∧ r' = r := by
  obtain ⟨blanks, rest, hblanks, rfl, hrest⟩ := exists_blanks text
  rw [accepts_blanks_append (fun _ => step_blank rfl) hblanks]
  cases rest with
  | nil => simp [Accepts, over?, hblanks]
  | cons b rest =>
    have hblank := hrest b rfl
    have hfail : (State.done r').step b = .fail .trailingCharacters .past := by
      simp [step, stepAfter, hblank]
    refine iff_of_false (not_accepts_of_fail hfail) fun h => ?_
    rw [h.1.isBlank (List.mem_append_right _ List.mem_cons_self)] at hblank
    cases hblank

theorem accepts_afterFirst {max : UInt64} :
    (State.afterFirst max).Accepts text r ↔ ∃ blanks rest, Blanks blanks ∧
      text = blanks ++ 0x2C :: rest ∧ (State.beforeSecond max).Accepts rest r := by
  refine accepts_iff_of_byte rfl (fun _ => by simp) rfl rfl fun b hblank hb => Or.inl ?_
  by_cases hclosing : b = 0x5D
  · subst hclosing
    exact ⟨_, _, rfl⟩
  · exact ⟨.expectedCommaOrBracket, .past, by simp [step, stepAfter, hblank, hb, hclosing]⟩

theorem accepts_afterSecond {r' : Report} :
    (State.afterSecond r').Accepts text r ↔ ∃ blanks rest, Blanks blanks ∧
      text = blanks ++ 0x5D :: rest ∧ (State.done r').Accepts rest r := by
  refine accepts_iff_of_byte rfl (fun _ => by simp) rfl rfl fun b hblank hb => ?_
  by_cases hcomma : b = 0x2C
  · -- A third item is noticed only behind the comma.
    subst hcomma
    exact Or.inr ⟨.afterExtraComma, rfl, rfl⟩
  · exact Or.inl ⟨.trailingCharacters, .past, by simp [step, stepAfter, hblank, hb, hcomma]⟩

theorem closeObject_of_ok (h : fs.report = .ok r) : closeObject fs = .goOn (.done r) := by
  rw [closeObject, h]

theorem accepts_afterMember :
    (State.afterMember fs).Accepts text r ↔ ∃ blanks rest, Blanks blanks ∧
      (text = blanks ++ 0x2C :: rest ∧ (State.beforeKey fs).Accepts rest r ∨
        text = blanks ++ 0x7D :: rest ∧ fs.report = .ok r ∧ Blanks rest) := by
  rw [accepts_iff_of_blanks (fun _ => step_blank rfl) (fun _ => by simp)]
  have hcomma : (State.afterMember fs).step 0x2C = .goOn (.beforeKey fs) := rfl
  have hbrace : (State.afterMember fs).step 0x7D = closeObject fs := rfl
  constructor
  · rintro ⟨blanks, b, rest, hblanks, rfl, hblank, h⟩
    refine ⟨blanks, rest, hblanks, ?_⟩
    by_cases hb : b = 0x2C
    · subst hb
      exact Or.inl ⟨rfl, (accepts_of_goOn hcomma).1 h⟩
    by_cases hb' : b = 0x7D
    · subst hb'
      cases hreport : fs.report with
      | error f =>
        rw [closeObject, hreport] at hbrace
        exact absurd h (not_accepts_of_fail hbrace)
      | ok r' =>
        rw [closeObject_of_ok hreport] at hbrace
        obtain ⟨hrest, rfl⟩ := accepts_done.1 ((accepts_of_goOn hbrace).1 h)
        exact Or.inr ⟨rfl, rfl, hrest⟩
    have hfail : (State.afterMember fs).step b = .fail .expectedCommaOrBrace .past := by
      simp [step, stepAfter, hblank, hb, hb']
    exact absurd h (not_accepts_of_fail hfail)
  · rintro ⟨blanks, rest, hblanks, ⟨rfl, h⟩ | ⟨rfl, hreport, hrest⟩⟩
    · exact ⟨blanks, 0x2C, rest, hblanks, rfl, rfl, (accepts_of_goOn hcomma).2 h⟩
    · rw [closeObject_of_ok hreport] at hbrace
      exact ⟨blanks, 0x7D, rest, hblanks, rfl, rfl,
        (accepts_of_goOn hbrace).2 (accepts_done.2 ⟨hrest, rfl⟩)⟩

/-- A value that does not fit its slot is told to be wrong at once or at its end. -/
theorem step_value_other {b : UInt8} (hblank : isBlank b = false)
    (hnumber : slot = .whole ∨ Number.begin? b = none)
    (hbracket : slot ≠ .whole ∨ b ≠ 0x5B ∧ b ≠ 0x7B) :
    (∃ cause place, (State.value slot).step b = .fail cause place) ∨
      ∃ u, (State.value slot).step b = .goOn u ∧ u.isDead = true := by
  have hstep : (State.value slot).step b = stepValue slot b := by
    rw [step, hblank, if_neg Bool.false_ne_true]
  rw [hstep]
  unfold stepValue
  split
  · -- A number may stand in any slot but that of the report.
    rename_i p hbegin
    obtain rfl : slot = .whole := hnumber.resolve_right (by simp [hbegin])
    exact Or.inr ⟨_, rfl, rfl⟩
  · split
    · exact Or.inr ⟨_, rfl, rfl⟩
    · split
      · rename_i hlist
        cases slot with
        | whole => exact absurd hlist (hbracket.resolve_left (by simp)).1
        | first | second | member => exact Or.inl ⟨_, _, rfl⟩
      · split
        · rename_i hobject
          cases slot with
          | whole => exact absurd hobject (hbracket.resolve_left (by simp)).2
          | first | second | member => exact Or.inl ⟨_, _, rfl⟩
        · cases Word.begin? b with
          | some w => exact Or.inr ⟨_, rfl, rfl⟩
          | none => exact Or.inl ⟨_, _, rfl⟩

/-- What is accepted behind a value starts with a delimiter. -/
theorem delimited_of_accepts_afterMember (h : (State.afterMember fs).Accepts text r) :
    Delimited text := by
  obtain ⟨blanks, rest, hblanks, ⟨rfl, -⟩ | ⟨rfl, -⟩⟩ := accepts_afterMember.1 h
  · exact .append hblanks (.cons (Or.inr (Or.inl rfl)) rest)
  · exact .append hblanks (.cons (Or.inr (Or.inr (Or.inr rfl))) rest)

theorem delimited_of_accepts_filled {n : UInt64} (hslot : slot ≠ .whole)
    (h : (filled n slot).Accepts text r) : Delimited text := by
  cases slot with
  | whole => exact absurd rfl hslot
  | first =>
    obtain ⟨blanks, rest, hblanks, rfl, -⟩ := accepts_afterFirst.1 h
    exact .append hblanks (.cons (Or.inr (Or.inl rfl)) rest)
  | second =>
    obtain ⟨blanks, rest, hblanks, rfl, -⟩ := accepts_afterSecond.1 h
    exact .append hblanks (.cons (Or.inr (Or.inr (Or.inl rfl))) rest)
  | member => exact delimited_of_accepts_afterMember h

/-- No number starts with a blank. -/
theorem isBlank_of_begin? {b : UInt8} {p : Number.Partial} (h : Number.begin? b = some p) :
    isBlank b = false := by
  cases hb : isBlank b with
  | false => rfl
  | true =>
    rw [isBlank_iff] at hb
    rcases hb with rfl | rfl | rfl | rfl <;> cases h

/-- Where a number is wanted, there is a count. -/
theorem accepts_value (hslot : slot ≠ .whole) :
    (State.value slot).Accepts text r ↔ ∃ blanks token n rest, Blanks blanks ∧ IsCount token n ∧
      text = blanks ++ (token ++ rest) ∧ (filled n slot).Accepts rest r := by
  constructor
  · intro h
    obtain ⟨blanks, b, more, hblanks, rfl, hblank, h⟩ :=
      (accepts_iff_of_blanks (fun _ => step_blank rfl) (fun _ => by simp)).1 h
    cases hbegin : Number.begin? b with
    | none =>
      rcases step_value_other hblank (Or.inr hbegin) (Or.inl hslot) with
        ⟨_, _, hfail⟩ | ⟨u, hu, hdead⟩
      · exact absurd h (not_accepts_of_fail hfail)
      · exact absurd ((accepts_of_goOn hu).1 h) (not_accepts_of_isDead hdead more r)
    | some p =>
      have hstep : (State.value slot).step b = .goOn (.number slot p) := by
        rw [step, hblank, if_neg Bool.false_ne_true, stepValue.eq_def, hbegin]
      rw [accepts_of_goOn hstep, accepts_number hslot] at h
      obtain ⟨m, rest, hscan, hrest⟩ := h
      obtain ⟨token, htoken, heq⟩ := Number.exists_isCount hbegin hscan
      exact ⟨blanks, token, _, rest, hblanks, htoken, by rw [heq], hrest⟩
  · rintro ⟨blanks, token, n, rest, hblanks, htoken, rfl, h⟩
    obtain ⟨b, more, p, heq, hbegin, hscan⟩ :=
      Number.scan?_of_isCount htoken (delimited_of_accepts_filled hslot h)
    rw [accepts_blanks_append (fun _ => step_blank rfl) hblanks, heq]
    have hstep : (State.value slot).step b = .goOn (.number slot p) := by
      rw [step, isBlank_of_begin? hbegin, if_neg Bool.false_ne_true, stepValue.eq_def, hbegin]
    rw [accepts_of_goOn hstep, accepts_number hslot]
    exact ⟨_, rest, hscan, by rwa [UInt64.ofNat_toNat]⟩

/-! ## Openings -/

theorem accepts_listStart :
    State.listStart.Accepts text r ↔ (State.value .first).Accepts text r := by
  refine accepts_congr (fun _ => step_blank rfl) (fun _ => step_blank rfl) (fun _ => by simp)
    (fun _ => by simp) fun b hblank => ?_
  by_cases hclosing : b = 0x5D
  · subst hclosing
    exact Or.inr ⟨⟨_, _, rfl⟩, ⟨_, _, rfl⟩⟩
  · exact Or.inl (by simp [step, hblank, hclosing])

theorem accepts_beforeSecond {max : UInt64} :
    (State.beforeSecond max).Accepts text r ↔ (State.value (.second max)).Accepts text r := by
  refine accepts_congr (fun _ => step_blank rfl) (fun _ => step_blank rfl) (fun _ => by simp)
    (fun _ => by simp) fun b hblank => ?_
  by_cases hclosing : b = 0x5D
  · subst hclosing
    exact Or.inr ⟨⟨_, _, rfl⟩, ⟨_, _, rfl⟩⟩
  · exact Or.inl (by simp [step, hblank, hclosing])

theorem accepts_objectStart :
    State.objectStart.Accepts text r ↔ (State.beforeKey .none).Accepts text r := by
  refine accepts_congr (fun _ => step_blank rfl) (fun _ => step_blank rfl) (fun _ => by simp)
    (fun _ => by simp) fun b hblank => ?_
  by_cases hclosing : b = 0x7D
  · -- An object without members tells nothing.
    subst hclosing
    exact Or.inr ⟨⟨_, _, rfl⟩, ⟨_, _, rfl⟩⟩
  · exact Or.inl (by simp [step, hblank, hclosing])

/-- A report is a list or an object. -/
theorem accepts_whole :
    (State.value .whole).Accepts text r ↔ ∃ blanks rest, Blanks blanks ∧
      (text = blanks ++ 0x5B :: rest ∧ (State.value .first).Accepts rest r ∨
        text = blanks ++ 0x7B :: rest ∧ (State.beforeKey .none).Accepts rest r) := by
  rw [accepts_iff_of_blanks (fun _ => step_blank rfl) (fun _ => by simp)]
  have hlist : (State.value .whole).step 0x5B = .goOn .listStart := rfl
  have hobject : (State.value .whole).step 0x7B = .goOn .objectStart := rfl
  constructor
  · rintro ⟨blanks, b, rest, hblanks, rfl, hblank, h⟩
    refine ⟨blanks, rest, hblanks, ?_⟩
    by_cases hb : b = 0x5B
    · subst hb
      rw [accepts_of_goOn hlist, accepts_listStart] at h
      exact Or.inl ⟨rfl, h⟩
    by_cases hb' : b = 0x7B
    · subst hb'
      rw [accepts_of_goOn hobject, accepts_objectStart] at h
      exact Or.inr ⟨rfl, h⟩
    rcases step_value_other hblank (Or.inl rfl) (Or.inr ⟨hb, hb'⟩) with
      ⟨_, _, hfail⟩ | ⟨u, hu, hdead⟩
    · exact absurd h (not_accepts_of_fail hfail)
    · exact absurd ((accepts_of_goOn hu).1 h) (not_accepts_of_isDead hdead rest r)
  · rintro ⟨blanks, rest, hblanks, ⟨rfl, h⟩ | ⟨rfl, h⟩⟩
    · rw [← accepts_listStart, ← accepts_of_goOn hlist] at h
      exact ⟨blanks, 0x5B, rest, hblanks, rfl, rfl, h⟩
    · rw [← accepts_objectStart, ← accepts_of_goOn hobject] at h
      exact ⟨blanks, 0x7B, rest, hblanks, rfl, rfl, h⟩

/-! ## Keys -/

theorem accepts_beforeKey :
    (State.beforeKey fs).Accepts text r ↔ ∃ blanks key name rest, Blanks blanks ∧
      Spells key name ∧ text = blanks ++ 0x22 :: (key ++ 0x22 :: rest) ∧
        (afterKey fs name).Accepts rest r := by
  have hquote : (State.beforeKey fs).step 0x22 = .goOn (.key fs .start) := rfl
  rw [accepts_iff_of_byte rfl (fun _ => by simp) rfl hquote]
  · constructor
    · rintro ⟨blanks, rest, hblanks, rfl, h⟩
      obtain ⟨name, behind, hscan, hbehind⟩ := accepts_key.1 h
      obtain ⟨key, spelt, hkey, rfl, hname⟩ := Quoted.exists_spells hscan
      obtain rfl : name = spelt := hname
      exact ⟨blanks, key, name, behind, hblanks, hkey, rfl, hbehind⟩
    · rintro ⟨blanks, key, name, rest, hblanks, hkey, rfl, h⟩
      exact ⟨blanks, _, hblanks, rfl, accepts_key.2 ⟨name, rest,
        Quoted.scan?_of_spells hkey [] rest, h⟩⟩
  · intro b hblank hb
    by_cases hclosing : b = 0x7D
    · subst hclosing
      exact Or.inl ⟨_, _, rfl⟩
    · exact Or.inl ⟨.keyNotString, .past, by simp [step, hblank, hb, hclosing]⟩

theorem accepts_colon_none :
    (State.colon fs none).Accepts text r ↔ ∃ blanks rest, Blanks blanks ∧
      text = blanks ++ 0x3A :: rest ∧ (State.skip fs .start).Accepts rest r := by
  refine accepts_iff_of_byte rfl (fun _ => by simp) rfl rfl fun b hblank hb => Or.inl ?_
  exact ⟨.expectedColon, .past, by simp [step, hblank, hb]⟩

theorem accepts_colon_some {f : Field} :
    (State.colon fs (some f)).Accepts text r ↔ ∃ blanks rest, Blanks blanks ∧
      text = blanks ++ 0x3A :: rest ∧ (State.value (.member fs f)).Accepts rest r := by
  refine accepts_iff_of_byte rfl (fun _ => by simp) rfl rfl fun b hblank hb => Or.inl ?_
  exact ⟨.expectedColon, .past, by simp [step, hblank, hb]⟩

end State

/-! ## Members -/

/-- What a member of this name and value adds to the fields. -/
inductive Takes (fs : Fields) (name value : Bytes) : Fields → Prop where
  | unknown (h : Field.ofKey? name = none) : Takes fs name value fs
  | field {f : Field} {n : UInt64} (h : Field.ofKey? name = some f) (hnew : fs.get? f = none)
      (hvalue : IsCount value n) : Takes fs name value (fs.set f n)

/-- A count is a value. -/
theorem derives_of_isCount {text : Bytes} {n : UInt64} (h : IsCount text n) :
    Derives .value text := by
  have hnumber : IsNumber ([] ++ (text ++ ([] ++ []))) := .intro (Or.inl rfl) h.whole .none .none
  rw [List.nil_append, List.append_nil, List.append_nil] at hnumber
  exact .number hnumber

namespace State

variable {fs : Fields} {text : Bytes} {r : Report}

/-- Behind a key there are a colon and a value, and the value is a count if the key is a field's. -/
theorem accepts_afterKey {name : Bytes} :
    (afterKey fs name).Accepts text r ↔
      ∃ afterName beforeValue value fs' rest, Blanks afterName ∧ Blanks beforeValue ∧
        Derives .value value ∧ Takes fs name value fs' ∧
          text = afterName ++ 0x3A :: (beforeValue ++ (value ++ rest)) ∧
            (State.afterMember fs').Accepts rest r := by
  have hslot : ∀ f, Slot.member fs f ≠ .whole := fun f => by simp
  constructor
  · intro h
    unfold afterKey at h
    cases hname : Field.ofKey? name with
    | none =>
      rw [hname] at h
      obtain ⟨afterName, behind, hafterName, rfl, hskip⟩ := accepts_colon_none.1 h
      obtain ⟨rest, hscan, hrest⟩ := accepts_skip.1 hskip
      obtain ⟨beforeValue, value, hbeforeValue, hvalue, rfl⟩ := Skip.exists_isValue hscan
      exact ⟨afterName, beforeValue, value, fs, rest, hafterName, hbeforeValue, hvalue,
        .unknown hname, rfl, hrest⟩
    | some f =>
      rw [hname] at h
      dsimp only at h
      cases hget : fs.get? f with
      | some n =>
        rw [hget, Option.isSome_some, if_pos rfl] at h
        exact absurd h (not_accepts_of_isDead rfl text r)
      | none =>
        rw [hget, Option.isSome_none, if_neg Bool.false_ne_true] at h
        obtain ⟨afterName, behind, hafterName, rfl, hmember⟩ := accepts_colon_some.1 h
        obtain ⟨beforeValue, value, n, rest, hbeforeValue, hcount, rfl, hrest⟩ :=
          (accepts_value (hslot f)).1 hmember
        exact ⟨afterName, beforeValue, value, _, rest, hafterName, hbeforeValue,
          derives_of_isCount hcount, .field hname hget hcount, rfl, hrest⟩
  · rintro ⟨afterName, beforeValue, value, fs', rest, hafterName, hbeforeValue, hvalue, htakes, rfl,
      hrest⟩
    cases htakes with
    | unknown hname =>
      rw [afterKey, hname]
      refine accepts_colon_none.2 ⟨afterName, _, hafterName, rfl, accepts_skip.2 ⟨rest, ?_, hrest⟩⟩
      exact Skip.scan?_of_isValue hbeforeValue hvalue (delimited_of_accepts_afterMember hrest)
    | @field f n hname hget hcount =>
      rw [afterKey, hname]
      dsimp only
      rw [hget, Option.isSome_none, if_neg Bool.false_ne_true]
      refine accepts_colon_some.2 ⟨afterName, _, hafterName, rfl, ?_⟩
      exact (accepts_value (hslot f)).2
        ⟨beforeValue, value, n, rest, hbeforeValue, hcount, rfl, hrest⟩

/-- A member, and a comma or the closing brace behind it. -/
theorem accepts_member :
    (State.beforeKey fs).Accepts text r ↔ ∃ (l : Layout) (name : Bytes) (fs' : Fields)
      (rest : Bytes), Spells l.key name ∧ Derives .value l.value ∧ Takes fs name l.value fs' ∧
        (text = l.bytes ++ 0x2C :: rest ∧ (State.beforeKey fs').Accepts rest r ∨
          text = l.bytes ++ 0x7D :: rest ∧ fs'.report = .ok r ∧ Blanks rest) := by
  constructor
  · intro h
    obtain ⟨before, key, name, behindKey, hbefore, hkey, rfl, hnamed⟩ := accepts_beforeKey.1 h
    obtain ⟨afterName, beforeValue, value, fs', behind, hafterName, hbeforeValue, hvalue, htakes,
      rfl, hmember⟩ := accepts_afterKey.1 hnamed
    obtain ⟨after, rest, hafter, hnext⟩ := accepts_afterMember.1 hmember
    refine ⟨⟨before, key, afterName, beforeValue, value, after, hbefore, hafterName, hbeforeValue,
      hafter⟩, name, fs', rest, hkey, hvalue, htakes, ?_⟩
    rcases hnext with ⟨rfl, hnext⟩ | ⟨rfl, hnext⟩
    · exact Or.inl ⟨by simp [Layout.bytes], hnext⟩
    · exact Or.inr ⟨by simp [Layout.bytes], hnext⟩
  · rintro ⟨l, name, fs', rest, hkey, hvalue, htakes, h⟩
    have hbehind : ∀ tail, (State.afterMember fs').Accepts (l.after ++ tail) r →
        (State.beforeKey fs).Accepts (l.bytes ++ tail) r := by
      intro tail htail
      refine accepts_beforeKey.2 ⟨l.before, l.key, name, _, l.before_blanks, hkey, ?_,
        accepts_afterKey.2 ⟨l.afterKey, l.beforeValue, l.value, fs', _, l.afterKey_blanks,
          l.beforeValue_blanks, hvalue, htakes, rfl, htail⟩⟩
      simp [Layout.bytes]
    rcases h with ⟨rfl, h⟩ | ⟨rfl, h⟩
    · exact hbehind _ (accepts_afterMember.2 ⟨l.after, rest, l.after_blanks, Or.inl ⟨rfl, h⟩⟩)
    · exact hbehind _ (accepts_afterMember.2 ⟨l.after, rest, l.after_blanks, Or.inr ⟨rfl, h⟩⟩)

end State

/-! ## Fields -/

/-- The count that a report has for a field. -/
def count (r : Report) : Field → UInt64
  | .max => r.max
  | .active => r.active

theorem ofKey?_eq_some_iff {name : Bytes} {f : Field} :
    Field.ofKey? name = some f ↔ name = Bytes.ofText f.name := by
  unfold Field.ofKey?
  constructor
  · intro h
    split at h
    · rename_i hname
      cases h
      exact hname
    · rw [Option.ite_none_right_eq_some, Option.some.injEq] at h
      obtain ⟨hname, rfl⟩ := h
      exact hname
  · rintro rfl
    cases f <;> decide

theorem report_eq_ok_iff {fs : Fields} {r : Report} :
    fs.report = .ok r ↔ ∀ f, fs.get? f = some (r.count f) := by
  obtain ⟨max, active⟩ := fs
  constructor
  · intro h f
    cases max with
    | none => cases h
    | some max =>
      cases active with
      | none => cases h
      | some active =>
        cases h
        cases f <;> rfl
  · intro h
    obtain rfl : max = some r.max := h .max
    obtain rfl : active = some r.active := h .active
    rfl

theorem get?_set (fs : Fields) (f g : Field) (n : UInt64) :
    (fs.set f n).get? g = if g = f then some n else fs.get? g := by
  cases f <;> cases g <;> rfl

theorem Grammar.IsCount.unique {text : Bytes} {m n : UInt64} (hm : IsCount text m)
    (hn : IsCount text n) : m = n :=
  UInt64.toNat.inj (hm.value.symm.trans hn.value)

/-- The members that are to come, and the fields that have been read, make this report: each field
has been read and no member has its name, or it has not been read and the members tell it. -/
def Collects (fs : Fields) (members : List (Bytes × Bytes)) (r : Report) : Prop :=
  ∀ f, (fs.get? f = some (r.count f) ∧
      members.filter (fun member => member.1 = Bytes.ofText f.name) = []) ∨
    (fs.get? f = none ∧ Tells members (Bytes.ofText f.name) (r.count f))

section Collects

variable {fs fs' : Fields} {name value : Bytes} {members : List (Bytes × Bytes)} {r : Report}

theorem collects_nil : Collects fs [] r ↔ fs.report = .ok r := by
  rw [report_eq_ok_iff]
  refine forall_congr' fun f => ?_
  simp [Tells]

/-- A member of another name tells nothing of a field. -/
theorem tells_cons_of_ne {key : Bytes} {n : UInt64} (h : name ≠ key) :
    Tells ((name, value) :: members) key n ↔ Tells members key n := by
  simp [Tells, h]

theorem tells_cons_self {n : UInt64} :
    Tells ((name, value) :: members) name n ↔
      members.filter (fun member => member.1 = name) = [] ∧ IsCount value n := by
  simp [Tells]

/-- A member that is taken leaves the others to tell the rest. -/
theorem collects_cons (h : Takes fs name value fs') :
    Collects fs ((name, value) :: members) r ↔ Collects fs' members r := by
  refine forall_congr' fun g => ?_
  cases h with
  | unknown hname =>
    have hne : name ≠ Bytes.ofText g.name := by
      rw [Ne, ← ofKey?_eq_some_iff, hname]
      simp
    rw [tells_cons_of_ne hne]
    simp [hne]
  | @field f n hname hnew hvalue =>
    obtain rfl := ofKey?_eq_some_iff.1 hname
    rw [get?_set]
    by_cases hg : g = f
    · subst hg
      rw [hnew, tells_cons_self, if_pos rfl]
      constructor
      · rintro (⟨hsome, -⟩ | ⟨-, hothers, hcount⟩)
        · cases hsome
        · exact Or.inl ⟨congrArg some (hvalue.unique hcount), hothers⟩
      · rintro (⟨hsome, hothers⟩ | ⟨hnone, -⟩)
        · exact Or.inr ⟨rfl, hothers, Option.some.inj hsome ▸ hvalue⟩
        · cases hnone
    · have hne : Bytes.ofText f.name ≠ Bytes.ofText g.name := by
        rw [Ne, ← ofKey?_eq_some_iff, hname]
        simp [Ne.symm hg]
      rw [if_neg hg, tells_cons_of_ne hne]
      simp [hne]

/-- A member that belongs to a report can be taken. -/
theorem exists_takes (h : Collects fs ((name, value) :: members) r) :
    ∃ fs', Takes fs name value fs' := by
  cases hname : Field.ofKey? name with
  | none => exact ⟨fs, .unknown hname⟩
  | some f =>
    obtain rfl := ofKey?_eq_some_iff.1 hname
    rcases h f with ⟨-, hothers⟩ | ⟨hnew, htells⟩
    · simp at hothers
    · exact ⟨_, .field hname hnew (tells_cons_self.1 htells).2⟩

end Collects

namespace State

variable {fs : Fields} {text : Bytes} {r : Report}

/-- The members of an object are read one by one. -/
theorem accepts_members :
    (State.beforeKey fs).Accepts text r ↔ ∃ members body tail, Members members body ∧
      Blanks tail ∧ text = body ++ 0x7D :: tail ∧ Collects fs members r := by
  constructor
  · intro h
    induction hn : text.length using Nat.strongRecOn generalizing fs text with
    | ind n ih =>
      subst hn
      obtain ⟨l, name, fs', rest, hkey, hvalue, htakes, ⟨rfl, hnext⟩ | ⟨rfl, hreport, hrest⟩⟩ :=
        accepts_member.1 h
      · have hshorter : rest.length < (l.bytes ++ 0x2C :: rest).length := by
          simp only [List.length_append, List.length_cons]
          omega
        obtain ⟨members, body, tail, hmembers, htail, rfl, hcollects⟩ :=
          ih rest.length hshorter hnext rfl
        exact ⟨_, _, tail, .more l hkey hvalue hmembers, htail, by simp,
          (collects_cons htakes).2 hcollects⟩
      · exact ⟨_, _, rest, .last l hkey hvalue, hrest, rfl,
          (collects_cons htakes).2 (collects_nil.2 hreport)⟩
  · rintro ⟨members, body, tail, hmembers, htail, rfl, hcollects⟩
    induction hmembers generalizing fs with
    | last l hkey hvalue =>
      obtain ⟨fs', htakes⟩ := exists_takes hcollects
      have hreport := collects_nil.1 ((collects_cons htakes).1 hcollects)
      exact accepts_member.2 ⟨l, _, fs', tail, hkey, hvalue, htakes, Or.inr ⟨rfl, hreport, htail⟩⟩
    | more l hkey hvalue _ ih =>
      obtain ⟨fs', htakes⟩ := exists_takes hcollects
      have hnext := ih ((collects_cons htakes).1 hcollects)
      exact accepts_member.2 ⟨l, _, fs', _, hkey, hvalue, htakes, Or.inl ⟨by simp, hnext⟩⟩

end State

/-! ## The language -/

theorem collects_none_iff {members : List (Bytes × Bytes)} {r : Report} :
    Collects .none members r ↔
      Tells members (Bytes.ofText "max") r.max ∧
        Tells members (Bytes.ofText "active") r.active := by
  constructor
  · intro h
    exact ⟨((h .max).resolve_left fun h => nomatch h.1).2,
      ((h .active).resolve_left fun h => nomatch h.1).2⟩
  · rintro ⟨hmax, hactive⟩ f
    cases f with
    | max => exact Or.inr ⟨rfl, hmax⟩
    | active => exact Or.inr ⟨rfl, hactive⟩

/-- Two counts in brackets. -/
theorem accepts_pair_iff {text : Bytes} {r : Report} :
    (State.value .first).Accepts text r ↔ ∃ a max b c active d tail, Blanks a ∧ Blanks b ∧
      Blanks c ∧ Blanks d ∧ IsCount max r.max ∧ IsCount active r.active ∧ Blanks tail ∧
        text = a ++ (max ++ (b ++ 0x2C :: (c ++ (active ++ (d ++ 0x5D :: tail))))) := by
  rw [State.accepts_value (by simp)]
  constructor
  · rintro ⟨a, max, m, behindMax, ha, hmax, rfl, hfirst⟩
    obtain ⟨b, second, hb, rfl, hsecond⟩ := State.accepts_afterFirst.1 hfirst
    rw [State.accepts_beforeSecond, State.accepts_value (by simp)] at hsecond
    obtain ⟨c, active, n, behindActive, hc, hactive, rfl, hclosing⟩ := hsecond
    obtain ⟨d, tail, hd, rfl, hdone⟩ := State.accepts_afterSecond.1 hclosing
    obtain ⟨htail, rfl⟩ := State.accepts_done.1 hdone
    exact ⟨a, max, b, c, active, d, tail, ha, hb, hc, hd, hmax, hactive, htail, rfl⟩
  · rintro ⟨a, max, b, c, active, d, tail, ha, hb, hc, hd, hmax, hactive, htail, rfl⟩
    refine ⟨a, max, r.max, _, ha, hmax, rfl, State.accepts_afterFirst.2 ⟨b, _, hb, rfl, ?_⟩⟩
    rw [State.accepts_beforeSecond, State.accepts_value (by simp)]
    exact ⟨c, active, r.active, _, hc, hactive, rfl,
      State.accepts_afterSecond.2 ⟨d, tail, hd, rfl, State.accepts_done.2 ⟨htail, rfl⟩⟩⟩

/-- The texts that are accepted are the reports of the grammar. -/
theorem accepts_iff_isReport {text : Bytes} {r : Report} :
    (State.value .whole).Accepts text r ↔ IsReport text r := by
  rw [State.accepts_whole]
  constructor
  · rintro ⟨before, rest, hbefore, ⟨rfl, h⟩ | ⟨rfl, h⟩⟩
    · obtain ⟨a, max, b, c, active, d, tail, ha, hb, hc, hd, hmax, hactive, htail, rfl⟩ :=
        accepts_pair_iff.1 h
      exact ⟨before, _, tail, hbefore, .list ha hb hc hd hmax hactive, htail, by simp⟩
    · obtain ⟨members, body, tail, hmembers, htail, rfl, hcollects⟩ := State.accepts_members.1 h
      obtain ⟨hmax, hactive⟩ := collects_none_iff.1 hcollects
      exact ⟨before, _, tail, hbefore, .object hmembers hmax hactive, htail, by simp⟩
  · rintro ⟨before, body, tail, hbefore, hbody, htail, rfl⟩
    cases hbody with
    | @list a b c d max active ha hb hc hd hmax hactive =>
      refine ⟨before, _, hbefore, Or.inl ⟨rfl, accepts_pair_iff.2
        ⟨a, max, b, c, active, d, tail, ha, hb, hc, hd, hmax, hactive, htail, ?_⟩⟩⟩
      simp
    | @object members body hmembers hmax hactive =>
      refine ⟨before, _, hbefore, Or.inr ⟨rfl, State.accepts_members.2
        ⟨members, body, tail, hmembers, htail, ?_, collects_none_iff.2 ⟨hmax, hactive⟩⟩⟩⟩
      simp

/-- A text is read as a report exactly when it is one, as the report that it is, and every other
text is refused. -/
theorem parse_eq_ok_iff_isReport (text : Bytes) :
    (∀ r, parse text = .ok r ↔ IsReport text r) ∧
      ((∃ e, parse text = .error e) ↔ ¬ ∃ r, IsReport text r) := by
  have hparse : ∀ r, parse text = .ok r ↔ IsReport text r := fun r =>
    State.parse_eq_ok_iff_accepts.trans accepts_iff_isReport
  refine ⟨hparse, ?_⟩
  cases h : parse text with
  | ok r => simp [← hparse, h]
  | error e => simp [← hparse, h]

end WebSocketEcho.Report
