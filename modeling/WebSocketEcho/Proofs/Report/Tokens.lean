import Mathlib.Data.List.Basic
import WebSocketEcho.Proofs.Report.Grammar

/-!
# The tokens of a report

The machines that read the tokens of a report, each against its part of the grammar.
-/

namespace WebSocketEcho.Report

open Grammar

/-- What a machine finds in front of a text: the result of its token and what comes behind it. -/
def scan? {α β : Type} (feed : α → UInt8 → Feed α β) (s : α) : Bytes → Option (β × Bytes)
  | [] => none
  | b :: rest =>
    match feed s b with
    | .more t => scan? feed t rest
    | .last result => some (result, rest)
    | .before result => some (result, b :: rest)
    | .fail _ _ => none

section Scan

variable {α β : Type} {feed : α → UInt8 → Feed α β} {s t : α} {b : UInt8} {result : β}

theorem scan?_of_more (h : feed s b = .more t) (rest : Bytes) :
    scan? feed s (b :: rest) = scan? feed t rest := by
  rw [scan?, h]

@[simp] theorem scan?_nil : scan? feed s [] = none := rfl

theorem scan?_of_last (h : feed s b = .last result) (rest : Bytes) :
    scan? feed s (b :: rest) = some (result, rest) := by
  rw [scan?, h]

theorem scan?_of_before (h : feed s b = .before result) (rest : Bytes) :
    scan? feed s (b :: rest) = some (result, b :: rest) := by
  rw [scan?, h]

theorem scan?_of_fail {cause : Cause} {place : Place} (h : feed s b = .fail cause place)
    (rest : Bytes) : scan? feed s (b :: rest) = none := by
  rw [scan?, h]

end Scan

/-! ## Blanks and what ends a token -/

theorem isBlank_iff {b : UInt8} :
    isBlank b = true ↔ b = 0x20 ∨ b = 0x09 ∨ b = 0x0A ∨ b = 0x0D := by
  simp [isBlank, or_assoc]

theorem Grammar.Blanks.nil : Blanks [] := fun _ h => nomatch h

theorem Grammar.Blanks.isBlank {text : Bytes} (h : Blanks text) {b : UInt8} (hb : b ∈ text) :
    isBlank b = true :=
  isBlank_iff.2 (h b hb)

/-- A machine that waits between tokens goes over blanks. -/
theorem scan?_of_blanks {α β : Type} {feed : α → UInt8 → Feed α β} {s : α}
    (hs : ∀ b, isBlank b = true → feed s b = .more s) {blanks : Bytes} (h : Blanks blanks)
    (text : Bytes) : scan? feed s (blanks ++ text) = scan? feed s text := by
  induction blanks with
  | nil => rfl
  | cons b blanks ih =>
    have hrest : Blanks blanks := fun c hc => h c (List.mem_cons_of_mem b hc)
    rw [List.cons_append, scan?_of_more (hs b (h.isBlank List.mem_cons_self)), ih hrest]

/-- Blanks can be taken off the front of a text. -/
theorem exists_blanks (text : Bytes) :
    ∃ blanks rest, Blanks blanks ∧ text = blanks ++ rest ∧
      ∀ b ∈ rest.head?, isBlank b = false := by
  induction text with
  | nil => exact ⟨[], [], .nil, rfl, fun b hb => nomatch hb⟩
  | cons b text ih =>
    by_cases hb : isBlank b = true
    · obtain ⟨blanks, rest, hblanks, rfl, hrest⟩ := ih
      refine ⟨b :: blanks, rest, ?_, rfl, hrest⟩
      intro c hc
      rcases List.mem_cons.1 hc with rfl | hc
      · exact isBlank_iff.1 hb
      · exact hblanks c hc
    · refine ⟨[], b :: text, .nil, rfl, fun c hc => ?_⟩
      rw [List.head?_cons, Option.mem_some] at hc
      rw [← hc]
      exact Bool.eq_false_iff.2 hb

/-- The bytes that may stand behind a number or a word. -/
def IsDelimiter (b : UInt8) : Prop := isBlank b = true ∨ b = 0x2C ∨ b = 0x5D ∨ b = 0x7D

/-- A text that starts with such a byte. -/
def Delimited (text : Bytes) : Prop := ∃ b rest, IsDelimiter b ∧ text = b :: rest

theorem Delimited.cons {b : UInt8} (h : IsDelimiter b) (rest : Bytes) : Delimited (b :: rest) :=
  ⟨b, rest, h, rfl⟩

theorem Delimited.append {blanks text : Bytes} (hblanks : Blanks blanks) (h : Delimited text) :
    Delimited (blanks ++ text) := by
  cases blanks with
  | nil => exact h
  | cons b blanks => exact .cons (Or.inl (hblanks.isBlank List.mem_cons_self)) _

theorem IsDelimiter.cases {b : UInt8} (h : IsDelimiter b) :
    b = 0x20 ∨ b = 0x09 ∨ b = 0x0A ∨ b = 0x0D ∨ b = 0x2C ∨ b = 0x5D ∨ b = 0x7D := by
  rw [IsDelimiter, isBlank_iff, or_assoc, or_assoc, or_assoc] at h
  exact h

/-! ## Words -/

theorem scan?_word {tail : Bytes} (hne : tail ≠ []) (text rest : Bytes) :
    scan? Word.feed tail text = some ((), rest) ↔ text = tail ++ rest := by
  induction tail generalizing text with
  | nil => exact absurd rfl hne
  | cons c tail ih =>
    cases text with
    | nil => simp [scan?]
    | cons b text =>
      by_cases hb : b = c
      · subst hb
        cases tail with
        | nil => simp [scan?, Word.feed, eq_comm]
        | cons d tail =>
          rw [scan?_of_more (t := d :: tail) (by simp [Word.feed]), ih (List.cons_ne_nil _ _)]
          simp
      · cases tail <;> simp [scan?, Word.feed, hb]

/-! ## Strings that are skipped -/

namespace Quoted

theorem escaped?_eq_some_iff {b c : UInt8} : escaped? b = some c ↔ (b, c) ∈ escapes := by
  simp only [escapes, List.mem_cons, Prod.mk.injEq, List.not_mem_nil, or_false]
  constructor
  · intro h
    unfold escaped? at h
    split at h
    · grind
    · split at h <;> grind
  · intro h
    obtain ⟨rfl, rfl⟩ | ⟨rfl, rfl⟩ | ⟨rfl, rfl⟩ | ⟨rfl, rfl⟩ | ⟨rfl, rfl⟩ | ⟨rfl, rfl⟩ | ⟨rfl, rfl⟩ |
      ⟨rfl, rfl⟩ := h <;> rfl

theorem isSome_hexNumber?_iff {digits : Bytes} :
    (hexNumber? digits).isSome = true ↔ ∀ b ∈ digits, (Ascii.hexValue? b).isSome = true := by
  rw [hexNumber?, Option.isSome_map]
  induction digits with
  | nil => simp
  | cons b digits ih =>
    rw [List.mapM_cons, List.forall_mem_cons, ← ih]
    cases Ascii.hexValue? b with
    | none => simp
    | some d =>
      cases digits.mapM Ascii.hexValue? with
      | none => simp
      | some ds => simp

/-- No escape of one letter has the letter of a code. -/
theorem ne_of_mem_escapes {b c : UInt8} (h : (b, c) ∈ escapes) : b ≠ 0x75 := by
  rintro rfl
  rw [← escaped?_eq_some_iff] at h
  cases h

/-- The machine reads the four digits of a code one by one. -/
theorem scan?_skipped_code (a b c d : UInt8) (rest : Bytes) :
    scan? (flip Skipped.feed) (.hex []) (a :: b :: c :: d :: rest) =
      if (hexNumber? [a, b, c, d]).isSome then scan? (flip Skipped.feed) .plain rest
      else none := by
  have hreverse : (hexNumber? [d, c, b, a]).isSome = (hexNumber? [a, b, c, d]).isSome := by
    show (hexNumber? [a, b, c, d].reverse).isSome = _
    rw [Bool.eq_iff_iff, isSome_hexNumber?_iff, isSome_hexNumber?_iff]
    simp only [List.mem_reverse]
  rw [scan?_of_more (t := .hex [a]) rfl, scan?_of_more (t := .hex [b, a]) rfl,
    scan?_of_more (t := .hex [c, b, a]) rfl, ← hreverse]
  have hlast : flip Skipped.feed (.hex [c, b, a]) d =
      if (hexNumber? [d, c, b, a]).isSome then .more .plain
      else .fail .invalidEscape .past := rfl
  rw [scan?, hlast]
  cases (hexNumber? [d, c, b, a]).isSome <;> rfl

theorem flip_feed_plain {b : UInt8} (hb : IsPlain b) :
    flip Skipped.feed .plain b = .more .plain := by
  obtain ⟨hquote, hbackslash, hcontrol⟩ := hb
  have hlow : ¬ b < 0x20 := UInt8.not_lt.2 hcontrol
  simp [flip, Skipped.feed, hquote, hbackslash, hlow]

theorem flip_feed_escape {b c : UInt8} (hb : (b, c) ∈ escapes) :
    flip Skipped.feed .escape b = .more .plain := by
  simp [flip, Skipped.feed, ne_of_mem_escapes hb, escaped?_eq_some_iff.2 hb]

theorem scan?_of_isEscape {escape : Bytes} (h : IsEscape escape) (rest : Bytes) :
    scan? (flip Skipped.feed) .escape (escape ++ rest) = scan? (flip Skipped.feed) .plain rest := by
  cases h with
  | letter hb => exact scan?_of_more (flip_feed_escape hb) rest
  | code hn =>
    obtain ⟨a, b, c, d, rfl⟩ := List.length_eq_four.1 hn.length
    rw [List.cons_append, scan?_of_more (t := .hex []) rfl]
    show scan? _ _ (a :: b :: c :: d :: rest) = _
    rw [scan?_skipped_code, hn.value, Option.isSome_some, if_pos rfl]

/-- What may stand in a string is skipped up to the quote that ends it. -/
theorem scan?_of_isQuoted {body : Bytes} (h : IsQuoted body) (rest : Bytes) :
    scan? (flip Skipped.feed) .plain (body ++ 0x22 :: rest) = some ((), rest) := by
  induction h with
  | nil => rfl
  | plain hb _ ih => rw [List.cons_append, scan?_of_more (flip_feed_plain hb), ih]
  | escape he _ ih =>
    rw [List.cons_append, List.append_assoc, scan?_of_more (t := .escape) rfl,
      scan?_of_isEscape he, ih]

theorem exists_code_of_scan?_skipped {text : Bytes} {x : Unit × Bytes}
    (h : scan? (flip Skipped.feed) (.hex []) text = some x) :
    ∃ digits n more, IsCode digits n ∧ text = digits ++ more ∧
      scan? (flip Skipped.feed) .plain more = some x := by
  match text with
  | [] | [_] | [_, _] | [_, _, _] => cases h
  | a :: b :: c :: d :: more =>
    rw [scan?_skipped_code] at h
    cases hvalue : hexNumber? [a, b, c, d] with
    | none =>
      rw [hvalue] at h
      cases h
    | some n =>
      rw [hvalue, Option.isSome_some, if_pos rfl] at h
      exact ⟨[a, b, c, d], n, more, ⟨rfl, hvalue⟩, rfl, h⟩

theorem exists_isEscape {text : Bytes} {x : Unit × Bytes}
    (h : scan? (flip Skipped.feed) .escape text = some x) :
    ∃ escape more, IsEscape escape ∧ text = escape ++ more ∧
      scan? (flip Skipped.feed) .plain more = some x := by
  cases text with
  | nil => cases h
  | cons b text =>
    by_cases hcode : b = 0x75
    · subst hcode
      rw [scan?_of_more (t := .hex []) rfl] at h
      obtain ⟨digits, n, more, hn, rfl, hmore⟩ := exists_code_of_scan?_skipped h
      exact ⟨_, more, .code hn, rfl, hmore⟩
    · cases hc : escaped? b with
      | none =>
        rw [scan?, flip, Skipped.feed, if_neg hcode, hc] at h
        cases h
      | some c =>
        have hb : (b, c) ∈ escapes := escaped?_eq_some_iff.1 hc
        rw [scan?_of_more (flip_feed_escape hb)] at h
        exact ⟨[b], text, .letter hb, rfl, h⟩

/-- What has been skipped as a string is one. -/
theorem exists_isQuoted {text rest : Bytes}
    (h : scan? (flip Skipped.feed) .plain text = some ((), rest)) :
    ∃ body, IsQuoted body ∧ text = body ++ 0x22 :: rest := by
  induction hn : text.length using Nat.strongRecOn generalizing text with
  | ind n ih =>
    subst hn
    cases text with
    | nil => cases h
    | cons b text =>
      by_cases hquote : b = 0x22
      · subst hquote
        have hend : flip Skipped.feed .plain 0x22 = .last () := rfl
        rw [scan?_of_last hend, Option.some.injEq, Prod.mk.injEq] at h
        exact ⟨[], .nil, by rw [h.2]; rfl⟩
      · by_cases hbackslash : b = 0x5C
        · subst hbackslash
          rw [scan?_of_more (t := .escape) rfl] at h
          obtain ⟨escape, more, he, rfl, hmore⟩ := exists_isEscape h
          have hshorter : more.length < (0x5C :: (escape ++ more)).length := by
            simp only [List.length_append, List.length_cons]
            omega
          obtain ⟨body, hbody, rfl⟩ := ih more.length hshorter hmore rfl
          exact ⟨_, .escape he hbody, by simp⟩
        · by_cases hcontrol : b < 0x20
          · rw [scan?, flip, Skipped.feed, if_neg hquote, if_neg hbackslash, if_pos hcontrol] at h
            cases h
          · have hplain : IsPlain b := ⟨hquote, hbackslash, UInt8.not_lt.1 hcontrol⟩
            rw [scan?_of_more (flip_feed_plain hplain)] at h
            obtain ⟨body, hbody, rfl⟩ := ih text.length (by simp) h rfl
            exact ⟨b :: body, .plain hplain hbody, rfl⟩

/-! ## Strings that are read -/

theorem isFirst_iff {n : Nat} : isFirst n = true ↔ IsLeading n := by
  simp [isFirst, IsLeading]

theorem isSecond_iff {n : Nat} : isSecond n = true ↔ IsTrailing n := by
  simp [isSecond, IsTrailing]

/-- Where a key stands behind a code, perhaps the second of a pair of surrogates. -/
inductive Coded (read : Bytes) (n : Nat) : Option Nat → Partial → Prop where
  | alone (hleading : ¬ IsLeading n) (htrailing : ¬ IsTrailing n) :
      Coded read n none ⟨(utf8 n).reverse ++ read, .plain⟩
  | first (hleading : IsLeading n) : Coded read n none ⟨read, .paired n⟩
  | second {m : Nat} (htrailing : IsTrailing n) :
      Coded read n (some m)
        ⟨(utf8 (0x10000 + 0x400 * (m - 0xD800) + (n - 0xDC00))).reverse ++ read, .plain⟩

theorem not_isTrailing_of_isLeading {n : Nat} (h : IsLeading n) : ¬ IsTrailing n := by
  rw [IsLeading] at h
  rw [IsTrailing]
  omega

theorem push_eq (read : Bytes) (phase : Phase) (c : Nat) :
    Partial.push ⟨read, phase⟩ c = ⟨(utf8 c).reverse ++ read, .plain⟩ := rfl

/-- The last digit of a code ends nothing but the code. -/
theorem endHex_cases (p : Partial) (first : Option Nat) (digits : Bytes) :
    (∃ q, p.endHex first digits = .more q) ∨
      ∃ cause place, p.endHex first digits = .fail cause place := by
  unfold Partial.endHex
  split
  · exact Or.inr ⟨_, _, rfl⟩
  · split
    · exact Or.inr ⟨_, _, rfl⟩
    · split <;> exact Or.inl ⟨_, rfl⟩
  · split
    · exact Or.inl ⟨_, rfl⟩
    · exact Or.inr ⟨_, _, rfl⟩

theorem endHex_eq_more_iff {read digits : Bytes} {n : Nat} (hn : IsCode digits n)
    {phase : Phase} {first : Option Nat} {p : Partial} :
    Partial.endHex ⟨read, phase⟩ first digits = .more p ↔ Coded read n first p := by
  rw [Partial.endHex.eq_def, hn.value]
  simp only [push_eq]
  constructor
  · intro h
    cases first with
    | none =>
      dsimp only at h
      split at h
      · cases h
      · rename_i htrailing
        rw [isSecond_iff] at htrailing
        split at h
        · rename_i hleading
          cases h
          exact .first (isFirst_iff.1 hleading)
        · rename_i hleading
          cases h
          exact .alone (fun h => hleading (isFirst_iff.2 h)) htrailing
    | some m =>
      dsimp only at h
      split at h
      · rename_i htrailing
        obtain rfl := Feed.more.inj h
        exact .second (isSecond_iff.1 htrailing)
      · cases h
  · intro h
    cases h with
    | alone hleading htrailing =>
      dsimp only
      rw [if_neg (fun h => htrailing (isSecond_iff.1 h)),
        if_neg (fun h => hleading (isFirst_iff.1 h))]
    | first hleading =>
      dsimp only
      rw [if_neg (fun h => not_isTrailing_of_isLeading hleading (isSecond_iff.1 h)),
        if_pos (isFirst_iff.2 hleading)]
    | second htrailing =>
      dsimp only
      rw [if_pos (isSecond_iff.2 htrailing)]

/-- A code is read to its end. -/
theorem scan?_of_coded {read digits : Bytes} {n : Nat} {first : Option Nat} {p : Partial}
    (hn : IsCode digits n) (h : Coded read n first p) (rest : Bytes) :
    scan? Partial.feed ⟨read, .hex first []⟩ (digits ++ rest) = scan? Partial.feed p rest := by
  obtain ⟨a, b, c, d, rfl⟩ := List.length_eq_four.1 hn.length
  simp only [List.cons_append, List.nil_append]
  rw [scan?_of_more (t := ⟨read, .hex first [a]⟩) rfl,
    scan?_of_more (t := ⟨read, .hex first [b, a]⟩) rfl,
    scan?_of_more (t := ⟨read, .hex first [c, b, a]⟩) rfl,
    scan?_of_more (show Partial.feed ⟨read, .hex first [c, b, a]⟩ d = .more p from
      (endHex_eq_more_iff hn).2 h)]

theorem exists_coded {read text : Bytes} {first : Option Nat} {x : Bytes × Bytes}
    (h : scan? Partial.feed ⟨read, .hex first []⟩ text = some x) :
    ∃ digits n more p, IsCode digits n ∧ Coded read n first p ∧ text = digits ++ more ∧
      scan? Partial.feed p more = some x := by
  match text with
  | [] | [_] | [_, _] | [_, _, _] => cases h
  | a :: b :: c :: d :: more =>
    rw [scan?_of_more (t := ⟨read, .hex first [a]⟩) rfl,
      scan?_of_more (t := ⟨read, .hex first [b, a]⟩) rfl,
      scan?_of_more (t := ⟨read, .hex first [c, b, a]⟩) rfl, scan?] at h
    have hlast : Partial.feed ⟨read, .hex first [c, b, a]⟩ d =
        Partial.endHex ⟨read, .hex first [c, b, a]⟩ first [a, b, c, d] := rfl
    rw [hlast] at h
    cases hvalue : hexNumber? [a, b, c, d] with
    | none =>
      rw [Partial.endHex.eq_def, hvalue] at h
      cases h
    | some n =>
      have hn : IsCode [a, b, c, d] n := ⟨rfl, hvalue⟩
      rcases endHex_cases ⟨read, .hex first [c, b, a]⟩ first [a, b, c, d] with
        ⟨p, hend⟩ | ⟨cause, place, hend⟩
      · rw [hend] at h
        exact ⟨_, n, more, p, hn, (endHex_eq_more_iff hn).1 hend, rfl, h⟩
      · rw [hend] at h
        cases h

/-- Behind the code of the first of a pair there is another code. -/
theorem exists_of_paired {read text : Bytes} {m : Nat} {x : Bytes × Bytes}
    (h : scan? Partial.feed ⟨read, .paired m⟩ text = some x) :
    ∃ more, text = 0x5C :: 0x75 :: more ∧
      scan? Partial.feed ⟨read, .hex (some m) []⟩ more = some x := by
  match text with
  | [] => cases h
  | b :: text =>
    by_cases hb : b = 0x5C
    · subst hb
      rw [scan?_of_more (t := ⟨read, .pairedEscape m⟩) rfl] at h
      match text with
      | [] => cases h
      | c :: text =>
        by_cases hc : c = 0x75
        · subst hc
          rw [scan?_of_more (t := ⟨read, .hex (some m) []⟩) rfl] at h
          exact ⟨text, rfl, h⟩
        · rw [scan?, Partial.feed] at h
          dsimp only at h
          rw [if_neg hc] at h
          cases h
    · rw [scan?, Partial.feed] at h
      dsimp only at h
      rw [if_neg hb] at h
      cases h

theorem feed_plain {read : Bytes} {b : UInt8} (hb : IsPlain b) :
    Partial.feed ⟨read, .plain⟩ b = .more ⟨b :: read, .plain⟩ := by
  obtain ⟨hquote, hbackslash, hcontrol⟩ := hb
  have hlow : ¬ b < 0x20 := UInt8.not_lt.2 hcontrol
  simp [Partial.feed, hquote, hbackslash, hlow]

theorem feed_escape {read : Bytes} {b c : UInt8} (hb : (b, c) ∈ escapes) :
    Partial.feed ⟨read, .escape⟩ b = .more ⟨c :: read, .plain⟩ := by
  simp [Partial.feed, ne_of_mem_escapes hb, escaped?_eq_some_iff.2 hb]

theorem scan?_of_standsFor {escape meant : Bytes} (h : StandsFor escape meant)
    (read rest : Bytes) :
    scan? Partial.feed ⟨read, .escape⟩ (escape ++ rest) =
      scan? Partial.feed ⟨meant.reverse ++ read, .plain⟩ rest := by
  cases h with
  | letter hb => exact scan?_of_more (feed_escape hb) rest
  | code hn hleading htrailing =>
    rw [List.cons_append, scan?_of_more (t := ⟨read, .hex none []⟩) rfl,
      scan?_of_coded hn (.alone hleading htrailing)]
  | pair hm hleading hn htrailing =>
    rw [List.cons_append, List.append_assoc, scan?_of_more (t := ⟨read, .hex none []⟩) rfl,
      scan?_of_coded hm (.first hleading), List.cons_append, List.cons_append,
      scan?_of_more (t := ⟨read, .pairedEscape _⟩) rfl,
      scan?_of_more (t := ⟨read, .hex (some _) []⟩) rfl, scan?_of_coded hn (.second htrailing)]

theorem exists_standsFor {read text : Bytes} {x : Bytes × Bytes}
    (h : scan? Partial.feed ⟨read, .escape⟩ text = some x) :
    ∃ escape meant more, StandsFor escape meant ∧ text = escape ++ more ∧
      scan? Partial.feed ⟨meant.reverse ++ read, .plain⟩ more = some x := by
  cases text with
  | nil => cases h
  | cons b text =>
    by_cases hcode : b = 0x75
    · subst hcode
      rw [scan?_of_more (t := ⟨read, .hex none []⟩) rfl] at h
      obtain ⟨digits, n, more, p, hn, hp, rfl, hmore⟩ := exists_coded h
      cases hp with
      | alone hleading htrailing => exact ⟨_, _, more, .code hn hleading htrailing, rfl, hmore⟩
      | first hleading =>
        obtain ⟨others, rfl, hothers⟩ := exists_of_paired hmore
        obtain ⟨digits', n', more, p, hn', hp, rfl, hmore⟩ := exists_coded hothers
        cases hp with
        | second htrailing =>
          exact ⟨_, _, more, .pair hn hleading hn' htrailing, by simp, hmore⟩
    · cases hc : escaped? b with
      | none =>
        rw [scan?, Partial.feed] at h
        dsimp only at h
        rw [if_neg hcode, hc] at h
        cases h
      | some c =>
        have hb : (b, c) ∈ escapes := escaped?_eq_some_iff.1 hc
        rw [scan?_of_more (feed_escape hb)] at h
        exact ⟨[b], [c], text, .letter hb, rfl, h⟩

/-- A string is read as what it spells. -/
theorem scan?_of_spells {raw text : Bytes} (h : Spells raw text) (read rest : Bytes) :
    scan? Partial.feed ⟨read, .plain⟩ (raw ++ 0x22 :: rest) =
      some (read.reverse ++ text, rest) := by
  induction h generalizing read with
  | nil =>
    rw [List.append_nil]
    rfl
  | plain hb _ ih =>
    rw [List.cons_append, scan?_of_more (feed_plain hb), ih, List.reverse_cons, List.append_assoc]
    rfl
  | escape he _ ih =>
    rw [List.cons_append, List.append_assoc, scan?_of_more (t := ⟨read, .escape⟩) rfl,
      scan?_of_standsFor he, ih, List.reverse_append, List.reverse_reverse, List.append_assoc]

/-- What has been read as a string spells what was read. -/
theorem exists_spells {read text name rest : Bytes}
    (h : scan? Partial.feed ⟨read, .plain⟩ text = some (name, rest)) :
    ∃ raw spelt, Spells raw spelt ∧ text = raw ++ 0x22 :: rest ∧ name = read.reverse ++ spelt := by
  induction hn : text.length using Nat.strongRecOn generalizing text read with
  | ind n ih =>
    subst hn
    cases text with
    | nil => cases h
    | cons b text =>
      by_cases hquote : b = 0x22
      · subst hquote
        have hend : Partial.feed ⟨read, .plain⟩ 0x22 = .last read.reverse := rfl
        rw [scan?_of_last hend, Option.some.injEq, Prod.mk.injEq] at h
        exact ⟨[], [], .nil, by rw [h.2]; rfl, by rw [h.1, List.append_nil]⟩
      · by_cases hbackslash : b = 0x5C
        · subst hbackslash
          rw [scan?_of_more (t := ⟨read, .escape⟩) rfl] at h
          obtain ⟨escape, meant, more, he, rfl, hmore⟩ := exists_standsFor h
          have hshorter : more.length < (0x5C :: (escape ++ more)).length := by
            simp only [List.length_append, List.length_cons]
            omega
          obtain ⟨raw, spelt, hraw, rfl, rfl⟩ := ih more.length hshorter hmore rfl
          exact ⟨_, _, .escape he hraw, by simp, by simp⟩
        · by_cases hcontrol : b < 0x20
          · rw [scan?, Partial.feed] at h
            dsimp only at h
            rw [if_neg hquote, if_neg hbackslash, if_pos hcontrol] at h
            cases h
          · have hplain : IsPlain b := ⟨hquote, hbackslash, UInt8.not_lt.1 hcontrol⟩
            rw [scan?_of_more (feed_plain hplain)] at h
            obtain ⟨raw, spelt, hraw, rfl, rfl⟩ := ih text.length (by simp) h rfl
            exact ⟨b :: raw, b :: spelt, .plain hplain hraw, rfl, by simp⟩

end Quoted

end WebSocketEcho.Report
