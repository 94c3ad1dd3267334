import Mathlib.Tactic.IntervalCases
import WebSocketEcho.Proofs.Address.Grammar

/-!
# The numerals of an address

Octets, groups and ports are read by taking all the digits at the front (`spanDigits`).  A numeral is
therefore read as what it is when no digit of its base follows it, and what has been read is a numeral
at the front of the text.  Both are stated for each kind of numeral, as `read…_append` and
`exists_…_of_read…`.

The last section is about the numerals that are printed, which are those of the standard library.
-/

namespace WebSocketEcho.Address

/-! ## Digits -/

/-- The digits of a text are found by their places among the characters. -/
theorem digitValue?_eq_some_iff {base : Nat} (hbase : base ≤ 16) {c : Char} {d : Nat} :
    digitValue? base c = some d ↔ IsDigit base c d := by
  constructor
  · intro h
    have hle : ∀ {a b : Char}, a ≤ b → a.toNat ≤ b.toNat := fun h => UInt32.le_iff_toNat_le.1 h
    have hnumber : ∀ {k : Nat}, c.toNat = k → c = Char.ofNat k := by
      rintro k rfl
      exact (Char.ofNat_toNat c).symm
    unfold digitValue? at h
    dsimp only at h
    rw [Option.ite_none_right_eq_some, Option.some_inj] at h
    obtain ⟨hlt, hd⟩ := h
    rw [hd] at hlt
    split at hd
    · rename_i hc
      have hlow : 48 ≤ c.toNat := hle hc.1
      have hhigh : c.toNat ≤ 57 := hle hc.2
      have hall : ∀ k < 10, Char.ofNat (48 + k) = k.digitChar := by decide
      refine ⟨hlt, Or.inl ?_⟩
      rw [hnumber (show c.toNat = 48 + d by omega), hall d (by omega)]
    · split at hd
      · rename_i hc
        have hlow : 97 ≤ c.toNat := hle hc.1
        have hall : ∀ k < 16, 10 ≤ k → Char.ofNat (87 + k) = k.digitChar := by decide
        refine ⟨hlt, Or.inl ?_⟩
        rw [hnumber (show c.toNat = 87 + d by omega), hall d (by omega) (by omega)]
      · split at hd
        · rename_i hc
          have hlow : 65 ≤ c.toNat := hle hc.1
          have hall : ∀ k < 16, 10 ≤ k → Char.ofNat (55 + k) = k.digitChar.toUpper := by decide
          refine ⟨hlt, Or.inr ?_⟩
          rw [hnumber (show c.toNat = 55 + d by omega), hall d (by omega) (by omega)]
        · omega
  · rintro ⟨hlt, hc⟩
    have hlow : d < 16 := Nat.lt_of_lt_of_le hlt hbase
    unfold digitValue?
    rcases hc with rfl | rfl
    · interval_cases d <;> simp [Nat.digitChar, hlt]
    · interval_cases d <;> simp [Nat.digitChar, hlt]

/-- A text that does not go on with a digit. -/
def DigitFree (base : Nat) (rest : List Char) : Prop := ∀ c ∈ rest.head?, digitValue? base c = none

theorem digitFree_nil (base : Nat) : DigitFree base [] := by
  intro c hc
  cases hc

theorem digitFree_cons {base : Nat} {c : Char} (h : digitValue? base c = none) (rest : List Char) :
    DigitFree base (c :: rest) := by
  rintro d ⟨⟩
  exact h

section Span

variable {base : Nat} {text rest cs : List Char} {ds : List Nat}

theorem spanDigits_append (hbase : base ≤ 16) (h : List.Forall₂ (IsDigit base) text ds)
    (hrest : DigitFree base rest) : spanDigits base (text ++ rest) = (ds, rest) := by
  induction h with
  | nil =>
    cases rest with
    | nil => rfl
    | cons c rest => simp [spanDigits, hrest c rfl]
  | cons hd _ ih => simp [spanDigits, (digitValue?_eq_some_iff hbase).2 hd, ih]

theorem exists_digits_of_spanDigits (hbase : base ≤ 16) (h : spanDigits base cs = (ds, rest)) :
    ∃ text, List.Forall₂ (IsDigit base) text ds ∧ cs = text ++ rest := by
  induction cs generalizing ds with
  | nil =>
    cases h
    exact ⟨[], .nil, rfl⟩
  | cons c cs ih =>
    rw [spanDigits] at h
    split at h
    · cases h
      exact ⟨[], .nil, rfl⟩
    · rename_i d hd
      cases h
      obtain ⟨text, htext, hcs⟩ :=
        ih (show spanDigits base cs = ((spanDigits base cs).1, (spanDigits base cs).2) from rfl)
      refine ⟨c :: text, .cons ((digitValue?_eq_some_iff hbase).1 hd) htext, ?_⟩
      rw [List.cons_append, ← hcs]

theorem isEmpty_digits (h : List.Forall₂ (IsDigit base) text ds) : ds.isEmpty = text.isEmpty := by
  cases h <;> rfl

theorem isEmpty_digits_eq_false (h : List.Forall₂ (IsDigit base) text ds) (hne : text ≠ []) :
    ds.isEmpty = false := by
  rw [isEmpty_digits h, List.isEmpty_eq_false_iff.2 hne]

/-- More digits take a number between two powers of the base. -/
theorem foldl_digits_bounds (h : ∀ d ∈ ds, d < base) (value : Nat) :
    base ^ ds.length * value ≤ ds.foldl (fun value d => base * value + d) value ∧
      ds.foldl (fun value d => base * value + d) value < base ^ ds.length * (value + 1) := by
  induction ds generalizing value with
  | nil => simp
  | cons d ds ih =>
    have hd : d < base := h d List.mem_cons_self
    obtain ⟨hlow, hhigh⟩ := ih (fun e he => h e (List.mem_cons_of_mem d he)) (base * value + d)
    rw [List.foldl_cons, List.length_cons, Nat.pow_succ, Nat.mul_assoc, Nat.mul_assoc]
    refine ⟨Nat.le_trans ?_ hlow, Nat.lt_of_lt_of_le hhigh ?_⟩
    · exact Nat.mul_le_mul_left _ (Nat.le_add_right _ _)
    · apply Nat.mul_le_mul_left
      rw [Nat.mul_add, Nat.mul_one]
      omega

theorem lt_of_mem_digits (h : List.Forall₂ (IsDigit base) text ds) : ∀ d ∈ ds, d < base := by
  induction h with
  | nil => simp
  | cons hd _ ih =>
    intro d hmem
    rcases List.mem_cons.1 hmem with rfl | hmem
    · exact hd.1
    · exact ih d hmem

theorem not_mem_of_digits (hbase : base ≤ 16) (h : List.Forall₂ (IsDigit base) text ds) {c : Char}
    (hc : digitValue? base c = none) : c ∉ text := by
  induction h with
  | nil => simp
  | cons hd _ ih =>
    rw [← digitValue?_eq_some_iff hbase] at hd
    rw [List.mem_cons, not_or]
    refine ⟨?_, ih⟩
    rintro rfl
    rw [hc] at hd
    cases hd

/-- A zero is written as a zero. -/
theorem isDigit_zero_iff {c : Char} (hbase : 0 < base) : IsDigit base c 0 ↔ c = '0' := by
  constructor
  · rintro ⟨_, hc | hc⟩ <;> exact hc
  · rintro rfl
    exact ⟨hbase, Or.inl rfl⟩

end Span

/-! ## Octets -/

section Octet

variable {text rest cs : List Char} {ds : List Nat} {o : UInt8}

/-- The first digit has the value zero if it is the character zero. -/
theorem head?_digits_iff (h : List.Forall₂ (IsDigit 10) text ds) :
    ds.head? = some 0 ↔ text.head? = some '0' := by
  cases h with
  | nil => simp
  | cons hd _ =>
    rename_i c d _ _
    rw [List.head?_cons, List.head?_cons, Option.some_inj, Option.some_inj]
    constructor
    · rintro rfl
      exact (isDigit_zero_iff (by decide)).1 hd
    · rintro rfl
      have hzero : IsDigit 10 '0' 0 := (isDigit_zero_iff (by decide)).2 rfl
      rw [← digitValue?_eq_some_iff (by decide)] at hd hzero
      rw [hd] at hzero
      exact Option.some.inj hzero

/-- An octet has at most three digits. -/
theorem length_le_three (h : List.Forall₂ (IsDigit 10) text ds) (hhead : ds.head? ≠ some 0)
    (hlt : ofDigits 10 ds < 256) : ds.length ≤ 3 := by
  cases ds with
  | nil => simp
  | cons d ds =>
    have hpos : 1 ≤ d := Nat.one_le_iff_ne_zero.2 fun hd => hhead (by rw [hd]; rfl)
    have hall : ∀ e ∈ ds, e < 10 := fun e he => lt_of_mem_digits h e (List.mem_cons_of_mem d he)
    have hlow : 10 ^ ds.length * d ≤ ofDigits 10 (d :: ds) := by
      have := (foldl_digits_bounds hall (10 * 0 + d)).1
      simpa [ofDigits] using this
    by_contra hlong
    rw [List.length_cons] at hlong
    have hpow : 10 ^ 3 ≤ 10 ^ ds.length := Nat.pow_le_pow_right (by decide) (by omega)
    have hprod : 10 ^ ds.length * 1 ≤ 10 ^ ds.length * d := Nat.mul_le_mul_left _ hpos
    omega

theorem eq_singleton_of_head? {c : Char} (h : text.head? = some c) (hone : text.length ≤ 1) :
    text = [c] := by
  cases text with
  | nil => cases h
  | cons d rest =>
    cases h
    rw [List.eq_nil_of_length_eq_zero (show rest.length = 0 by simpa using hone)]

theorem readOctet_append (h : IsOctet text o) (hrest : DigitFree 10 rest) :
    readOctet (text ++ rest) = some (o, rest) := by
  obtain ⟨⟨hne, ds, hds, hvalue⟩, hnoZero⟩ := h
  have hlength := hds.length_eq
  have hlt : ofDigits 10 ds < 256 := hvalue ▸ o.toNat_lt
  have hlead : ds.length ≤ 3 ∧ (decide (1 < ds.length) && ds.head? == some 0) = false := by
    by_cases hzero : ds.head? = some 0
    · rw [hnoZero ((head?_digits_iff hds).1 hzero)] at hlength
      simp [← hlength]
    · exact ⟨length_le_three hds hzero hlt, by simp [hzero]⟩
  rw [readOctet, spanDigits_append (by decide) hds hrest]
  dsimp only
  rw [isEmpty_digits_eq_false hds hne, hlead.2, decide_eq_false (Nat.not_lt.2 hlead.1),
    Bool.or_self, Bool.or_self, if_neg Bool.false_ne_true, if_pos hlt, hvalue, UInt8.ofNat_toNat]

theorem readOctet_of_digitFree (h : DigitFree 10 cs) : readOctet cs = none := by
  have hspan : spanDigits 10 cs = ([], cs) := spanDigits_append (by decide) .nil h
  rw [readOctet, hspan]
  rfl

theorem exists_octet_of_readOctet (h : readOctet cs = some (o, rest)) :
    ∃ text, IsOctet text o ∧ cs = text ++ rest := by
  unfold readOctet at h
  cases hspan : spanDigits 10 cs with
  | mk ds left =>
    obtain ⟨text, htext, rfl⟩ := exists_digits_of_spanDigits (by decide) hspan
    rw [hspan] at h
    dsimp only at h
    split at h
    · cases h
    · rename_i hform
      split at h
      · rename_i hlt
        cases h
        simp only [Bool.or_eq_true, Bool.and_eq_true, decide_eq_true_eq, beq_iff_eq, not_or,
          isEmpty_digits htext, List.isEmpty_iff] at hform
        refine ⟨text, ⟨⟨hform.1.1, ds, htext, (UInt8.toNat_ofNat_of_lt' hlt).symm⟩, ?_⟩, rfl⟩
        intro hzero
        have hone : text.length ≤ 1 := by
          rw [htext.length_eq]
          by_contra hlong
          exact hform.2 ⟨by omega, (head?_digits_iff htext).2 hzero⟩
        exact eq_singleton_of_head? hzero hone
      · cases h

end Octet

/-! ## Groups and ports -/

section Group

variable {text rest cs : List Char} {g port : UInt16}

theorem readGroup_append (h : IsGroup text g) (hrest : DigitFree 16 rest) :
    readGroup (text ++ rest) = some (g, rest) := by
  obtain ⟨⟨hne, ds, hds, hvalue⟩, hshort⟩ := h
  have hlength := hds.length_eq
  rw [readGroup, spanDigits_append (by decide) hds hrest]
  dsimp only
  rw [isEmpty_digits_eq_false hds hne, decide_eq_false (by omega), Bool.or_self,
    if_neg Bool.false_ne_true, hvalue, UInt16.ofNat_toNat]

theorem readGroup_of_digitFree (h : DigitFree 16 cs) : readGroup cs = none := by
  have hspan : spanDigits 16 cs = ([], cs) := spanDigits_append (by decide) .nil h
  rw [readGroup, hspan]
  rfl

theorem exists_group_of_readGroup (h : readGroup cs = some (g, rest)) :
    ∃ text, IsGroup text g ∧ cs = text ++ rest := by
  unfold readGroup at h
  cases hspan : spanDigits 16 cs with
  | mk ds left =>
    obtain ⟨text, htext, rfl⟩ := exists_digits_of_spanDigits (by decide) hspan
    have hlength := htext.length_eq
    rw [hspan] at h
    dsimp only at h
    split at h
    · cases h
    · rename_i hform
      cases h
      simp only [Bool.or_eq_true, decide_eq_true_eq, not_or, isEmpty_digits htext,
        List.isEmpty_iff] at hform
      have hlt : ofDigits 16 ds < 65536 := by
        have hbound := (foldl_digits_bounds (lt_of_mem_digits htext) 0).2
        have hpow : 16 ^ ds.length ≤ 16 ^ 4 := Nat.pow_le_pow_right (by decide) (by omega)
        rw [ofDigits]
        omega
      exact ⟨text, ⟨⟨hform.1, ds, htext, (UInt16.toNat_ofNat_of_lt' hlt).symm⟩, by omega⟩, rfl⟩

theorem readPort_append (h : IsNumeral 10 text port.toNat) (hrest : DigitFree 10 rest) :
    readPort (text ++ rest) = some (port, rest) := by
  obtain ⟨hne, ds, hds, hvalue⟩ := h
  have hlt : ofDigits 10 ds < 65536 := hvalue ▸ port.toNat_lt
  rw [readPort, spanDigits_append (by decide) hds hrest]
  dsimp only
  rw [isEmpty_digits_eq_false hds hne, if_neg Bool.false_ne_true, if_pos hlt, hvalue,
    UInt16.ofNat_toNat]

end Group

/-! ## Printed numerals -/

theorem isNumeral_toDigits {base : Nat} (hone : 1 < base) (hbase : base ≤ 16) (n : Nat) :
    IsNumeral base (Nat.toDigits base n) n := by
  refine ⟨Nat.toDigits_ne_nil, ?_⟩
  induction n using Nat.strongRecOn with
  | ind n ih =>
    rw [Nat.toDigits_eq_if hone]
    split
    · rename_i hlt
      exact ⟨[n], .cons ⟨hlt, Or.inl rfl⟩ .nil, by simp [ofDigits]⟩
    · rename_i hge
      obtain ⟨ds, hds, hvalue⟩ := ih (n / base) (Nat.div_lt_self (by omega) hone)
      refine ⟨ds ++ [n % base], ?_, ?_⟩
      · exact List.rel_append hds (.cons ⟨Nat.mod_lt n (by omega), Or.inl rfl⟩ .nil)
      · rw [ofDigits] at hvalue
        rw [ofDigits, List.foldl_append, hvalue]
        exact Nat.div_add_mod n base

/-- No numeral but that of zero is printed with a zero in front. -/
theorem head?_toDigits_ne {n : Nat} (h : 0 < n) : (Nat.toDigits 10 n).head? ≠ some '0' := by
  induction n using Nat.strongRecOn with
  | ind n ih =>
    rw [Nat.toDigits_eq_if (by decide)]
    split
    · simp
      omega
    · rw [List.head?_append_of_ne_nil _ Nat.toDigits_ne_nil]
      exact ih (n / 10) (by omega) (by omega)

theorem isOctet_chars (o : UInt8) : IsOctet (Decimal.chars o.toNat) o := by
  rw [Decimal.chars_eq_toDigits]
  refine ⟨isNumeral_toDigits (by decide) (by decide) _, fun hhead => ?_⟩
  by_cases hzero : o.toNat = 0
  · rw [hzero]
    rfl
  · exact absurd hhead (head?_toDigits_ne (Nat.pos_of_ne_zero hzero))

theorem isGroup_hexChars (g : UInt16) : IsGroup (hexChars g.toNat) g where
  numeral := isNumeral_toDigits (by decide) (by decide) _
  short := (Nat.length_toDigits_le_iff (by decide) (by decide)).2 g.toNat_lt

end WebSocketEcho.Address
