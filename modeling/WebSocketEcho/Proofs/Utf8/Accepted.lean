import WebSocketEcho.Proofs.Utf8

/-!
# What the checker accepts

The checker of UTF-8 accepts the bytes of texts and nothing else (`run_eq_boundary_iff`), and it
refuses a byte as soon as no text begins with the bytes so far (`run_eq_none_iff`).  The first is
an induction that takes one character off the front (`exists_char_of_run`), with the classes of its
first byte as cases (`Lead`); for the second every state has a completion.
-/

namespace WebSocketEcho.Utf8

/-- The bytes of some text. -/
def IsText (bytes : Bytes) : Prop := ∃ t : String, t.toUTF8.data.toList = bytes

/-- Bytes that more bytes can make a text of. -/
def BeginsText (bytes : Bytes) : Prop := ∃ more, IsText (bytes ++ more)

/-! ## Bytes inside a character -/

/-- What a state inside a character waits for: the least and the greatest byte, and the state after
it. -/
def follows : State → Nat × Nat × State
  | .boundary => (0, 0, .boundary)
  | .one => (0x80, 0xBF, .boundary)
  | .two => (0x80, 0xBF, .one)
  | .three => (0x80, 0xBF, .two)
  | .afterE0 => (0xA0, 0xBF, .one)
  | .afterED => (0x80, 0x9F, .one)
  | .afterF0 => (0x90, 0xBF, .two)
  | .afterF4 => (0x80, 0x8F, .two)

theorem step_inside {s : State} (hs : s ≠ .boundary) (b : UInt8) : step s b =
    if (follows s).1 ≤ b.toNat ∧ b.toNat ≤ (follows s).2.1 then some (follows s).2.2 else none := by
  cases s with
  | boundary => exact absurd rfl hs
  | one | two | three =>
    simp only [step, isContinuation, Bool.and_eq_true, decide_eq_true_eq, UInt8.le_iff_toNat_le]
    rfl
  | afterE0 | afterED | afterF0 | afterF4 =>
    simp only [step, Bool.and_eq_true, decide_eq_true_eq, UInt8.le_iff_toNat_le]
    rfl

theorem exists_of_run_cons {s t : State} {b : UInt8} {rest : Bytes}
    (h : run s (b :: rest) = some t) : ∃ m, step s b = some m ∧ run m rest = some t := by
  rw [run] at h
  cases hm : step s b with
  | none =>
    rw [hm] at h
    cases h
  | some m =>
    rw [hm] at h
    exact ⟨m, rfl, h⟩

/-- Inside a character there is a next byte, within the bounds. -/
theorem exists_tail_of_run {s : State} (hs : s ≠ .boundary) {bytes : Bytes}
    (h : run s bytes = some .boundary) :
    ∃ k rest, bytes = UInt8.ofNat (0x80 + k) :: rest ∧ k < 0x40 ∧ (follows s).1 ≤ 0x80 + k ∧
      0x80 + k ≤ (follows s).2.1 ∧ run (follows s).2.2 rest = some .boundary := by
  have hbounds : 0x80 ≤ (follows s).1 ∧ (follows s).2.1 ≤ 0xBF := by
    cases s with
    | boundary => exact absurd rfl hs
    | one | two | three | afterE0 | afterED | afterF0 | afterF4 => decide
  cases bytes with
  | nil => exact absurd (Option.some.inj h) hs
  | cons b rest =>
    obtain ⟨m, hm, hrest⟩ := exists_of_run_cons h
    rw [step_inside hs] at hm
    split at hm
    · rename_i hb
      cases hm
      refine ⟨b.toNat - 0x80, rest, ?_, by omega, by omega, by omega, hrest⟩
      rw [Nat.add_sub_of_le (by omega), UInt8.ofNat_toNat]
    · cases hm

/-! ## Characters -/

section Characters

variable {a k l m : Nat}

theorem toNat_ofNat_char {v : Nat} (h : v < 0xD800 ∨ 0xDFFF < v ∧ v < 0x110000) :
    (Char.ofNat v).toNat = v := by
  rw [Char.ofNat, dif_pos h]
  rfl

theorem exists_char_of_one (ha : a < 0x80) : ∃ c, encodeChar c = [UInt8.ofNat a] := by
  refine ⟨Char.ofNat a, ?_⟩
  rw [encodeChar, toNat_ofNat_char (by omega), if_pos ha]

theorem exists_char_of_two (ha : 0xC2 ≤ a) (ha' : a ≤ 0xDF) (hk : k < 0x40) :
    ∃ c, encodeChar c = [UInt8.ofNat a, UInt8.ofNat (0x80 + k)] := by
  refine ⟨Char.ofNat ((a - 0xC0) * 0x40 + k), ?_⟩
  rw [encodeChar, toNat_ofNat_char (by omega), if_neg (by omega), if_pos (by omega)]
  have h₁ : 0xC0 + ((a - 0xC0) * 0x40 + k) / 0x40 = a := by omega
  have h₂ : 0x80 + ((a - 0xC0) * 0x40 + k) % 0x40 = 0x80 + k := by omega
  rw [h₁, h₂]

/-- Three bytes make a character unless the form is overlong or the number is a surrogate. -/
theorem exists_char_of_three (ha : 0xE0 ≤ a) (ha' : a ≤ 0xEF) (hk : k < 0x40) (hl : l < 0x40)
    (hlong : a = 0xE0 → 0x20 ≤ k) (hsurrogate : a = 0xED → k < 0x20) :
    ∃ c, encodeChar c =
      [UInt8.ofNat a, UInt8.ofNat (0x80 + k), UInt8.ofNat (0x80 + l)] := by
  refine ⟨Char.ofNat ((a - 0xE0) * 0x1000 + k * 0x40 + l), ?_⟩
  have hmin : 0x800 ≤ (a - 0xE0) * 0x1000 + k * 0x40 + l := by
    by_cases h : a = 0xE0
    · have := hlong h
      omega
    · omega
  have hvalid : (a - 0xE0) * 0x1000 + k * 0x40 + l < 0xD800 ∨
      0xDFFF < (a - 0xE0) * 0x1000 + k * 0x40 + l := by
    by_cases h : a = 0xED
    · have := hsurrogate h
      omega
    · omega
  rw [encodeChar, toNat_ofNat_char (by omega), if_neg (by omega), if_neg (by omega),
    if_pos (by omega)]
  have h₁ : 0xE0 + ((a - 0xE0) * 0x1000 + k * 0x40 + l) / 0x1000 = a := by omega
  have h₂ : 0x80 + ((a - 0xE0) * 0x1000 + k * 0x40 + l) / 0x40 % 0x40 = 0x80 + k := by omega
  have h₃ : 0x80 + ((a - 0xE0) * 0x1000 + k * 0x40 + l) % 0x40 = 0x80 + l := by omega
  rw [h₁, h₂, h₃]

/-- Four bytes make a character unless the form is overlong or the number is past U+10FFFF. -/
theorem exists_char_of_four (ha : 0xF0 ≤ a) (ha' : a ≤ 0xF4) (hk : k < 0x40) (hl : l < 0x40)
    (hm : m < 0x40) (hlong : a = 0xF0 → 0x10 ≤ k) (hpast : a = 0xF4 → k < 0x10) :
    ∃ c, encodeChar c =
      [UInt8.ofNat a, UInt8.ofNat (0x80 + k), UInt8.ofNat (0x80 + l), UInt8.ofNat (0x80 + m)] := by
  refine ⟨Char.ofNat ((a - 0xF0) * 0x40000 + k * 0x1000 + l * 0x40 + m), ?_⟩
  have hmin : 0x10000 ≤ (a - 0xF0) * 0x40000 + k * 0x1000 + l * 0x40 + m := by
    by_cases h : a = 0xF0
    · have := hlong h
      omega
    · omega
  have hmax : (a - 0xF0) * 0x40000 + k * 0x1000 + l * 0x40 + m < 0x110000 := by
    by_cases h : a = 0xF4
    · have := hpast h
      omega
    · omega
  rw [encodeChar, toNat_ofNat_char (by omega), if_neg (by omega), if_neg (by omega),
    if_neg (by omega)]
  have h₁ : 0xF0 + ((a - 0xF0) * 0x40000 + k * 0x1000 + l * 0x40 + m) / 0x40000 = a := by omega
  have h₂ : 0x80 + ((a - 0xF0) * 0x40000 + k * 0x1000 + l * 0x40 + m) / 0x1000 % 0x40 =
      0x80 + k := by omega
  have h₃ : 0x80 + ((a - 0xF0) * 0x40000 + k * 0x1000 + l * 0x40 + m) / 0x40 % 0x40 =
      0x80 + l := by omega
  have h₄ : 0x80 + ((a - 0xF0) * 0x40000 + k * 0x1000 + l * 0x40 + m) % 0x40 = 0x80 + m := by
    omega
  rw [h₁, h₂, h₃, h₄]

end Characters

/-! ## The first byte -/

/-- The classes of the first byte of a character, with the state after each. -/
inductive Lead (a : Nat) : State → Prop where
  | one (h : a ≤ 0x7F) : Lead a .boundary
  | two (h : 0xC2 ≤ a) (h' : a ≤ 0xDF) : Lead a .one
  | afterE0 (h : a = 0xE0) : Lead a .afterE0
  | three (h : 0xE1 ≤ a) (h' : a ≤ 0xEF) (hne : a ≠ 0xED) : Lead a .two
  | afterED (h : a = 0xED) : Lead a .afterED
  | afterF0 (h : a = 0xF0) : Lead a .afterF0
  | four (h : 0xF1 ≤ a) (h' : a ≤ 0xF3) : Lead a .three
  | afterF4 (h : a = 0xF4) : Lead a .afterF4

theorem lead_of_step {b : UInt8} {s : State} (h : step .boundary b = some s) : Lead b.toNat s := by
  rw [step_boundary] at h
  split at h
  · cases h
    exact .one (by omega)
  split at h
  · cases h
  split at h
  · cases h
    exact .two (by omega) (by omega)
  split at h
  · cases h
    exact .afterE0 (by omega)
  split at h
  · cases h
    exact .afterED (by omega)
  split at h
  · cases h
    exact .three (by omega) (by omega) (by omega)
  split at h
  · cases h
    exact .afterF0 (by omega)
  split at h
  · cases h
    exact .four (by omega) (by omega)
  split at h
  · cases h
    exact .afterF4 (by omega)
  · cases h

/-- A character comes first, and what follows it is accepted. -/
def BeginsWithChar (bytes : Bytes) : Prop :=
  ∃ c tail, bytes = encodeChar c ++ tail ∧ run .boundary tail = some .boundary

section Leads

variable {a k : Nat} {rest : Bytes}

theorem beginsWithChar_of_one (ha : a ≤ 0x7F) (hrest : run .boundary rest = some .boundary) :
    BeginsWithChar (UInt8.ofNat a :: rest) := by
  obtain ⟨c, hc⟩ := exists_char_of_one (a := a) (by omega)
  exact ⟨c, rest, by rw [hc]; rfl, hrest⟩

theorem beginsWithChar_of_two (ha : 0xC2 ≤ a) (ha' : a ≤ 0xDF)
    (hrest : run .one rest = some .boundary) : BeginsWithChar (UInt8.ofNat a :: rest) := by
  obtain ⟨k, tail, rfl, hk, _, _, htail⟩ := exists_tail_of_run (by decide) hrest
  obtain ⟨c, hc⟩ := exists_char_of_two ha ha' hk
  exact ⟨c, tail, by rw [hc]; rfl, htail⟩

/-- The second of three bytes decides whether the form is overlong or the number a surrogate. -/
theorem beginsWithChar_of_three (ha : 0xE0 ≤ a) (ha' : a ≤ 0xEF) (hk : k < 0x40)
    (hlong : a = 0xE0 → 0x20 ≤ k) (hsurrogate : a = 0xED → k < 0x20)
    (hrest : run .one rest = some .boundary) :
    BeginsWithChar (UInt8.ofNat a :: UInt8.ofNat (0x80 + k) :: rest) := by
  obtain ⟨l, tail, rfl, hl, _, _, htail⟩ := exists_tail_of_run (by decide) hrest
  obtain ⟨c, hc⟩ := exists_char_of_three ha ha' hk hl hlong hsurrogate
  exact ⟨c, tail, by rw [hc]; rfl, htail⟩

/-- The second of four bytes decides whether the form is overlong or the number past U+10FFFF. -/
theorem beginsWithChar_of_four (ha : 0xF0 ≤ a) (ha' : a ≤ 0xF4) (hk : k < 0x40)
    (hlong : a = 0xF0 → 0x10 ≤ k) (hpast : a = 0xF4 → k < 0x10)
    (hrest : run .two rest = some .boundary) :
    BeginsWithChar (UInt8.ofNat a :: UInt8.ofNat (0x80 + k) :: rest) := by
  obtain ⟨l, tail, rfl, hl, _, _, htail⟩ := exists_tail_of_run (by decide) hrest
  obtain ⟨m, tail, rfl, hm, _, _, htail⟩ := exists_tail_of_run (by decide) htail
  obtain ⟨c, hc⟩ := exists_char_of_four ha ha' hk hl hm hlong hpast
  exact ⟨c, tail, by rw [hc]; rfl, htail⟩

end Leads

/-- Bytes that are accepted begin with a character, and what follows it is accepted. -/
theorem exists_char_of_run {b : UInt8} {rest : Bytes}
    (h : run .boundary (b :: rest) = some .boundary) : BeginsWithChar (b :: rest) := by
  obtain ⟨s, hs, hrest⟩ := exists_of_run_cons h
  have hb : b = UInt8.ofNat b.toNat := UInt8.ofNat_toNat.symm
  rw [hb]
  cases lead_of_step hs with
  | one ha => exact beginsWithChar_of_one ha hrest
  | two ha ha' => exact beginsWithChar_of_two ha ha' hrest
  | afterE0 ha =>
    obtain ⟨k, tail, rfl, hk, hlow, _, htail⟩ := exists_tail_of_run (by decide) hrest
    have hlong : 0xA0 ≤ 0x80 + k := hlow
    exact beginsWithChar_of_three (by omega) (by omega) hk (by omega) (by omega) htail
  | three ha ha' hne =>
    obtain ⟨k, tail, rfl, hk, _, _, htail⟩ := exists_tail_of_run (by decide) hrest
    exact beginsWithChar_of_three (by omega) ha' hk (by omega) (by omega) htail
  | afterED ha =>
    obtain ⟨k, tail, rfl, hk, _, hhigh, htail⟩ := exists_tail_of_run (by decide) hrest
    have hsurrogate : 0x80 + k ≤ 0x9F := hhigh
    exact beginsWithChar_of_three (by omega) (by omega) hk (by omega) (by omega) htail
  | afterF0 ha =>
    obtain ⟨k, tail, rfl, hk, hlow, _, htail⟩ := exists_tail_of_run (by decide) hrest
    have hlong : 0x90 ≤ 0x80 + k := hlow
    exact beginsWithChar_of_four (by omega) (by omega) hk (by omega) (by omega) htail
  | four ha ha' =>
    obtain ⟨k, tail, rfl, hk, _, _, htail⟩ := exists_tail_of_run (by decide) hrest
    exact beginsWithChar_of_four (by omega) (by omega) hk (by omega) (by omega) htail
  | afterF4 ha =>
    obtain ⟨k, tail, rfl, hk, _, hhigh, htail⟩ := exists_tail_of_run (by decide) hrest
    have hpast : 0x80 + k ≤ 0x8F := hhigh
    exact beginsWithChar_of_four (by omega) (by omega) hk (by omega) (by omega) htail

/-! ## Texts -/

theorem exists_encode_of_run {bytes : Bytes} (h : run .boundary bytes = some .boundary) :
    ∃ cs, bytes = encode cs := by
  induction hn : bytes.length using Nat.strongRecOn generalizing bytes with
  | ind n ih =>
    cases bytes with
    | nil => exact ⟨[], rfl⟩
    | cons b rest =>
      obtain ⟨c, tail, heq, htail⟩ := exists_char_of_run h
      have hpos : 0 < (encodeChar c).length := by
        rw [encodeChar_eq]
        exact String.length_utf8EncodeChar c ▸ c.utf8Size_pos
      have hlt : tail.length < n := by
        have hlen := congrArg List.length heq
        rw [List.length_append] at hlen
        omega
      obtain ⟨cs, hcs⟩ := ih _ hlt htail rfl
      refine ⟨c :: cs, ?_⟩
      rw [heq, hcs]
      rfl

/-- The checker ends between two characters exactly on the bytes of texts. -/
theorem run_eq_boundary_iff {bytes : Bytes} :
    run .boundary bytes = some .boundary ↔ IsText bytes := by
  constructor
  · intro h
    obtain ⟨cs, rfl⟩ := exists_encode_of_run h
    refine ⟨String.ofList cs, ?_⟩
    rw [← ofText_eq, ofText, String.toList_ofList]
  · rintro ⟨t, rfl⟩
    rw [← ofText_eq]
    exact run_ofText t

/-- A way to the end of the character from each state. -/
def completion : State → Bytes
  | .boundary => []
  | .one => [0x80]
  | .two | .afterED => [0x80, 0x80]
  | .three | .afterF4 => [0x80, 0x80, 0x80]
  | .afterE0 => [0xA0, 0x80]
  | .afterF0 => [0x90, 0x80, 0x80]

theorem run_completion (s : State) : run s (completion s) = some .boundary := by
  cases s <;> decide

/-- The checker refuses exactly when no text begins with the bytes so far. -/
theorem run_eq_none_iff {bytes : Bytes} : run .boundary bytes = none ↔ ¬ BeginsText bytes := by
  constructor
  · rintro h ⟨more, htext⟩
    rw [← run_eq_boundary_iff, run_append, h] at htext
    cases htext
  · intro h
    cases hrun : run .boundary bytes with
    | none => rfl
    | some s =>
      refine absurd ⟨completion s, run_eq_boundary_iff.1 ?_⟩ h
      rw [run_append, hrun]
      exact run_completion s

theorem isValid_iff {bytes : Bytes} : isValid bytes = true ↔ IsText bytes := by
  rw [isValid, ← run_eq_boundary_iff]
  simp

end WebSocketEcho.Utf8
