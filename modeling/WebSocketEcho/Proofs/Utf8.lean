import WebSocketEcho.Utf8

/-!
# Texts pass the checker

`Utf8.encode` writes the bytes that the standard library writes, and the checker accepts them:
`run_ofText`.  The cases of `run_encodeChar` are the lengths of a character, and inside them the
first bytes after which the second one is restricted.
-/

namespace WebSocketEcho.Utf8

theorem run_cons {s t : State} {b : UInt8} (h : step s b = some t) (rest : Bytes) :
    run s (b :: rest) = run t rest := by
  rw [run, h]

/-! ## Single bytes -/

/-- The first byte of a character, as a number. -/
theorem step_boundary (b : UInt8) : step .boundary b =
    if b.toNat ≤ 0x7F then some .boundary
    else if b.toNat ≤ 0xC1 then none
    else if b.toNat ≤ 0xDF then some .one
    else if b.toNat = 0xE0 then some .afterE0
    else if b.toNat = 0xED then some .afterED
    else if b.toNat ≤ 0xEF then some .two
    else if b.toNat = 0xF0 then some .afterF0
    else if b.toNat ≤ 0xF3 then some .three
    else if b.toNat = 0xF4 then some .afterF4
    else none := by
  simp only [step, UInt8.le_iff_toNat_le, ← UInt8.toNat_inj]
  rfl

/-- A byte that is written as a number is that number. -/
theorem toNat_ofNat {n : Nat} (h : n < 256) : (UInt8.ofNat n).toNat = n := by
  rw [UInt8.toNat_ofNat', Nat.mod_eq_of_lt h]

/-- A byte between two bounds. -/
theorem within_eq_true {low high : UInt8} {n : Nat} (hn : n < 256) (hlow : low.toNat ≤ n)
    (hhigh : n ≤ high.toNat) : (low ≤ UInt8.ofNat n && UInt8.ofNat n ≤ high) = true := by
  simp only [Bool.and_eq_true, decide_eq_true_eq, UInt8.le_iff_toNat_le, toNat_ofNat hn]
  exact ⟨hlow, hhigh⟩

theorem isContinuation_ofNat {k : Nat} (h : k < 0x40) :
    isContinuation (UInt8.ofNat (0x80 + k)) = true := by
  refine within_eq_true (by omega) ?_ ?_
  · show 0x80 ≤ 0x80 + k
    omega
  · show 0x80 + k ≤ 0xBF
    omega

/-! ## Tails -/

theorem run_one {k : Nat} (h : k < 0x40) :
    run .one [UInt8.ofNat (0x80 + k)] = some .boundary := by
  refine run_cons ?_ []
  rw [step, isContinuation_ofNat h]
  rfl

theorem run_two {k l : Nat} (hk : k < 0x40) (hl : l < 0x40) :
    run .two [UInt8.ofNat (0x80 + k), UInt8.ofNat (0x80 + l)] = some .boundary := by
  refine (run_cons ?_ _).trans (run_one hl)
  rw [step, isContinuation_ofNat hk]
  rfl

theorem run_three {k l m : Nat} (hk : k < 0x40) (hl : l < 0x40) (hm : m < 0x40) :
    run .three [UInt8.ofNat (0x80 + k), UInt8.ofNat (0x80 + l), UInt8.ofNat (0x80 + m)] =
      some .boundary := by
  refine (run_cons ?_ _).trans (run_two hl hm)
  rw [step, isContinuation_ofNat hk]
  rfl

/-! ## Characters -/

section Characters

variable {n : Nat}

theorem run_oneByte (h : n < 0x80) : run .boundary [UInt8.ofNat n] = some .boundary := by
  refine run_cons ?_ []
  rw [step_boundary, toNat_ofNat (by omega), if_pos (by omega)]

theorem run_twoBytes (h : 0x80 ≤ n) (h' : n < 0x800) :
    run .boundary [UInt8.ofNat (0xC0 + n / 0x40), UInt8.ofNat (0x80 + n % 0x40)] =
      some .boundary := by
  refine (run_cons ?_ _).trans (run_one (by omega))
  rw [step_boundary, toNat_ofNat (by omega), if_neg (by omega), if_neg (by omega),
    if_pos (by omega)]

/-- Three bytes: after `E0` no overlong form, after `ED` no surrogate. -/
theorem run_threeBytes (h : 0x800 ≤ n) (h' : n < 0x10000) (hn : n < 0xD800 ∨ 0xDFFF < n) :
    run .boundary [UInt8.ofNat (0xE0 + n / 0x1000), UInt8.ofNat (0x80 + n / 0x40 % 0x40),
      UInt8.ofNat (0x80 + n % 0x40)] = some .boundary := by
  have hlead : (UInt8.ofNat (0xE0 + n / 0x1000)).toNat = 0xE0 + n / 0x1000 :=
    toNat_ofNat (by omega)
  by_cases h₀ : n / 0x1000 = 0
  · refine (run_cons (t := .afterE0) ?_ _).trans ((run_cons ?_ _).trans (run_one (by omega)))
    · rw [step_boundary, hlead, if_neg (by omega), if_neg (by omega), if_neg (by omega),
        if_pos (by omega)]
    · rw [step, within_eq_true (by omega) (show 0xA0 ≤ _ by omega) (show _ ≤ 0xBF by omega)]
      rfl
  · by_cases h₁ : n / 0x1000 = 0xD
    · refine (run_cons (t := .afterED) ?_ _).trans ((run_cons ?_ _).trans (run_one (by omega)))
      · rw [step_boundary, hlead, if_neg (by omega), if_neg (by omega), if_neg (by omega),
          if_neg (by omega), if_pos (by omega)]
      · rw [step, within_eq_true (by omega) (show 0x80 ≤ _ by omega) (show _ ≤ 0x9F by omega)]
        rfl
    · refine (run_cons (t := .two) ?_ _).trans (run_two (by omega) (by omega))
      rw [step_boundary, hlead, if_neg (by omega), if_neg (by omega), if_neg (by omega),
        if_neg (by omega), if_neg (by omega), if_pos (by omega)]

/-- Four bytes: after `F0` no overlong form, after `F4` nothing past U+10FFFF. -/
theorem run_fourBytes (h : 0x10000 ≤ n) (h' : n < 0x110000) :
    run .boundary [UInt8.ofNat (0xF0 + n / 0x40000), UInt8.ofNat (0x80 + n / 0x1000 % 0x40),
      UInt8.ofNat (0x80 + n / 0x40 % 0x40), UInt8.ofNat (0x80 + n % 0x40)] = some .boundary := by
  have hlead : (UInt8.ofNat (0xF0 + n / 0x40000)).toNat = 0xF0 + n / 0x40000 :=
    toNat_ofNat (by omega)
  by_cases h₀ : n / 0x40000 = 0
  · refine (run_cons (t := .afterF0) ?_ _).trans
      ((run_cons ?_ _).trans (run_two (by omega) (by omega)))
    · rw [step_boundary, hlead, if_neg (by omega), if_neg (by omega), if_neg (by omega),
        if_neg (by omega), if_neg (by omega), if_neg (by omega), if_pos (by omega)]
    · rw [step, within_eq_true (by omega) (show 0x90 ≤ _ by omega) (show _ ≤ 0xBF by omega)]
      rfl
  · by_cases h₁ : n / 0x40000 = 4
    · refine (run_cons (t := .afterF4) ?_ _).trans
        ((run_cons ?_ _).trans (run_two (by omega) (by omega)))
      · rw [step_boundary, hlead, if_neg (by omega), if_neg (by omega), if_neg (by omega),
          if_neg (by omega), if_neg (by omega), if_neg (by omega), if_neg (by omega),
          if_neg (by omega), if_pos (by omega)]
      · rw [step, within_eq_true (by omega) (show 0x80 ≤ _ by omega) (show _ ≤ 0x8F by omega)]
        rfl
    · refine (run_cons (t := .three) ?_ _).trans (run_three (by omega) (by omega) (by omega))
      rw [step_boundary, hlead, if_neg (by omega), if_neg (by omega), if_neg (by omega),
        if_neg (by omega), if_neg (by omega), if_neg (by omega), if_neg (by omega),
        if_pos (by omega)]

end Characters

/-- A character is no surrogate and not past U+10FFFF. -/
theorem toNat_char (c : Char) : c.toNat < 0xD800 ∨ 0xDFFF < c.toNat ∧ c.toNat < 0x110000 :=
  c.valid

/-- One character takes the checker from a boundary to a boundary. -/
theorem run_encodeChar (c : Char) : run .boundary (encodeChar c) = some .boundary := by
  have hvalid := toNat_char c
  rw [encodeChar]
  by_cases h₁ : c.toNat < 0x80
  · rw [if_pos h₁]
    exact run_oneByte h₁
  · rw [if_neg h₁]
    by_cases h₂ : c.toNat < 0x800
    · rw [if_pos h₂]
      exact run_twoBytes (by omega) h₂
    · rw [if_neg h₂]
      by_cases h₃ : c.toNat < 0x10000
      · rw [if_pos h₃]
        exact run_threeBytes (by omega) h₃ (by omega)
      · rw [if_neg h₃]
        exact run_fourBytes (by omega) (by omega)

theorem run_encode (cs : List Char) : run .boundary (encode cs) = some .boundary := by
  induction cs with
  | nil => rfl
  | cons c rest ih =>
    rw [encode, List.flatMap_cons, run_append, run_encodeChar]
    exact ih

/-- The bytes of a text take the checker from a boundary to a boundary. -/
theorem run_ofText (t : String) : run .boundary (ofText t) = some .boundary := run_encode t.toList

/-- The bytes of a character are those that the standard library writes. -/
theorem encodeChar_eq (c : Char) : encodeChar c = String.utf8EncodeChar c := by
  have hvalid := toNat_char c
  have hval : c.val.toNat = c.toNat := rfl
  rw [encodeChar, String.utf8EncodeChar]
  rw [hval]
  by_cases h₁ : c.toNat < 0x80
  · rw [if_pos h₁, if_pos (show c.toNat ≤ 0x7f by omega)]
  · rw [if_neg h₁, if_neg (show ¬ c.toNat ≤ 0x7f by omega)]
    by_cases h₂ : c.toNat < 0x800
    · rw [if_pos h₂, if_pos (show c.toNat ≤ 0x7ff by omega),
        Nat.mod_eq_of_lt (show c.toNat / 64 < 0x20 by omega)]
      simp only [Nat.add_comm]
    · rw [if_neg h₂, if_neg (show ¬ c.toNat ≤ 0x7ff by omega)]
      by_cases h₃ : c.toNat < 0x10000
      · rw [if_pos h₃, if_pos (show c.toNat ≤ 0xffff by omega),
          Nat.mod_eq_of_lt (show c.toNat / 4096 < 0x10 by omega)]
        simp only [Nat.add_comm]
      · rw [if_neg h₃, if_neg (show ¬ c.toNat ≤ 0xffff by omega),
          Nat.mod_eq_of_lt (show c.toNat / 262144 < 0x08 by omega)]
        simp only [Nat.add_comm]

/-- So are those of a text. -/
theorem ofText_eq (t : String) : ofText t = t.toUTF8.data.toList := by
  have hencode : encode t.toList = t.toList.flatMap String.utf8EncodeChar := by
    rw [encode]
    congr 1
    funext c
    exact encodeChar_eq c
  rw [ofText, hencode]
  show _ = t.toByteArray.data.toList
  rw [← String.utf8Encode_toList, List.utf8Encode]
  simp

end WebSocketEcho.Utf8
