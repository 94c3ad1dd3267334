import WebSocketEcho.Base64

/-!
# Reading base64

`decode?` reads the standard alphabet back: four letters are three bytes, and the last four may end
in one or two fillers.  What `encode` writes is read as what was written (`decode?_encode`), and
`encode_eq_append` says how the text of bytes looks that leave two over.
-/

namespace WebSocketEcho.Base64

/-- The letters, by their values. -/
def alphabet : Bytes :=
  Bytes.ofText "ABCDEFGHIJKLMNOPQRSTUVWXYZabcdefghijklmnopqrstuvwxyz0123456789+/"

/-- The value of a letter, below 64. -/
def value? (b : UInt8) : Option Nat := alphabet.idxOf? b

/-- The bytes of a text.  Fillers stand at the end only, for one or two bytes that are missing in
the last group, and the bits of a group that no byte takes up are zero. -/
def decode? : Bytes → Option Bytes
  | [] => some []
  | a :: b :: c :: d :: rest => do
    let w ← value? a
    let x ← value? b
    let first := UInt8.ofNat (4 * w + x / 16)
    if c = filler then
      if d = filler ∧ rest = [] ∧ x % 16 = 0 then some [first] else none
    else
      let y ← value? c
      let second := UInt8.ofNat (16 * (x % 16) + y / 4)
      if d = filler then
        if rest = [] ∧ y % 4 = 0 then some [first, second] else none
      else
        let z ← value? d
        let behind ← decode? rest
        some (first :: second :: UInt8.ofNat (64 * (y % 4) + z) :: behind)
  | _ => none

/-! ## Letters -/

section Letters

variable {n : Nat}

theorem value?_letter (h : n < 64) : value? (letter n) = some n := by
  have hall : ∀ k : Fin 64, value? (letter k) = some k.val := by decide +kernel
  exact hall ⟨n, h⟩

theorem letter_mem (h : n < 64) : letter n ∈ alphabet := by
  have hall : ∀ k : Fin 64, letter k ∈ alphabet := by decide +kernel
  exact hall ⟨n, h⟩

theorem letter_ne_filler (h : n < 64) : letter n ≠ filler := by
  have hall : ∀ k : Fin 64, letter k ≠ filler := by decide +kernel
  exact hall ⟨n, h⟩

end Letters

/-! ## Groups -/

section Groups

variable {w x y z : Nat} (hw : w < 64) (hx : x < 64) (hy : y < 64) (hz : z < 64)

include hw hx

theorem decode?_one (h : x % 16 = 0) :
    decode? [letter w, letter x, filler, filler] = some [UInt8.ofNat (4 * w + x / 16)] := by
  simp only [decode?, value?_letter hw, value?_letter hx, Option.bind_eq_bind, Option.bind_some,
    if_true, h, and_self]

include hy

theorem decode?_two (h : y % 4 = 0) :
    decode? [letter w, letter x, letter y, filler] =
      some [UInt8.ofNat (4 * w + x / 16), UInt8.ofNat (16 * (x % 16) + y / 4)] := by
  simp only [decode?, value?_letter hw, value?_letter hx, value?_letter hy, Option.bind_eq_bind,
    Option.bind_some, if_true, if_neg (letter_ne_filler hy), h, and_self]

include hz

theorem decode?_three (rest : Bytes) :
    decode? (letter w :: letter x :: letter y :: letter z :: rest) =
      (decode? rest).bind fun behind =>
        some (UInt8.ofNat (4 * w + x / 16) :: UInt8.ofNat (16 * (x % 16) + y / 4) ::
          UInt8.ofNat (64 * (y % 4) + z) :: behind) := by
  simp only [decode?, value?_letter hw, value?_letter hx, value?_letter hy, value?_letter hz,
    Option.bind_eq_bind, Option.bind_some, if_neg (letter_ne_filler hy),
    if_neg (letter_ne_filler hz)]

end Groups

/-- What is written is read back. -/
theorem decode?_encode (bytes : Bytes) : decode? (encode bytes) = some bytes := by
  have hbyte : ∀ {b : UInt8} {n : Nat}, n = b.toNat → UInt8.ofNat n = b := by
    rintro b n rfl
    exact UInt8.ofNat_toNat
  fun_induction encode bytes with
  | case1 => rfl
  | case2 a n =>
    have ha := a.toNat_lt
    have hfirst : UInt8.ofNat (4 * (n / 64) + n % 64 / 16) = a := hbyte (by omega)
    rw [decode?_one (by omega) (by omega) (by omega), hfirst]
  | case3 a b n =>
    have ha := a.toNat_lt
    have hb := b.toNat_lt
    have hfirst : UInt8.ofNat (4 * (n / 4096) + n / 64 % 64 / 16) = a := hbyte (by omega)
    have hsecond : UInt8.ofNat (16 * (n / 64 % 64 % 16) + n % 64 / 4) = b := hbyte (by omega)
    rw [decode?_two (by omega) (by omega) (by omega) (by omega), hfirst, hsecond]
  | case4 a b c rest n ih =>
    have ha := a.toNat_lt
    have hb := b.toNat_lt
    have hc := c.toNat_lt
    have hfirst : UInt8.ofNat (4 * (n / 262144) + n / 4096 % 64 / 16) = a := hbyte (by omega)
    have hsecond : UInt8.ofNat (16 * (n / 4096 % 64 % 16) + n / 64 % 64 / 4) = b :=
      hbyte (by omega)
    have hthird : UInt8.ofNat (64 * (n / 64 % 64 % 4) + n % 64) = c := hbyte (by omega)
    rw [decode?_three (by omega) (by omega) (by omega) (by omega), ih, hfirst, hsecond, hthird]
    rfl

/-- Two bytes that are left over are three letters and a filler. -/
theorem encode_eq_append {bytes : Bytes} (h : bytes.length % 3 = 2) :
    ∃ letters, encode bytes = letters ++ [filler] ∧
      letters.length = 4 * (bytes.length / 3) + 3 ∧ ∀ b ∈ letters, b ∈ alphabet := by
  fun_induction encode bytes with
  | case1 => cases h
  | case2 a n => cases h
  | case3 a b n =>
    have ha := a.toNat_lt
    have hb := b.toNat_lt
    refine ⟨[letter (n / 4096), letter (n / 64 % 64), letter (n % 64)], rfl, by simp, ?_⟩
    simp only [List.forall_mem_cons]
    exact ⟨letter_mem (by omega), letter_mem (by omega), letter_mem (by omega),
      fun _ hnil => nomatch hnil⟩
  | case4 a b c rest n ih =>
    have ha := a.toNat_lt
    have hb := b.toNat_lt
    have hc := c.toNat_lt
    simp only [List.length_cons] at h
    obtain ⟨letters, hencode, hlength, hletters⟩ := ih (by omega)
    refine ⟨letter (n / 262144) :: letter (n / 4096 % 64) :: letter (n / 64 % 64) ::
      letter (n % 64) :: letters, by rw [hencode]; rfl, ?_, ?_⟩
    · simp only [List.length_cons, hlength]
      omega
    · simp only [List.forall_mem_cons]
      exact ⟨letter_mem (by omega), letter_mem (by omega), letter_mem (by omega),
        letter_mem (by omega), hletters⟩

end WebSocketEcho.Base64
