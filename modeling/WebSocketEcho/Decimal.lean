import WebSocketEcho.Bytes

/-!
# Decimal numerals

Natural numbers in decimal: the digits of a number without leading zeros, the number that digits
spell, and the two together: writing and reading again gives the number back.
-/

namespace WebSocketEcho.Decimal

/-- The digits of a number, highest first, with no leading zero; zero is one digit. -/
def digits (n : Nat) : List Nat :=
  if n < 10 then [n] else digits (n / 10) ++ [n % 10]
termination_by n
decreasing_by omega

/-- The number that digits spell, highest first. -/
def ofDigits (ds : List Nat) : Nat :=
  ds.foldl (fun value d => 10 * value + d) 0

theorem ofDigits_append_singleton (ds : List Nat) (d : Nat) :
    ofDigits (ds ++ [d]) = 10 * ofDigits ds + d := by
  simp [ofDigits]

theorem ofDigits_digits (n : Nat) : ofDigits (digits n) = n := by
  induction n using Nat.strongRecOn with
  | ind n ih =>
    rw [digits]
    split
    · simp [ofDigits]
    · rw [ofDigits_append_singleton, ih (n / 10) (by omega)]
      omega

theorem lt_ten_of_mem_digits {n d : Nat} (h : d ∈ digits n) : d < 10 := by
  induction n using Nat.strongRecOn with
  | ind n ih =>
    rw [digits] at h
    split at h
    · simp at h
      omega
    · rcases List.mem_append.1 h with h | h
      · exact ih (n / 10) (by omega) h
      · simp at h
        omega

/-! ## Written forms -/

def bytes (n : Nat) : Bytes := (digits n).map fun d => UInt8.ofNat (0x30 + d)

def chars (n : Nat) : List Char := (digits n).map fun d => Char.ofNat (0x30 + d)

def text (n : Nat) : String := String.ofList (chars n)

theorem ofNat_eq_digitChar {d : Nat} (h : d < 10) : Char.ofNat (0x30 + d) = d.digitChar := by
  have hall : ∀ k < 10, Char.ofNat (0x30 + k) = k.digitChar := by decide
  exact hall d h

/-- The numerals are those of the standard library. -/
theorem chars_eq_toDigits (n : Nat) : chars n = Nat.toDigits 10 n := by
  rw [chars]
  induction n using Nat.strongRecOn with
  | ind n ih =>
    rw [digits, Nat.toDigits_eq_if (by decide)]
    split
    · rename_i h
      rw [List.map_singleton, ofNat_eq_digitChar h]
    · rw [List.map_append, ih (n / 10) (by omega), List.map_singleton,
        ofNat_eq_digitChar (Nat.mod_lt n (by decide))]

theorem text_eq_toString (n : Nat) : text n = toString n := by
  rw [text, chars_eq_toDigits, Nat.toString_eq_ofList_toDigits]

def digitValue? (c : Char) : Option Nat :=
  if '0' ≤ c && c ≤ '9' then some (c.toNat - 0x30) else none

/-- The number that a nonempty run of ASCII digits spells.  Leading zeros count for nothing. -/
def ofChars? (cs : List Char) : Option Nat :=
  if cs.isEmpty then none else (cs.mapM digitValue?).map ofDigits

/-- The same for bytes. -/
def ofBytes? (bs : Bytes) : Option Nat :=
  if bs.isEmpty || !bs.all Ascii.isDigit then none
  else some (ofDigits (bs.map fun b => b.toNat - 0x30))

end WebSocketEcho.Decimal
