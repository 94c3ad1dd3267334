import Mathlib.Data.List.Induction
import Mathlib.Tactic.Ring
import WebSocketEcho.Bytes

/-!
# Bit strings

Standards that cut bytes into groups of other sizes speak of bits.  `Bytes.bits` is a byte string as
its bits, the highest of every byte first.  Beginnings and ends of a byte string are beginnings and
ends of its bits, and bytes that spell a number are bits that spell it (`Bytes.toNat_bits`,
`Bytes.bits_ofNat`).
-/

namespace WebSocketEcho

namespace Bits

/-- The `width` lowest bits of a number, highest first. -/
def ofNat : Nat → Nat → List Bool
  | 0, _ => []
  | width + 1, n => ofNat width (n / 2) ++ [decide (n % 2 = 1)]

/-- The number that bits spell, highest first. -/
def toNat (bits : List Bool) : Nat := bits.foldl (fun n b => 2 * n + b.toNat) 0

@[simp] theorem length_ofNat (width n : Nat) : (ofNat width n).length = width := by
  induction width generalizing n with
  | zero => rfl
  | succ width ih => rw [ofNat, List.length_append, ih, List.length_singleton]

/-- Some bits of a number are the lowest, and the others are those of a quotient. -/
theorem ofNat_add (high low n : Nat) :
    ofNat (high + low) n = ofNat high (n / 2 ^ low) ++ ofNat low n := by
  induction low generalizing n with
  | zero => simp [ofNat]
  | succ low ih =>
    rw [← Nat.add_assoc, ofNat, ofNat, ih, Nat.div_div_eq_div_mul, ← Nat.pow_succ',
      List.append_assoc]

/-- Higher bits do not matter. -/
theorem ofNat_mod (width n : Nat) : ofNat width (n % 2 ^ width) = ofNat width n := by
  induction width generalizing n with
  | zero => rfl
  | succ width ih =>
    have hhalf : n % 2 ^ (width + 1) / 2 = n / 2 % 2 ^ width := by
      rw [Nat.pow_succ', Nat.mod_mul_right_div_self]
    have hlow : n % 2 ^ (width + 1) % 2 = n % 2 := by
      rw [Nat.pow_succ', Nat.mod_mul_right_mod]
    rw [ofNat, ofNat, hhalf, hlow, ih]

theorem toNat_append (a b : List Bool) : toNat (a ++ b) = 2 ^ b.length * toNat a + toNat b := by
  induction b using List.reverseRecOn with
  | nil => simp [toNat]
  | append_singleton b bit ih =>
    have hlast : ∀ l, toNat (l ++ [bit]) = 2 * toNat l + bit.toNat := fun l => by
      rw [toNat, List.foldl_append]
      rfl
    rw [← List.append_assoc, hlast, hlast, ih, List.length_append, List.length_singleton,
      Nat.pow_succ]
    ring

/-- What the lowest bits of a number spell. -/
theorem toNat_ofNat (width n : Nat) : toNat (ofNat width n) = n % 2 ^ width := by
  induction width generalizing n with
  | zero => rw [Nat.pow_zero, Nat.mod_one]; rfl
  | succ width ih =>
    have hbit : toNat [decide (n % 2 = 1)] = n % 2 := by
      rcases Nat.mod_two_eq_zero_or_one n with h | h <;> rw [h] <;> rfl
    rw [ofNat, toNat_append, ih, hbit, List.length_singleton, Nat.pow_one, Nat.pow_succ',
      Nat.mod_mul]
    omega

end Bits

namespace Bytes

/-- A byte string as bits. -/
def bits (bytes : Bytes) : List Bool := bytes.flatMap fun b => Bits.ofNat 8 b.toNat

theorem bits_cons (b : UInt8) (rest : Bytes) :
    bits (b :: rest) = Bits.ofNat 8 b.toNat ++ bits rest :=
  rfl

@[simp] theorem bits_append (a b : Bytes) : bits (a ++ b) = bits a ++ bits b :=
  List.flatMap_append

@[simp] theorem length_bits (bytes : Bytes) : (bits bytes).length = 8 * bytes.length := by
  induction bytes with
  | nil => rfl
  | cons b rest ih =>
    rw [bits_cons, List.length_append, ih, Bits.length_ofNat, List.length_cons]
    omega

theorem bits_take (n : Nat) (bytes : Bytes) : bits (bytes.take n) = (bits bytes).take (8 * n) := by
  induction bytes generalizing n with
  | nil => simp [bits]
  | cons b rest ih =>
    cases n with
    | zero => simp [bits]
    | succ n =>
      have hlength : 8 * (n + 1) = (Bits.ofNat 8 b.toNat).length + 8 * n := by
        rw [Bits.length_ofNat]
        omega
      rw [List.take_succ_cons, bits_cons, bits_cons, hlength, List.take_length_add_append, ih]

theorem bits_drop (n : Nat) (bytes : Bytes) : bits (bytes.drop n) = (bits bytes).drop (8 * n) := by
  induction bytes generalizing n with
  | nil => simp [bits]
  | cons b rest ih =>
    cases n with
    | zero => rfl
    | succ n =>
      have hlength : 8 * (n + 1) = (Bits.ofNat 8 b.toNat).length + 8 * n := by
        rw [Bits.length_ofNat]
        omega
      rw [List.drop_succ_cons, bits_cons, hlength, List.drop_length_add_append, ih]

/-- The bits spell the same number as the bytes. -/
theorem toNat_bits (bytes : Bytes) : Bits.toNat (bits bytes) = toNat bytes := by
  induction bytes using List.reverseRecOn with
  | nil => rfl
  | append_singleton bytes b ih =>
    have hlast : toNat (bytes ++ [b]) = 256 * toNat bytes + b.toNat := by
      rw [toNat, List.foldl_append]
      rfl
    have hbyte : bits [b] = Bits.ofNat 8 b.toNat := List.append_nil _
    rw [hlast, bits_append, Bits.toNat_append, hbyte, Bits.toNat_ofNat, Bits.length_ofNat, ih,
      Nat.mod_eq_of_lt b.toNat_lt]
    rfl

/-- The lowest bytes of a number are its lowest bits. -/
theorem bits_ofNat (count n : Nat) : bits (ofNat count n) = Bits.ofNat (8 * count) n := by
  induction count generalizing n with
  | zero => rfl
  | succ count ih =>
    have hbyte : bits [UInt8.ofNat n] = Bits.ofNat 8 n := by
      rw [← Bits.ofNat_mod]
      exact List.append_nil _
    rw [ofNat, bits_append, ih, hbyte, Nat.mul_succ, Bits.ofNat_add]
    rfl

end Bytes

end WebSocketEcho
