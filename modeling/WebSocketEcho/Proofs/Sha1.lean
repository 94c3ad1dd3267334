import Mathlib.Data.Nat.Find
import WebSocketEcho.Proofs.Bits
import WebSocketEcho.Sha1

/-!
# The hash of the standard

FIPS 180-4 defines SHA-1 on bit strings.  `Standard` follows it line by line: the padding of
section 5.1.1, the words of section 5.2.1, and the computation of section 6.1.2 with a message
schedule that is a function of the round.  `bits_digest` says that `digest` is this hash, for
messages of every length.

The message schedule is where the two differ most.  `digest` keeps a window of sixteen words, and
`IsWindow` says which words of the schedule they are.
-/

namespace WebSocketEcho.Sha1

/-! ## The definition of the standard -/

namespace Standard

abbrev Word := BitVec 32

theorem exists_zeros (length : Nat) : ∃ k, (length + 1 + k) % 512 = 448 :=
  ⟨959 - length % 512, by omega⟩

/-- How many zero bits are appended: the smallest number that leaves 64 bits to a whole block. -/
def zeros (length : Nat) : Nat := Nat.find (exists_zeros length)

/-- The message, a one, zeros, and the length in 64 bits. -/
def padded (message : List Bool) : List Bool :=
  message ++ true :: (List.replicate (zeros message.length) false ++ Bits.ofNat 64 message.length)

/-- The 32-bit words of a bit string, by their places. -/
def word (bits : List Bool) (i : Nat) : Word :=
  BitVec.ofNat 32 (Bits.toNat ((bits.drop (32 * i)).take 32))

def choose (x y z : Word) : Word := (x &&& y) ^^^ (~~~x &&& z)

def parity (x y z : Word) : Word := x ^^^ y ^^^ z

def majority (x y z : Word) : Word := (x &&& y) ^^^ (x &&& z) ^^^ (y &&& z)

/-- The function of round `t`. -/
def mix (t : Nat) : Word → Word → Word → Word :=
  if t < 20 then choose else if t < 40 then parity else if t < 60 then majority else parity

/-- The constant of round `t`. -/
def constant (t : Nat) : Word :=
  if t < 20 then 0x5A827999
  else if t < 40 then 0x6ED9EBA1
  else if t < 60 then 0x8F1BBCDC
  else 0xCA62C1D6

/-- The message schedule of a block with these words. -/
def schedule (block : Nat → Word) (t : Nat) : Word :=
  if t < 16 then block t
  else
    (schedule block (t - 3) ^^^ schedule block (t - 8) ^^^ schedule block (t - 14) ^^^
      schedule block (t - 16)).rotateLeft 1

/-- Five words: the working variables, and what is carried from block to block. -/
structure Variables where
  a : Word
  b : Word
  c : Word
  d : Word
  e : Word

def round (w : Nat → Word) (v : Variables) (t : Nat) : Variables where
  a := v.a.rotateLeft 5 + mix t v.b v.c v.d + v.e + constant t + w t
  b := v.a
  c := v.b.rotateLeft 30
  d := v.c
  e := v.d

/-- One block. -/
def compress (h : Variables) (block : Nat → Word) : Variables :=
  let v := (List.range 80).foldl (round (schedule block)) h
  ⟨v.a + h.a, v.b + h.b, v.c + h.c, v.d + h.d, v.e + h.e⟩

def initial : Variables := ⟨0x67452301, 0xEFCDAB89, 0x98BADCFE, 0x10325476, 0xC3D2E1F0⟩

/-- The hash after all blocks of a padded message. -/
def hash (bits : List Bool) : Variables :=
  (List.range (bits.length / 512)).foldl
    (fun h i => compress h fun t => word bits (16 * i + t)) initial

/-- The 160 bits of the hash of a message. -/
def digest (message : List Bool) : List Bool :=
  let h := hash (padded message)
  [h.a, h.b, h.c, h.d, h.e].flatMap fun x => Bits.ofNat 32 x.toNat

theorem zeros_eq (length : Nat) : zeros length = (959 - length % 512) % 512 := by
  refine (Nat.find_eq_iff (exists_zeros length)).2 ⟨by omega, fun k hk => ?_⟩
  omega

end Standard

open Standard (word schedule)

/-! ## Padding -/

theorem length_pad (message : Bytes) : (pad message).length % 64 = 0 := by
  simp only [pad, List.length_append, List.length_cons, List.length_replicate,
    Bytes.length_ofNat]
  omega

/-- One bit and seven zeros are the byte behind the message. -/
theorem bits_pad (message : Bytes) : (pad message).bits = Standard.padded message.bits := by
  have hzeros : ∀ n, Bytes.bits (List.replicate n 0) = List.replicate (8 * n) false := by
    intro n
    induction n with
    | zero => rfl
    | succ n ih =>
      rw [List.replicate_succ, Bytes.bits_cons, ih, Nat.mul_succ, Nat.add_comm,
        ← List.replicate_append_replicate]
      rfl
  have hone : Bytes.bits [0x80] = true :: List.replicate 7 false := rfl
  have hcount : 7 + 8 * ((119 - message.length % 64) % 64) =
      Standard.zeros message.bits.length := by
    rw [Standard.zeros_eq, Bytes.length_bits]
    omega
  rw [pad, Standard.padded, ← hcount, ← List.replicate_append_replicate, Bytes.length_bits]
  rw [List.append_cons, Bytes.bits_append, Bytes.bits_append, Bytes.bits_append, hone, hzeros,
    Bytes.bits_ofNat]
  simp only [List.append_assoc, List.cons_append]

/-! ## Words -/

/-- The words of a block, by their places. -/
theorem getD_words {block : Bytes} (hblock : block.length = 64) {t : Nat} (ht : t < 16) :
    (((groups 4 block).map fun w => UInt32.ofNat w.toNat).getD t 0).toBitVec =
      word block.bits t := by
  have hget : ((groups 4 block).map fun w => UInt32.ofNat w.toNat)[t]? =
      some (UInt32.ofNat (Bytes.toNat ((block.drop (4 * t)).take 4))) := by
    simp [groups, hblock, ht]
  have hbits : (block.bits.drop (32 * t)).take 32 =
      Bytes.bits ((block.drop (4 * t)).take 4) := by
    rw [Bytes.bits_take, Bytes.bits_drop, ← Nat.mul_assoc]
  rw [List.getD_eq_getElem?_getD, hget, Option.getD_some, word, hbits, Bytes.toNat_bits]
  rfl

theorem length_words {block : Bytes} (hblock : block.length = 64) :
    ((groups 4 block).map fun w => UInt32.ofNat w.toNat).length = 16 := by
  simp [groups, hblock]

/-- The words of a block are the words of the message from the place of the block on. -/
theorem word_block {padded : Bytes} {i t : Nat} (ht : t < 16) :
    word (Bytes.bits ((padded.drop (64 * i)).take 64)) t = word padded.bits (16 * i + t) := by
  have hplace : 8 * (64 * i) + 32 * t = 32 * (16 * i + t) := by omega
  have hwhole : min 32 (8 * 64 - 32 * t) = 32 := by omega
  rw [word, word, Bytes.bits_take, Bytes.bits_drop, List.drop_take, List.take_take, hwhole,
    List.drop_drop, hplace]

/-! ## Rounds -/

/-- Five words as the standard has them. -/
def Chain.variables (s : Chain) : Standard.Variables :=
  ⟨s.a.toBitVec, s.b.toBitVec, s.c.toBitVec, s.d.toBitVec, s.e.toBitVec⟩

theorem toBitVec_stir (t : Nat) (x y z : UInt32) :
    (stir t x y z).1.toBitVec = Standard.mix t x.toBitVec y.toBitVec z.toBitVec ∧
      (stir t x y z).2.toBitVec = Standard.constant t := by
  unfold stir Standard.mix Standard.constant
  split
  · exact ⟨rfl, rfl⟩
  split
  · exact ⟨rfl, rfl⟩
  split
  · exact ⟨rfl, rfl⟩
  · exact ⟨rfl, rfl⟩

theorem variables_round {w : Nat → Standard.Word} {x : UInt32} {t : Nat} (hx : x.toBitVec = w t)
    (s : Chain) : (round t x s).variables = Standard.round w s.variables t := by
  obtain ⟨hmix, hconstant⟩ := toBitVec_stir t s.b s.c s.d
  rw [Standard.round, ← hx]
  simp only [Chain.variables]
  rw [← hmix, ← hconstant]
  rfl

/-- The window holds the words `t` to `t + 15` of a schedule. -/
structure IsWindow (w : Nat → Standard.Word) (t : Nat) (window : List UInt32) : Prop where
  length : window.length = 16
  getD : ∀ i < 16, (window.getD i 0).toBitVec = w (t + i)

section Window

variable {block : Nat → Standard.Word} {t : Nat} {window : List UInt32}

theorem IsWindow.nextWord (h : IsWindow (schedule block) t window) :
    (nextWord window).toBitVec = schedule block (t + 16) := by
  have hnext : (Sha1.nextWord window).toBitVec = ((window.getD 13 0).toBitVec ^^^
      (window.getD 8 0).toBitVec ^^^ (window.getD 2 0).toBitVec ^^^
      (window.getD 0 0).toBitVec).rotateLeft 1 := rfl
  have hschedule : schedule block (t + 16) = (schedule block (t + 13) ^^^
      schedule block (t + 8) ^^^ schedule block (t + 2) ^^^ schedule block t).rotateLeft 1 := by
    rw [schedule, if_neg (by omega)]
    rfl
  rw [hnext, hschedule, h.getD 13 (by omega), h.getD 8 (by omega), h.getD 2 (by omega),
    h.getD 0 (by omega)]
  rfl

/-- The window moves on by one word. -/
theorem IsWindow.move (h : IsWindow (schedule block) t window) :
    IsWindow (schedule block) (t + 1) (window.drop 1 ++ [Sha1.nextWord window]) := by
  refine ⟨by simp [h.length], fun i hi => ?_⟩
  by_cases hlast : i < 15
  · have hget : (window.drop 1 ++ [Sha1.nextWord window]).getD i 0 = window.getD (i + 1) 0 := by
      have hlt : i < (window.drop 1).length := by
        rw [List.length_drop, h.length]
        exact hlast
      rw [List.getD_eq_getElem?_getD, List.getElem?_append_left hlt, List.getElem?_drop,
        Nat.add_comm, List.getD_eq_getElem?_getD]
    rw [hget, h.getD (i + 1) (by omega), Nat.add_assoc, Nat.add_comm 1 i]
  · obtain rfl : i = 15 := by omega
    have hget : (window.drop 1 ++ [Sha1.nextWord window]).getD 15 0 = Sha1.nextWord window := by
      simp [h.length]
    rw [hget, h.nextWord]

/-- Rounds with a window are rounds with the schedule. -/
theorem IsWindow.rounds (h : IsWindow (schedule block) t window) (count : Nat) (s : Chain) :
    (Sha1.rounds count t window s).variables =
      (List.range' t count).foldl (Standard.round (schedule block)) s.variables := by
  induction count generalizing t window s with
  | zero => rfl
  | succ count ih =>
    have hfirst : (window.getD 0 0).toBitVec = schedule block t := h.getD 0 (by omega)
    rw [Sha1.rounds, ih h.move, variables_round hfirst, List.range'_succ]
    rfl

end Window

/-- One block. -/
theorem variables_compress {words : List UInt32} {block : Nat → Standard.Word}
    (hlength : words.length = 16) (hwords : ∀ t < 16, (words.getD t 0).toBitVec = block t)
    (s : Chain) : (compress s words).variables = Standard.compress s.variables block := by
  have hwindow : IsWindow (schedule block) 0 words := by
    refine ⟨hlength, fun i hi => ?_⟩
    rw [Nat.zero_add, schedule, if_pos hi]
    exact hwords i hi
  have hadd : ∀ x y : Chain, (x.add y).variables =
      ⟨y.variables.a + x.variables.a, y.variables.b + x.variables.b,
        y.variables.c + x.variables.c, y.variables.d + x.variables.d,
        y.variables.e + x.variables.e⟩ := by
    intro x y
    simp only [Chain.variables, Chain.add, UInt32.toBitVec_add, BitVec.add_comm]
  rw [compress, hadd, hwindow.rounds, Standard.compress, List.range_eq_range']

/-! ## Messages -/

/-- The blocks of a padded message, one after the other. -/
theorem variables_blocks (padded : Bytes) (count : Nat) (hcount : 64 * count ≤ padded.length)
    (s : Chain) :
    (((List.range count).map fun i =>
        (groups 4 ((padded.drop (64 * i)).take 64)).map fun w => UInt32.ofNat w.toNat).foldl
          compress s).variables =
      (List.range count).foldl
        (fun h i => Standard.compress h fun t => word padded.bits (16 * i + t)) s.variables := by
  induction count with
  | zero => rfl
  | succ count ih =>
    have hblock : ((padded.drop (64 * count)).take 64).length = 64 := by
      rw [List.length_take, List.length_drop]
      omega
    rw [List.range_succ, List.map_append, List.foldl_append, List.foldl_append, ← ih (by omega)]
    refine variables_compress (length_words hblock) (fun t ht => ?_) _
    rw [getD_words hblock ht, word_block ht]

/-- The hash of a message of any length is that of the standard. -/
theorem bits_digest (message : Bytes) :
    (digest message).bits = Standard.digest message.bits := by
  have hwhole := length_pad message
  have hcount : (pad message).length / 64 = (pad message).bits.length / 512 := by
    rw [Bytes.length_bits]
    omega
  have hhash := variables_blocks (pad message) ((pad message).length / 64) (by omega)
    Chain.start
  have hblocks : (blocks (pad message)).foldl compress Chain.start =
      ((List.range ((pad message).length / 64)).map fun i =>
        (groups 4 (((pad message).drop (64 * i)).take 64)).map fun w =>
          UInt32.ofNat w.toNat).foldl compress Chain.start := by
    rw [blocks, groups, List.map_map]
    rfl
  have hbytes : ∀ s : Chain, s.bytes.bits = [s.variables.a, s.variables.b, s.variables.c,
      s.variables.d, s.variables.e].flatMap fun x => Bits.ofNat 32 x.toNat := by
    intro s
    simp only [Chain.bytes, List.flatMap_cons, List.flatMap_nil, Bytes.bits_append,
      Bytes.bits_ofNat]
    rfl
  rw [digest, hblocks, hbytes, hhash, hcount, bits_pad, Standard.digest, Standard.hash]
  rfl

theorem length_digest (message : Bytes) : (digest message).length = 20 := by
  simp [digest, Chain.bytes]

/-- A message of one block, and one whose padding spills into a second. -/
example :
    Standard.digest (Bytes.bits (Bytes.ofText "abc")) =
        Bits.ofNat 160 0xA9993E364706816ABA3E25717850C26C9CD0D89D ∧
      Standard.digest (Bytes.bits (Bytes.ofText
          "abcdbcdecdefdefgefghfghighijhijkijkljklmklmnlmnomnopnopq")) =
        Bits.ofNat 160 0x84983E441C3BD26EBAAE4AA1F95129E5E54670F1 := by
  rw [← bits_digest, ← bits_digest]
  decide +kernel

end WebSocketEcho.Sha1
