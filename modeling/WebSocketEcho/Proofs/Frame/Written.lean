import Mathlib.Algebra.Group.Nat.Defs
import WebSocketEcho.Proofs.Frame.Decoding

/-!
# Frames as either side may write them

`WrittenFrame` is a frame with everything that its writer is free to choose: the form of its length
and the key of its mask.  Any choice is read as the same frame (`WrittenFrame.decode_bytes`), and
`Frame.encode` writes one of them, `WrittenFrame.served`, without a key and in the shortest form.
-/

namespace WebSocketEcho

/-! ## Big-endian numbers -/

theorem Bytes.toNat_append_singleton (bytes : Bytes) (b : UInt8) :
    Bytes.toNat (bytes ++ [b]) = 256 * Bytes.toNat bytes + b.toNat := by
  rw [Bytes.toNat, List.foldl_append]
  rfl

/-- What is written in enough bytes is read back. -/
theorem Bytes.toNat_ofNat {count value : Nat} (h : value < 256 ^ count) :
    Bytes.toNat (Bytes.ofNat count value) = value := by
  induction count generalizing value with
  | zero =>
    rw [Nat.pow_zero] at h
    have hzero : value = 0 := by omega
    rw [hzero]
    rfl
  | succ count ih =>
    have hdiv : value / 256 < 256 ^ count := by
      apply Nat.div_lt_of_lt_mul
      rw [← Nat.pow_succ']
      exact h
    have hlow : (UInt8.ofNat value).toNat = value % 256 := UInt8.toNat_ofNat'
    rw [Bytes.ofNat, Bytes.toNat_append_singleton, ih hdiv, hlow]
    omega

/-! ## Masks -/

/-- The four bytes that a payload is masked with. -/
structure MaskKey where
  bytes : Bytes
  length_bytes : bytes.length = 4

/-- A payload under a key: byte `i` is combined with byte `i` modulo 4. -/
def MaskKey.cover (key : MaskKey) (payload : Bytes) : Bytes :=
  payload.mapIdx fun i b => b ^^^ key.bytes.getD (i % 4) 0

@[simp] theorem MaskKey.length_cover (key : MaskKey) (payload : Bytes) :
    (key.cover payload).length = payload.length := List.length_mapIdx

/-- The key takes its own mask off. -/
theorem MaskKey.mask_cover (key : MaskKey) (payload : Bytes) :
    Frame.mask key.bytes (key.cover payload) = payload := by
  rw [Frame.mask_eq_mapIdx, cover, List.mapIdx_mapIdx]
  refine List.ext_getElem (by simp) fun i h₁ h₂ => ?_
  rw [List.getElem_mapIdx]
  dsimp only [Function.comp_apply]
  rw [UInt8.xor_assoc, UInt8.xor_self, UInt8.xor_zero]

/-! ## Lengths -/

/-- The three forms of a length. -/
inductive LengthForm where
  | seven
  | sixteen
  | sixtyFour
deriving DecidableEq, Repr

namespace LengthForm

/-- A form holds the lengths below this. -/
def limit : LengthForm → Nat
  | .seven => 126
  | .sixteen => 2 ^ 16
  | .sixtyFour => 2 ^ 64

/-- The seven bits of the header byte. -/
def bits (length : Nat) : LengthForm → Nat
  | .seven => length
  | .sixteen => 126
  | .sixtyFour => 127

/-- The bytes after it. -/
def extended (length : Nat) : LengthForm → Bytes
  | .seven => []
  | .sixteen => Bytes.ofNat 2 length
  | .sixtyFour => Bytes.ofNat 8 length

/-- The shortest form for a length. -/
def shortest (length : Nat) : LengthForm :=
  if length < limit .seven then .seven
  else if length < limit .sixteen then .sixteen
  else .sixtyFour

variable {length : Nat} {form : LengthForm}

theorem bits_lt (h : length < form.limit) : form.bits length < 128 := by
  cases form with
  | seven =>
    have hlt : length < 126 := h
    show length < 128
    omega
  | sixteen => show 126 < 128; omega
  | sixtyFour => show 127 < 128; omega

/-- The second header byte tells whether there is a key, and the seven bits. -/
theorem second_spec (masked : Bool) (h : length < form.limit) :
    let second := UInt8.ofNat ((if masked then 128 else 0) + form.bits length)
    decide (0x80 ≤ second) = masked ∧ second.toNat % 128 = form.bits length := by
  intro second
  have hbits := bits_lt h
  have hsecond : second.toNat = (if masked then 128 else 0) + form.bits length := by
    rw [UInt8.toNat_ofNat', Nat.mod_eq_of_lt]
    split <;> omega
  have hmasked : (0x80 ≤ second) ↔ masked = true := by
    rw [UInt8.le_iff_toNat_le, hsecond, show (0x80 : UInt8).toNat = 128 from rfl]
    split <;> simp_all
  refine ⟨?_, ?_⟩
  · rw [Bool.eq_iff_iff, decide_eq_true_iff]
    exact hmasked
  · rw [hsecond]
    split <;> omega

/-- The seven bits say how many bytes follow. -/
theorem extendedSize_bits (h : length < form.limit) :
    Frame.extendedSize (form.bits length) = (form.extended length).length := by
  cases form with
  | seven =>
    have hlt : length < 126 := h
    show Frame.extendedSize length = 0
    rw [Frame.extendedSize, if_neg (by omega), if_neg (by omega)]
  | sixteen => rw [extended, Bytes.length_ofNat]; rfl
  | sixtyFour => rw [extended, Bytes.length_ofNat]; rfl

/-- The length is read back from either place. -/
theorem read_length (h : length < form.limit) :
    (if form.bits length < 126 then form.bits length
      else Bytes.toNat (form.extended length)) = length := by
  cases form with
  | seven => exact if_pos h
  | sixteen =>
    rw [if_neg (by simp [bits]), extended]
    exact Bytes.toNat_ofNat h
  | sixtyFour =>
    rw [if_neg (by simp [bits]), extended]
    exact Bytes.toNat_ofNat h

theorem shortest_of_lt (h : length < 126) : shortest length = .seven := if_pos h

theorem shortest_of_le_of_lt (h : 126 ≤ length) (h' : length < 65536) :
    shortest length = .sixteen := by
  have hseven : ¬ length < limit .seven := Nat.not_lt.2 h
  rw [shortest, if_neg hseven]
  exact if_pos h'

theorem shortest_of_le (h : 65536 ≤ length) : shortest length = .sixtyFour := by
  have hseven : ¬ length < limit .seven := by
    show ¬ length < 126
    omega
  have hsixteen : ¬ length < limit .sixteen := Nat.not_lt.2 h
  rw [shortest, if_neg hseven, if_neg hsixteen]

/-- No form that holds a length is shorter than the shortest. -/
theorem length_extended_shortest_le (h : length < form.limit) :
    ((shortest length).extended length).length ≤ (form.extended length).length := by
  by_cases h₁ : length < 126
  · rw [shortest_of_lt h₁]
    exact Nat.zero_le _
  · by_cases h₂ : length < 65536
    · rw [shortest_of_le_of_lt (by omega) h₂]
      cases form with
      | seven => exact absurd h h₁
      | sixteen => exact Nat.le_refl _
      | sixtyFour =>
        rw [extended, extended, Bytes.length_ofNat, Bytes.length_ofNat]
        omega
    · rw [shortest_of_le (by omega)]
      cases form with
      | seven => exact absurd h h₁
      | sixteen => exact absurd h h₂
      | sixtyFour => exact Nat.le_refl _

end LengthForm

/-! ## Frames -/

/-- A frame with the choices of its writer. -/
structure WrittenFrame where
  fin : Bool
  opcode : Opcode
  /-- Masked with this key, or not at all. -/
  key : Option MaskKey
  form : LengthForm
  payload : Bytes

namespace WrittenFrame

/-- The first header byte, with no reserved bit. -/
def first (f : WrittenFrame) : UInt8 :=
  UInt8.ofNat ((if f.fin then 128 else 0) + f.opcode.number)

def second (f : WrittenFrame) : UInt8 :=
  UInt8.ofNat ((if f.key.isSome then 128 else 0) + f.form.bits f.payload.length)

/-- The payload as it travels, behind its key. -/
def body (f : WrittenFrame) : Bytes :=
  match f.key with
  | none => f.payload
  | some key => key.bytes ++ key.cover f.payload

def bytes (f : WrittenFrame) : Bytes :=
  f.first :: f.second :: (f.form.extended f.payload.length ++ f.body)

/-- What is read from it. -/
def frame (f : WrittenFrame) : Frame := ⟨f.fin, false, f.opcode, f.key.isSome, f.payload⟩

theorem first_spec (f : WrittenFrame) :
    decide (0x80 ≤ f.first) = f.fin ∧ f.first.toNat % 16 = f.opcode.number ∧
      f.first.toNat / 16 % 8 = 0 := by
  rw [first]
  cases f.fin <;> cases f.opcode <;> decide

theorem second_spec {f : WrittenFrame} (h : f.payload.length < f.form.limit) :
    decide (0x80 ≤ f.second) = f.key.isSome ∧
      f.second.toNat % 128 = f.form.bits f.payload.length :=
  LengthForm.second_spec f.key.isSome h

/-- The payload is read back, with its key or without one. -/
theorem decodePayload_cover {f : WrittenFrame} (taken rest : Bytes)
    (htaken : taken = (f.key.map (·.cover f.payload)).getD f.payload) :
    Frame.decodePayload f.first f.key.isSome ((f.key.map (·.bytes)).getD []) f.payload.length
      (taken ++ rest) = .frame f.frame rest := by
  obtain ⟨hfin, hopcode, hreserved⟩ := f.first_spec
  have hlength : taken.length = f.payload.length := by
    rw [htaken]
    cases f.key with
    | none => rfl
    | some key => exact key.length_cover f.payload
  rw [Frame.decodePayload, hopcode, Opcode.ofNumber?_number, ← hlength]
  dsimp only
  rw [Bytes.split?_length_append]
  dsimp only
  rw [hfin, hreserved, frame, htaken]
  cases f.key with
  | none => rfl
  | some key =>
    dsimp only [Option.map_some, Option.getD_some, Option.isSome_some]
    rw [if_pos rfl, key.mask_cover]
    rfl

/-- However a frame is written, it is read as what it is, and what follows it is left. -/
theorem decode_bytes {f : WrittenFrame} (h : f.payload.length < f.form.limit) (rest : Bytes) :
    Frame.decode (f.bytes ++ rest) = .frame f.frame rest := by
  obtain ⟨hmasked, hbits⟩ := second_spec h
  rw [bytes, List.cons_append, List.cons_append, Frame.decode]
  dsimp only
  rw [hmasked, hbits, LengthForm.extendedSize_bits h, List.append_assoc,
    Bytes.split?_length_append]
  dsimp only
  rw [LengthForm.read_length h]
  cases hkey : f.key with
  | none =>
    have hbody : f.body = [] ++ f.payload := by rw [body, hkey]; rfl
    have hpayload := decodePayload_cover (f := f) f.payload rest (by rw [hkey]; rfl)
    rw [hkey] at hpayload
    rw [hbody, List.append_assoc, if_neg (by simp)]
    exact hpayload
  | some key =>
    have hbody : f.body = key.bytes ++ key.cover f.payload := by rw [body, hkey]
    have hpayload := decodePayload_cover (f := f) (key.cover f.payload) rest (by rw [hkey]; rfl)
    rw [hkey] at hpayload
    rw [hbody, List.append_assoc, if_pos (by simp), ← key.length_bytes,
      Bytes.split?_length_append]
    exact hpayload

/-- A frame that is cut anywhere is not complete. -/
theorem decode_of_cut {f : WrittenFrame} (h : f.payload.length < f.form.limit) {read left : Bytes}
    (hcut : read ++ left = f.bytes) (hleft : left ≠ []) : Frame.decode read = .incomplete := by
  have hwhole : Frame.decode (read ++ left) = .frame f.frame [] := by
    rw [hcut, ← decode_bytes h [], List.append_nil]
  cases hread : Frame.decode read with
  | incomplete => rfl
  | reservedOpcode number =>
    rw [Frame.decode_append_of_reservedOpcode hread] at hwhole
    cases hwhole
  | frame g rest =>
    rw [Frame.decode_append_of_frame hread, Frame.Decoded.frame.injEq] at hwhole
    exact absurd (List.append_eq_nil_iff.1 hwhole.2).2 hleft

/-- The frame of a server: whole, not masked, in the shortest form. -/
def served (opcode : Opcode) (payload : Bytes) : WrittenFrame :=
  ⟨true, opcode, none, .shortest payload.length, payload⟩

/-- What `Frame.encode` writes. -/
theorem encode_eq (opcode : Opcode) (payload : Bytes) :
    Frame.encode opcode payload = (served opcode payload).bytes := by
  rw [Frame.encode, bytes, Frame.lengthField]
  have hfirst : (served opcode payload).first = UInt8.ofNat (128 + opcode.number) := rfl
  have hbody : (served opcode payload).body = payload := rfl
  have hsecond : (served opcode payload).second =
      UInt8.ofNat ((LengthForm.shortest payload.length).bits payload.length) := by
    rw [second, if_neg (by simp [served]), Nat.zero_add]
    rfl
  rw [hfirst, hbody, hsecond]
  show _ = _ :: _ :: ((LengthForm.shortest payload.length).extended payload.length ++ payload)
  by_cases h₁ : payload.length < 126
  · rw [if_pos h₁, LengthForm.shortest_of_lt h₁]
    rfl
  · rw [if_neg h₁]
    by_cases h₂ : payload.length < 65536
    · rw [if_pos h₂, LengthForm.shortest_of_le_of_lt (by omega) h₂]
      rfl
    · rw [if_neg h₂, LengthForm.shortest_of_le (by omega)]
      rfl

end WrittenFrame

end WebSocketEcho
