import Mathlib.Data.List.Induction
import WebSocketEcho.Proofs.Frame.Written

/-!
# Frames as they may arrive

A `ReceivedFrame` is any frame at all.  Its first byte is arbitrary, so reserved bits may be set and
the opcode may mean nothing, and it need not be masked.

A frame whose opcode has a meaning is read when it is complete (`ReceivedFrame.decode_bytes`), a
reserved opcode is reported at the end of the header (`FrameHeader.decode_of_reserved`), and nothing
before that (`Frame.decode_of_partial`).  There is no other input: whatever `Frame.decode` says, the
bytes are of the kind that makes it say so.  For input that is incomplete this is
`Frame.partial_of_incomplete`, which reads the input with more behind it.
-/

namespace WebSocketEcho

/-! ## Parts of a frame, from their bytes -/

theorem Bytes.split?_eq_some {n : Nat} {bytes taken rest : Bytes}
    (h : Bytes.split? n bytes = some (taken, rest)) : bytes = taken ++ rest ∧ taken.length = n := by
  rw [Bytes.split?_eq] at h
  split at h
  · rename_i hle
    cases h
    exact ⟨(List.take_append_drop n bytes).symm, List.length_take_of_le hle⟩
  · cases h

theorem Bytes.exists_append {n : Nat} {bytes : Bytes} (h : n ≤ bytes.length) :
    ∃ taken rest : Bytes, bytes = taken ++ rest ∧ taken.length = n :=
  ⟨_, _, (List.take_append_drop n bytes).symm, List.length_take_of_le h⟩

theorem Bytes.length_lt_of_split?_eq_none {n : Nat} {bytes : Bytes}
    (h : Bytes.split? n bytes = none) : bytes.length < n := by
  rw [Bytes.split?_eq] at h
  split at h
  · cases h
  · omega

theorem Bytes.toNat_lt (bytes : Bytes) : Bytes.toNat bytes < 256 ^ bytes.length := by
  induction bytes using List.reverseRecOn with
  | nil => exact Nat.one_pos
  | append_singleton bytes b ih =>
    have hb := b.toNat_lt
    rw [Bytes.toNat_append_singleton, List.length_append, List.length_singleton, Nat.pow_succ]
    omega

/-- The bytes of a number are those that spell it. -/
theorem Bytes.ofNat_toNat (bytes : Bytes) :
    Bytes.ofNat bytes.length (Bytes.toNat bytes) = bytes := by
  induction bytes using List.reverseRecOn with
  | nil => rfl
  | append_singleton bytes b ih =>
    have hb := b.toNat_lt
    have hhigh : (256 * Bytes.toNat bytes + b.toNat) / 256 = Bytes.toNat bytes := by omega
    have hlow : UInt8.ofNat (256 * Bytes.toNat bytes + b.toNat) = b := by
      apply UInt8.toNat_inj.1
      rw [UInt8.toNat_ofNat']
      omega
    rw [Bytes.toNat_append_singleton, List.length_append, List.length_singleton, Bytes.ofNat,
      hhigh, hlow, ih]

theorem MaskKey.cover_eq_mask (key : MaskKey) (payload : Bytes) :
    key.cover payload = Frame.mask key.bytes payload :=
  (Frame.mask_eq_mapIdx _ _).symm

/-- What is unmasked and masked again is what it was. -/
theorem MaskKey.cover_mask (key : MaskKey) (payload : Bytes) :
    key.cover (Frame.mask key.bytes payload) = payload := by
  rw [← key.cover_eq_mask, key.cover_eq_mask (key.cover payload), key.mask_cover]

/-! ## Headers -/

/-- A header, the length of the payload in any form that holds it. -/
structure FrameHeader where
  first : UInt8
  key : Option MaskKey
  form : LengthForm
  length : Nat
  fits : length < form.limit

namespace FrameHeader

/-- The top bit: this is the last fragment. -/
def fin (h : FrameHeader) : Bool := 0x80 ≤ h.first

/-- One of the three bits below it is set. -/
def reserved (h : FrameHeader) : Bool := h.first.toNat / 16 % 8 ≠ 0

def opcodeNumber (h : FrameHeader) : Nat := h.first.toNat % 16

/-- The opcode, unless its number is reserved. -/
def opcode? (h : FrameHeader) : Option Opcode := Opcode.ofNumber? h.opcodeNumber

def second (h : FrameHeader) : UInt8 :=
  UInt8.ofNat ((if h.key.isSome then 128 else 0) + h.form.bits h.length)

def keyBytes (h : FrameHeader) : Bytes := (h.key.map (·.bytes)).getD []

def bytes (h : FrameHeader) : Bytes :=
  h.first :: h.second :: (h.form.extended h.length ++ h.keyBytes)

theorem length_keyBytes (h : FrameHeader) :
    h.keyBytes.length = if h.key.isSome then 4 else 0 := by
  rw [keyBytes]
  cases h.key with
  | none => rfl
  | some key => exact key.length_bytes

/-- The second byte says how long a header is. -/
theorem length_bytes (h : FrameHeader) : h.bytes.length =
    2 + Frame.extendedSize (h.second.toNat % 128) + if 0x80 ≤ h.second then 4 else 0 := by
  obtain ⟨hmasked, hbits⟩ := LengthForm.second_spec h.key.isSome h.fits
  have hkey : (if 0x80 ≤ h.second then 4 else 0) = if h.key.isSome then 4 else 0 := by
    rw [← hmasked, second]
    simp only [decide_eq_true_eq]
  rw [second, hbits, LengthForm.extendedSize_bits h.fits, ← second, hkey, ← h.length_keyBytes,
    bytes, List.length_cons, List.length_cons, List.length_append]
  omega

/-- After a header comes the payload. -/
theorem decode_append (h : FrameHeader) (rest : Bytes) :
    Frame.decode (h.bytes ++ rest) =
      Frame.decodePayload h.first h.key.isSome h.keyBytes h.length rest := by
  obtain ⟨hmasked, hbits⟩ := LengthForm.second_spec h.key.isSome h.fits
  rw [bytes, List.cons_append, List.cons_append, Frame.decode, second]
  dsimp only
  rw [hmasked, hbits, LengthForm.extendedSize_bits h.fits, List.append_assoc,
    Bytes.split?_length_append]
  dsimp only
  rw [LengthForm.read_length h.fits, ← h.length_keyBytes, Bytes.split?_length_append]

/-- A reserved opcode is reported at the end of the header, whatever follows. -/
theorem decode_of_reserved {h : FrameHeader} (ho : h.opcode? = none) (rest : Bytes) :
    Frame.decode (h.bytes ++ rest) = .reservedOpcode h.opcodeNumber := by
  have ho' : Opcode.ofNumber? (h.first.toNat % 16) = none := ho
  rw [decode_append, Frame.decodePayload, ho']
  rfl

/-- No header is the beginning of another. -/
theorem rest_eq_nil {h h' : FrameHeader} {rest : Bytes} (heq : h.bytes ++ rest = h'.bytes) :
    rest = [] := by
  have hsecond : h.second = h'.second := by
    rw [bytes, bytes, List.cons_append, List.cons_append] at heq
    exact (List.cons.inj (List.cons.inj heq).2).1
  have hlength := congrArg List.length heq
  rw [List.length_append, length_bytes, length_bytes, hsecond] at hlength
  exact List.length_eq_zero_iff.1 (by omega)

end FrameHeader

/-! ## Frames -/

/-- A header with a payload of the length that it tells. -/
structure ReceivedFrame where
  header : FrameHeader
  payload : Bytes
  length_payload : payload.length = header.length

namespace ReceivedFrame

/-- The payload as it travels. -/
def covered (f : ReceivedFrame) : Bytes :=
  (f.header.key.map (·.cover f.payload)).getD f.payload

def bytes (f : ReceivedFrame) : Bytes := f.header.bytes ++ f.covered

/-- What is read from it. -/
def frame (f : ReceivedFrame) (o : Opcode) : Frame :=
  ⟨f.header.fin, f.header.reserved, o, f.header.key.isSome, f.payload⟩

theorem length_covered (f : ReceivedFrame) : f.covered.length = f.header.length := by
  rw [← f.length_payload, covered]
  cases f.header.key with
  | none => rfl
  | some key => exact key.length_cover f.payload

/-- A frame is read as what it is, and what follows it is left. -/
theorem decode_bytes {f : ReceivedFrame} {o : Opcode} (ho : f.header.opcode? = some o)
    (rest : Bytes) : Frame.decode (f.bytes ++ rest) = .frame (f.frame o) rest := by
  have ho' : Opcode.ofNumber? (f.header.first.toNat % 16) = some o := ho
  rw [bytes, List.append_assoc, FrameHeader.decode_append, Frame.decodePayload, ho',
    ← f.length_covered]
  dsimp only
  rw [Bytes.split?_length_append]
  dsimp only
  rw [frame, covered, FrameHeader.keyBytes]
  cases f.header.key with
  | none => rfl
  | some key =>
    dsimp only [Option.map_some, Option.getD_some, Option.isSome_some]
    rw [if_pos rfl, key.mask_cover]
    rfl

end ReceivedFrame

/-! ## The ends of an input -/

/-- Input that stops before there is anything to report: inside a frame, or, when its opcode is
reserved, inside its header.  Nothing at all is such input. -/
inductive Partial : Bytes → Prop where
  | frame (f : ReceivedFrame) (hf : f.header.opcode?.isSome) {tail more : Bytes}
      (htail : tail ++ more = f.bytes) (hmore : more ≠ []) : Partial tail
  | header (h : FrameHeader) (hh : h.opcode? = none) {tail more : Bytes}
      (htail : tail ++ more = h.bytes) (hmore : more ≠ []) : Partial tail

namespace Frame

variable {bytes rest tail : Bytes} {f : Frame}

/-- The seven bits and the bytes that they announce are a length in one of the forms. -/
theorem exists_form {bits : Nat} (hbits : bits < 128) {extended : Bytes}
    (hextended : extended.length = extendedSize bits) :
    ∃ (form : LengthForm) (length : Nat),
      length < form.limit ∧ form.bits length = bits ∧ form.extended length = extended := by
  have hlt := Bytes.toNat_lt extended
  have hback := Bytes.ofNat_toNat extended
  by_cases h₁ : bits < 126
  · have hsize : extendedSize bits = 0 := by
      rw [extendedSize, if_neg (by omega), if_neg (by omega)]
    rw [hsize] at hextended
    exact ⟨.seven, bits, h₁, rfl, (List.length_eq_zero_iff.1 hextended).symm⟩
  by_cases h₂ : bits = 126
  · have hsize : extendedSize bits = 2 := if_pos h₂
    rw [hextended, hsize] at hlt hback
    exact ⟨.sixteen, extended.toNat, hlt, h₂.symm, hback⟩
  · have h₃ : bits = 127 := by omega
    have hsize : extendedSize bits = 8 := by rw [h₃]; rfl
    rw [hextended, hsize] at hlt hback
    exact ⟨.sixtyFour, extended.toNat, hlt, h₃.symm, hback⟩

/-- The bytes behind the length are a key, if there is one. -/
theorem exists_key {masked : Bool} {bytes : Bytes}
    (hbytes : bytes.length = if masked then 4 else 0) :
    ∃ key : Option MaskKey, key.isSome = masked ∧ (key.map (·.bytes)).getD [] = bytes := by
  cases masked with
  | false => exact ⟨none, rfl, (List.length_eq_zero_iff.1 hbytes).symm⟩
  | true => exact ⟨some ⟨bytes, hbytes⟩, rfl, rfl⟩

theorem exists_header_of_parts (first second : UInt8) {extended key : Bytes}
    (hextended : extended.length = extendedSize (second.toNat % 128))
    (hkey : key.length = if decide (0x80 ≤ second) then 4 else 0) :
    ∃ h : FrameHeader, h.bytes = first :: second :: (extended ++ key) := by
  obtain ⟨form, length, hfits, hbits, rfl⟩ := exists_form (Nat.mod_lt _ (by omega)) hextended
  obtain ⟨key, hmasked, rfl⟩ := exists_key hkey
  have hsecond : UInt8.ofNat ((if key.isSome then 128 else 0) + form.bits length) = second := by
    have hlt := second.toNat_lt
    apply UInt8.toNat_inj.1
    rw [UInt8.toNat_ofNat', hmasked, hbits]
    by_cases h : 0x80 ≤ second
    · have hle : 128 ≤ second.toNat := UInt8.le_iff_toNat_le.1 h
      rw [if_pos (decide_eq_true h)]
      omega
    · have hlt : ¬ 128 ≤ second.toNat := fun hle => h (UInt8.le_iff_toNat_le.2 hle)
      rw [if_neg (by rw [decide_eq_true_eq]; exact h)]
      omega
  refine ⟨⟨first, key, form, length, hfits⟩, ?_⟩
  rw [FrameHeader.bytes, FrameHeader.second, hsecond]
  rfl

/-- What is not incomplete begins with a whole header. -/
theorem exists_header_of_decode (hd : decode bytes ≠ .incomplete) :
    ∃ (h : FrameHeader) (rest : Bytes), bytes = h.bytes ++ rest := by
  unfold decode at hd
  split at hd
  case h_2 => exact absurd rfl hd
  rename_i first second tail
  dsimp only at hd
  split at hd
  case h_1 => exact absurd rfl hd
  rename_i extended afterLength hextended
  split at hd
  case h_1 => exact absurd rfl hd
  rename_i key rest hkey
  obtain ⟨rfl, hlength⟩ := Bytes.split?_eq_some hextended
  obtain ⟨rfl, hlength'⟩ := Bytes.split?_eq_some hkey
  obtain ⟨h, hh⟩ := exists_header_of_parts first second hlength hlength'
  refine ⟨h, rest, ?_⟩
  rw [hh, List.cons_append, List.cons_append, List.append_assoc]

/-- A reserved opcode is one of a header at the front. -/
theorem exists_header_of_reservedOpcode {number : Nat} (hd : decode bytes = .reservedOpcode number) :
    ∃ (h : FrameHeader) (rest : Bytes), h.opcode? = none ∧ bytes = h.bytes ++ rest := by
  have hne : decode bytes ≠ .incomplete := by
    rw [hd]
    simp
  obtain ⟨h, rest, rfl⟩ := exists_header_of_decode hne
  refine ⟨h, rest, ?_, rfl⟩
  rw [h.decode_append, decodePayload] at hd
  split at hd
  · assumption
  · split at hd <;> cases hd

/-- What is read is a frame at the front. -/
theorem exists_received_of_decode (hd : decode bytes = .frame f rest) :
    ∃ (g : ReceivedFrame) (o : Opcode), g.header.opcode? = some o ∧ bytes = g.bytes ++ rest := by
  have hne : decode bytes ≠ .incomplete := by
    rw [hd]
    simp
  obtain ⟨h, tail, rfl⟩ := exists_header_of_decode hne
  rw [h.decode_append, decodePayload] at hd
  split at hd
  · cases hd
  · rename_i o ho
    split at hd
    · cases hd
    · rename_i payload _ hsplit
      cases hd
      obtain ⟨rfl, hlength⟩ := Bytes.split?_eq_some hsplit
      obtain ⟨clear, hclear, hcover⟩ : ∃ clear : Bytes, clear.length = h.length ∧
          (h.key.map (·.cover clear)).getD clear = payload := by
        cases h.key with
        | none => exact ⟨payload, hlength, rfl⟩
        | some key =>
          refine ⟨mask key.bytes payload, ?_, key.cover_mask _⟩
          rw [← key.cover_eq_mask, key.length_cover, hlength]
      refine ⟨⟨h, clear, hclear⟩, o, ho, ?_⟩
      rw [ReceivedFrame.bytes, ReceivedFrame.covered, hcover, List.append_assoc]

/-- Nothing is reported before its time. -/
theorem decode_of_partial (h : Partial tail) : decode tail = .incomplete := by
  cases h with
  | frame f hf htail hmore =>
    rename_i more
    obtain ⟨o, ho⟩ := Option.isSome_iff_exists.1 hf
    have hwhole := ReceivedFrame.decode_bytes ho []
    rw [List.append_nil, ← htail] at hwhole
    cases hd : decode tail with
    | incomplete => rfl
    | reservedOpcode number =>
      rw [decode_append_of_reservedOpcode hd] at hwhole
      cases hwhole
    | frame g rest =>
      rw [decode_append_of_frame hd] at hwhole
      exact absurd (List.append_eq_nil_iff.1 (Decoded.frame.inj hwhole).2).2 hmore
  | header h hh htail hmore =>
    refine Classical.byContradiction fun hd => ?_
    obtain ⟨h', rest, rfl⟩ := exists_header_of_decode hd
    rw [List.append_assoc] at htail
    exact hmore (List.append_eq_nil_iff.1 (FrameHeader.rest_eq_nil htail)).2

/-! ## All inputs -/

/-- Fourteen bytes hold any header. -/
theorem exists_header_of_length (hlong : 14 ≤ bytes.length) :
    ∃ (h : FrameHeader) (rest : Bytes), bytes = h.bytes ++ rest := by
  match bytes, hlong with
  | first :: second :: tail, hlong =>
    rw [List.length_cons, List.length_cons] at hlong
    have hsize : extendedSize (second.toNat % 128) ≤ 8 := by
      rw [extendedSize]
      split
      · omega
      · split <;> omega
    have hkey : (if decide (0x80 ≤ second) then 4 else 0) ≤ 4 := by split <;> omega
    obtain ⟨extended, afterLength, rfl, hextended⟩ :=
      Bytes.exists_append (show extendedSize (second.toNat % 128) ≤ tail.length by omega)
    rw [List.length_append] at hlong
    obtain ⟨key, rest, rfl, hlength⟩ := Bytes.exists_append
      (show (if decide (0x80 ≤ second) then 4 else 0) ≤ afterLength.length by omega)
    obtain ⟨h, hh⟩ := exists_header_of_parts first second hextended hlength
    refine ⟨h, rest, ?_⟩
    rw [hh, List.cons_append, List.cons_append, List.append_assoc]

/-- Input that is long enough is not incomplete. -/
theorem decode_ne_incomplete (hlong : 14 + 2 ^ 64 ≤ bytes.length) :
    decode bytes ≠ .incomplete := by
  intro hd
  have hheader : 14 ≤ bytes.length := by omega
  obtain ⟨h, rest, rfl⟩ := exists_header_of_length hheader
  rw [h.decode_append, decodePayload] at hd
  split at hd
  · cases hd
  · split at hd
    · rename_i hsplit
      have hshort := Bytes.length_lt_of_split?_eq_none hsplit
      have hlimit : h.length < 2 ^ 64 := by
        have hfits := h.fits
        cases hform : h.form <;> rw [hform] at hfits
        · exact Nat.lt_trans hfits (by decide)
        · exact Nat.lt_trans hfits (by decide)
        · exact hfits
      have hheader : h.bytes.length ≤ 14 := by
        rw [h.length_bytes, extendedSize]
        repeat' split
        all_goals omega
      rw [List.length_append] at hlong
      omega
    · cases hd

/-- What is incomplete stops inside a frame or a header. -/
theorem partial_of_incomplete (hd : decode bytes = .incomplete) : Partial bytes := by
  -- More input makes it a header or a frame, which is not all there yet.
  have hmore : decode (bytes ++ List.replicate (14 + 2 ^ 64) 0) ≠ .incomplete :=
    decode_ne_incomplete (by rw [List.length_append, List.length_replicate]; omega)
  cases hwhole : decode (bytes ++ List.replicate (14 + 2 ^ 64) 0) with
  | incomplete => exact absurd hwhole hmore
  | reservedOpcode number =>
    obtain ⟨h, rest, hh, heq⟩ := exists_header_of_reservedOpcode hwhole
    rcases List.append_eq_append_iff.1 heq with ⟨more, hbytes, _⟩ | ⟨more, hbytes, _⟩
    · refine .header h hh hbytes.symm fun hnil => ?_
      rw [hnil, List.append_nil] at hbytes
      rw [← hbytes, ← List.append_nil h.bytes, FrameHeader.decode_of_reserved hh] at hd
      cases hd
    · rw [hbytes, FrameHeader.decode_of_reserved hh] at hd
      cases hd
  | frame f rest =>
    obtain ⟨g, o, ho, heq⟩ := exists_received_of_decode hwhole
    rcases List.append_eq_append_iff.1 heq with ⟨more, hbytes, _⟩ | ⟨more, hbytes, _⟩
    · refine .frame g (by rw [ho]; rfl) hbytes.symm fun hnil => ?_
      rw [hnil, List.append_nil] at hbytes
      rw [← hbytes, ← List.append_nil g.bytes, ReceivedFrame.decode_bytes ho] at hd
      cases hd
    · rw [hbytes, ReceivedFrame.decode_bytes ho] at hd
      cases hd

end Frame

end WebSocketEcho
