import WebSocketEcho.Bytes

/-!
# Frames

The base framing of WebSocket (RFC 6455, section 5.2).  `Frame.decode` reads one frame from the
front of a byte string; the opcode is judged as soon as the header is complete, everything else is
left to the session.  `Frame.encode` writes the frames of a server: unfragmented, unmasked, with
the shortest length form.
-/

namespace WebSocketEcho

/-- What a frame is for. -/
inductive Opcode where
  | continuation
  | text
  | binary
  | close
  | ping
  | pong
deriving DecidableEq, Repr, Inhabited

namespace Opcode

/-- The four bits of an opcode. -/
def number : Opcode → Nat
  | .continuation => 0
  | .text => 1
  | .binary => 2
  | .close => 8
  | .ping => 9
  | .pong => 10

/-- The opcode of four bits; the other numbers are reserved. -/
def ofNumber? : Nat → Option Opcode
  | 0 => some .continuation
  | 1 => some .text
  | 2 => some .binary
  | 8 => some .close
  | 9 => some .ping
  | 10 => some .pong
  | _ => none

theorem ofNumber?_number (o : Opcode) : ofNumber? o.number = some o := by
  cases o <;> rfl

end Opcode

/-- A frame as it was received, its payload unmasked. -/
structure Frame where
  fin : Bool
  reserved : Bool
  opcode : Opcode
  masked : Bool
  payload : Bytes
deriving DecidableEq, Repr

namespace Frame

/-- The result of reading one frame. -/
inductive Decoded where
  | incomplete
  /-- The header is complete and its opcode is reserved. -/
  | reservedOpcode (number : Nat)
  | frame (f : Frame) (rest : Bytes)
deriving Repr

/-- Masks bytes from place `i` on.  `done` holds those before, last first. -/
def maskFrom (key : Bytes) : Nat → Bytes → Bytes → Bytes
  | _, done, [] => done.reverse
  | i, done, b :: rest => maskFrom key (i + 1) ((b ^^^ key.getD (i % 4) 0) :: done) rest

/-- Masks or unmasks a payload: byte `i` is combined with byte `i` modulo 4 of the key. -/
def mask (key payload : Bytes) : Bytes := maskFrom key 0 [] payload

theorem maskFrom_eq (key : Bytes) (i : Nat) (done payload : Bytes) :
    maskFrom key i done payload =
      done.reverse ++ payload.mapIdx fun j b => b ^^^ key.getD ((i + j) % 4) 0 := by
  induction payload generalizing i done with
  | nil => simp [maskFrom]
  | cons b rest ih =>
    simp only [maskFrom, ih, List.mapIdx_cons, List.reverse_cons, List.append_assoc,
      List.singleton_append, Nat.add_zero]
    have hi : ∀ j, i + 1 + j = i + (j + 1) := by omega
    simp only [hi]

theorem mask_eq_mapIdx (key payload : Bytes) :
    mask key payload = payload.mapIdx fun i b => b ^^^ key.getD (i % 4) 0 := by
  simp [mask, maskFrom_eq]

/-- How many bytes of extended length the seven length bits announce. -/
def extendedSize (length7 : Nat) : Nat :=
  if length7 = 126 then 2 else if length7 = 127 then 8 else 0

/-- Reads the payload once the header is known. -/
def decodePayload (first : UInt8) (masked : Bool) (key : Bytes) (length : Nat) (rest : Bytes) :
    Decoded :=
  match Opcode.ofNumber? (first.toNat % 16) with
  | none => .reservedOpcode (first.toNat % 16)
  | some opcode =>
    match Bytes.split? length rest with
    | none => .incomplete
    | some (payload, rest) =>
      .frame
        { fin := 0x80 ≤ first
          reserved := first.toNat / 16 % 8 ≠ 0
          opcode
          masked
          payload := if masked then mask key payload else payload } rest

def decode : Bytes → Decoded
  | first :: second :: rest =>
    let masked := decide (0x80 ≤ second)
    let length7 := second.toNat % 128
    match Bytes.split? (extendedSize length7) rest with
    | none => .incomplete
    | some (extended, rest) =>
      match Bytes.split? (if masked then 4 else 0) rest with
      | none => .incomplete
      | some (key, rest) =>
        let length := if length7 < 126 then length7 else extended.toNat
        decodePayload first masked key length rest
  | _ => .incomplete

theorem length_le_of_split? {n : Nat} {bytes taken rest : Bytes}
    (h : Bytes.split? n bytes = some (taken, rest)) : rest.length ≤ bytes.length := by
  rw [Bytes.split?_eq] at h
  split at h
  · simp only [Option.some.injEq, Prod.mk.injEq] at h
    rw [← h.2, List.length_drop]
    omega
  · simp at h

theorem length_le_of_decodePayload {first : UInt8} {masked : Bool} {key : Bytes} {length : Nat}
    {bytes rest : Bytes} {f : Frame}
    (h : decodePayload first masked key length bytes = .frame f rest) :
    rest.length ≤ bytes.length := by
  unfold decodePayload at h
  split at h
  · simp at h
  · split at h
    · simp at h
    · rename_i hs
      simp only [Decoded.frame.injEq] at h
      rw [← h.2]
      exact length_le_of_split? hs

/-- A frame takes at least its two header bytes. -/
theorem length_lt_of_decode {bytes rest : Bytes} {f : Frame}
    (h : decode bytes = .frame f rest) : rest.length < bytes.length := by
  unfold decode at h
  split at h
  · dsimp only at h
    split at h
    · simp at h
    · rename_i hx
      split at h
      · simp at h
      · rename_i hk
        have hp := length_le_of_decodePayload h
        have hx := length_le_of_split? hx
        have hk := length_le_of_split? hk
        simp only [List.length_cons]
        omega
  · simp at h

/-- The second header byte and the extended length of an unmasked frame, in the shortest form. -/
def lengthField (length : Nat) : Bytes :=
  if length < 126 then [UInt8.ofNat length]
  else if length < 65536 then 126 :: Bytes.ofNat 2 length
  else 127 :: Bytes.ofNat 8 length

/-- The frame that a server sends for a whole message or a control message. -/
def encode (opcode : Opcode) (payload : Bytes) : Bytes :=
  UInt8.ofNat (128 + opcode.number) :: (lengthField payload.length ++ payload)

end Frame

end WebSocketEcho
