import WebSocketEcho.Frame

/-!
# Decoding and what follows

`Frame.decode` looks at no more bytes than it needs.  A frame that is complete is the same frame
whatever comes after it, and a reserved opcode is reported from the header alone.  These two facts
are all that the reading of a session knows about cuts in its input.
-/

namespace WebSocketEcho

theorem Bytes.split?_append {n : Nat} {bytes taken rest : Bytes}
    (h : Bytes.split? n bytes = some (taken, rest)) (more : Bytes) :
    Bytes.split? n (bytes ++ more) = some (taken, rest ++ more) := by
  rw [Bytes.split?_eq] at h ⊢
  split at h
  · rename_i hle
    simp only [Option.some.injEq, Prod.mk.injEq] at h
    obtain ⟨rfl, rfl⟩ := h
    rw [if_pos (by rw [List.length_append]; omega), List.take_append_of_le_length hle,
      List.drop_append_of_le_length hle]
  · cases h

/-- A stated length is found in front of anything. -/
theorem Bytes.split?_length_append (taken rest : Bytes) :
    Bytes.split? taken.length (taken ++ rest) = some (taken, rest) := by
  rw [Bytes.split?_eq, if_pos (by rw [List.length_append]; omega), List.take_left', List.drop_left']
  · rfl
  · rfl

namespace Frame

variable {first : UInt8} {masked : Bool} {key bytes rest : Bytes} {length : Nat} {f : Frame}

theorem decodePayload_append_of_frame
    (h : decodePayload first masked key length bytes = .frame f rest) (more : Bytes) :
    decodePayload first masked key length (bytes ++ more) = .frame f (rest ++ more) := by
  unfold decodePayload at h ⊢
  split at h
  · cases h
  · split at h
    · cases h
    · rename_i hs
      cases h
      rw [Bytes.split?_append hs]

theorem decodePayload_append_of_reservedOpcode {number : Nat}
    (h : decodePayload first masked key length bytes = .reservedOpcode number) (more : Bytes) :
    decodePayload first masked key length (bytes ++ more) = .reservedOpcode number := by
  unfold decodePayload at h ⊢
  split at h
  · exact h
  · split at h <;> cases h

/-- What decodes a header and goes on with the payload has found all of the header. -/
theorem decode_append_aux {d : Decoded} (h : decode bytes = d) (hd : d ≠ .incomplete)
    (more : Bytes) :
    ∃ first masked key length rest, decodePayload first masked key length rest = d ∧
      decode (bytes ++ more) = decodePayload first masked key length (rest ++ more) := by
  unfold decode at h
  split at h
  · rename_i first second tail
    dsimp only at h
    split at h
    · exact absurd h.symm hd
    · rename_i extended afterLength hx
      split at h
      · exact absurd h.symm hd
      · rename_i key afterKey hk
        refine ⟨_, _, _, _, _, h, ?_⟩
        rw [List.cons_append, List.cons_append, decode]
        dsimp only
        rw [Bytes.split?_append hx]
        dsimp only
        rw [Bytes.split?_append hk]
  · exact absurd h.symm hd

/-- A frame is the same in front of anything. -/
theorem decode_append_of_frame (h : decode bytes = .frame f rest) (more : Bytes) :
    decode (bytes ++ more) = .frame f (rest ++ more) := by
  obtain ⟨_, _, _, _, _, hp, hm⟩ := decode_append_aux h (by simp) more
  rw [hm]
  exact decodePayload_append_of_frame hp more

/-- A reserved opcode is reported whatever follows the header. -/
theorem decode_append_of_reservedOpcode {number : Nat} (h : decode bytes = .reservedOpcode number)
    (more : Bytes) : decode (bytes ++ more) = .reservedOpcode number := by
  obtain ⟨_, _, _, _, _, hp, hm⟩ := decode_append_aux h (by simp) more
  rw [hm]
  exact decodePayload_append_of_reservedOpcode hp more

end Frame

end WebSocketEcho
