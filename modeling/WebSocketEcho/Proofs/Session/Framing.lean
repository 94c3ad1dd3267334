import WebSocketEcho.Proofs.Session.Conversation

/-!
# Framing loses nothing

The frames of a client and those of the server, each as it is written and as it is read back.  A
client chooses the key and the form of the length; the server has no choice, since it masks nothing
and takes the shortest form (`LengthForm.isShortest_iff` says which that is).

`ReadsBack` is what any written frame is to its reader, also when it is cut: nothing is read before
the frame is complete, and a session keeps what it has got of it.  `exists_append_of_flatMap_bytes`
is the step from single frames to an output: it takes the replies off its front one by one, each of
them known from its frame (`Reply.eq_of_frame_eq`).
-/

namespace WebSocketEcho

/-! ## The shortest form -/

namespace LengthForm

/-- A form that holds a length, and no form that does is shorter. -/
structure IsShortest (form : LengthForm) (length : Nat) : Prop where
  holds : length < form.limit
  least : ∀ other : LengthForm, length < other.limit →
    (form.extended length).length ≤ (other.extended length).length

/-- The lengths for which a form is the shortest. -/
def IsFor (length : Nat) : LengthForm → Prop
  | .seven => length ≤ 125
  | .sixteen => 126 ≤ length ∧ length ≤ 65535
  | .sixtyFour => 65536 ≤ length ∧ length < 2 ^ 64

variable {length : Nat} {form : LengthForm}

theorem shortest_of_isFor (h : form.IsFor length) : shortest length = form := by
  cases form with
  | seven => exact shortest_of_lt (Nat.lt_succ_of_le h)
  | sixteen => exact shortest_of_le_of_lt h.1 (Nat.lt_succ_of_le h.2)
  | sixtyFour => exact shortest_of_le h.1

theorem lt_limit_of_isFor (h : form.IsFor length) : length < form.limit := by
  cases form with
  | seven => exact Nat.lt_succ_of_le h
  | sixteen => exact Nat.lt_succ_of_le h.2
  | sixtyFour => exact h.2

theorem exists_isFor (h : length < 2 ^ 64) : ∃ form : LengthForm, form.IsFor length := by
  by_cases h₁ : length ≤ 125
  · exact ⟨.seven, h₁⟩
  · by_cases h₂ : length ≤ 65535
    · exact ⟨.sixteen, by omega, h₂⟩
    · exact ⟨.sixtyFour, by omega, h⟩

theorem limit_le (form : LengthForm) : form.limit ≤ 2 ^ 64 := by
  cases form <;> decide

/-- Forms of one size are one form. -/
theorem eq_of_length_extended_eq {other : LengthForm}
    (h : (form.extended length).length = (other.extended length).length) : form = other := by
  cases form <;> cases other <;> simp [extended] at h ⊢

/-- The forms change at 126 and at 65536. -/
theorem isShortest_iff : form.IsShortest length ↔ form.IsFor length := by
  constructor
  · intro h
    obtain ⟨other, hother⟩ := exists_isFor (Nat.lt_of_lt_of_le h.holds form.limit_le)
    have hle := h.least other (lt_limit_of_isFor hother)
    have hge := length_extended_shortest_le h.holds
    rw [shortest_of_isFor hother] at hge
    rwa [eq_of_length_extended_eq (Nat.le_antisymm hle hge)]
  · intro h
    refine ⟨lt_limit_of_isFor h, fun other hother => ?_⟩
    have hle := length_extended_shortest_le hother
    rwa [shortest_of_isFor h] at hle

end LengthForm

/-! ## One frame -/

/-- What a written frame is to its reader. -/
structure WrittenFrame.ReadsBack (f : WrittenFrame) : Prop where
  /-- It is read as what it is, and what follows it is left. -/
  whole : ∀ rest, Frame.decode (f.bytes ++ rest) = .frame f.frame rest
  /-- Of a part of it nothing is read. -/
  cut : ∀ {read left : Bytes}, read ++ left = f.bytes → left ≠ [] →
    Frame.decode read = .incomplete
  /-- A session waits with such a part and goes on as if it had come with the rest. -/
  kept : ∀ (gathering : Option Gathering) (echoed : UInt64) {read left : Bytes} (rest : Bytes),
    read ++ left = f.bytes → left ≠ [] →
      Session.feed ⟨[], gathering, echoed⟩ read = ([], .waiting ⟨read, gathering, echoed⟩) ∧
      Session.feed ⟨read, gathering, echoed⟩ (left ++ rest) =
        Session.feed ⟨[], gathering, echoed⟩ (f.bytes ++ rest)

theorem WrittenFrame.readsBack {f : WrittenFrame} (h : f.payload.length < f.form.limit) :
    f.ReadsBack where
  whole := decode_bytes h
  cut := decode_of_cut h
  kept := by
    intro gathering echoed read left rest hcut hleft
    constructor
    · exact Session.consume_of_incomplete (decode_of_cut h hcut hleft)
    · show Session.consume gathering echoed (read ++ (left ++ rest)) [] =
        Session.consume gathering echoed ([] ++ (f.bytes ++ rest)) []
      rw [← List.append_assoc, hcut, List.nil_append]

/-- The bytes of a frame as a server is to write it: whole, without a key, its length in the
shortest form. -/
def IsServed (opcode : Opcode) (payload written : Bytes) : Prop :=
  ∃ form : LengthForm, form.IsShortest payload.length ∧
    written = UInt8.ofNat (128 + opcode.number) :: UInt8.ofNat (form.bits payload.length) ::
      (form.extended payload.length ++ payload)

theorem lt_limit_shortest {length : Nat} (h : length < 2 ^ 64) :
    length < (LengthForm.shortest length).limit := by
  obtain ⟨form, hform⟩ := LengthForm.exists_isFor h
  rw [LengthForm.shortest_of_isFor hform]
  exact LengthForm.lt_limit_of_isFor hform

theorem isServed_encode (opcode : Opcode) {payload : Bytes} (h : payload.length < 2 ^ 64) :
    IsServed opcode payload (Frame.encode opcode payload) := by
  obtain ⟨form, hform⟩ := LengthForm.exists_isFor h
  refine ⟨form, LengthForm.isShortest_iff.2 hform, ?_⟩
  rw [WrittenFrame.encode_eq, ← LengthForm.shortest_of_isFor hform]
  simp [WrittenFrame.served, WrittenFrame.bytes, WrittenFrame.first, WrittenFrame.second,
    WrittenFrame.body]

/-! ## The output -/

/-- A reply whose payload has a length that a frame can tell. -/
def Reply.Fits (r : Reply) : Prop := r.frame.payload.length < 2 ^ 64

theorem CloseCode.eq_of_bytes_eq {c d : CloseCode} (h : c.bytes = d.bytes) : c = d := by
  have hlt : ∀ c : CloseCode, c.number.toNat < 256 ^ 2 := fun c => c.number.toNat_lt
  have hnumber : c.number.toNat = d.number.toNat := by
    rw [← Bytes.toNat_ofNat (hlt c), ← Bytes.toNat_ofNat (hlt d)]
    exact congrArg Bytes.toNat h
  cases c
  cases d
  exact congrArg CloseCode.mk (UInt16.toNat_inj.1 hnumber)

theorem Farewell.eq_of_payload_eq {f g : Farewell} (h : f.payload = g.payload) : f = g := by
  have hlength : ∀ c : CloseCode, c.bytes.length = 2 := fun c => Bytes.length_ofNat 2 _
  obtain ⟨hcode, hreason⟩ :=
    List.append_inj h (show f.code.bytes.length = g.code.bytes.length by rw [hlength, hlength])
  cases f
  cases g
  rw [Farewell.mk.injEq]
  exact ⟨CloseCode.eq_of_bytes_eq hcode, hreason⟩

/-- A farewell is not the empty one. -/
theorem Farewell.payload_ne_nil (f : Farewell) : f.payload ≠ [] := by
  intro h
  have hlength := congrArg List.length h
  rw [payload, List.length_append, CloseCode.bytes, Bytes.length_ofNat, List.length_nil] at hlength
  omega

/-- Two answers to close frames with one payload are the same. -/
theorem Farewell.eq_of_option_payload_eq {f g : Option Farewell}
    (h : (f.map payload).getD [] = (g.map payload).getD []) : f = g := by
  cases f with
  | none =>
    cases g with
    | none => rfl
    | some g => exact absurd h.symm g.payload_ne_nil
  | some f =>
    cases g with
    | none => exact absurd h f.payload_ne_nil
    | some g => rw [eq_of_payload_eq (show f.payload = g.payload from h)]

theorem Reply.frame_close (f : Option Farewell) :
    (Reply.close f).frame = .served .close ((f.map Farewell.payload).getD []) := by
  cases f <;> rfl

theorem Kind.eq_of_opcode_eq {kind other : Kind} (h : kind.opcode = other.opcode) :
    kind = other := by
  cases kind <;> cases other <;> simp_all [Kind.opcode]

/-- A reply is known from its frame. -/
theorem Reply.eq_of_frame_eq {r t : Reply} (h : r.frame.frame = t.frame.frame) : r = t := by
  have hopcode : r.frame.opcode = t.frame.opcode := congrArg Frame.opcode h
  have hpayload : r.frame.payload = t.frame.payload := congrArg Frame.payload h
  cases r with
  | echo kind payload =>
    cases t with
    | echo kind' payload' =>
      rw [Kind.eq_of_opcode_eq (show kind.opcode = kind'.opcode from hopcode),
        show payload = payload' from hpayload]
    | pong _ => cases kind <;> cases hopcode
    | close f =>
      rw [frame_close] at hopcode
      cases kind <;> cases hopcode
  | pong payload =>
    cases t with
    | echo kind _ => cases kind <;> cases hopcode
    | pong payload' => exact congrArg Reply.pong hpayload
    | close f =>
      rw [frame_close] at hopcode
      cases hopcode
  | close f =>
    cases t with
    | echo kind _ =>
      rw [frame_close] at hopcode
      cases kind <;> cases hopcode
    | pong _ =>
      rw [frame_close] at hopcode
      cases hopcode
    | close g =>
      rw [frame_close, frame_close] at hpayload
      rw [Farewell.eq_of_option_payload_eq hpayload]

theorem Reply.readsBack {r : Reply} (h : r.Fits) : r.frame.ReadsBack := by
  apply WrittenFrame.readsBack
  have hform : r.frame.form = .shortest r.frame.payload.length := by
    cases r with
    | echo => rfl
    | pong => rfl
    | close f =>
      rw [frame_close]
      rfl
  rw [hform]
  exact lt_limit_shortest h

/-- The first of two replies is known from what is sent. -/
theorem Reply.eq_of_bytes_append_eq {r t : Reply} (hr : r.Fits) (ht : t.Fits) {more rest : Bytes}
    (h : r.bytes ++ more = t.bytes ++ rest) : r = t ∧ more = rest := by
  have hread := (readsBack hr).whole more
  rw [← r.bytes_eq, h, t.bytes_eq, (readsBack ht).whole rest, Frame.Decoded.frame.injEq] at hread
  exact ⟨eq_of_frame_eq hread.1.symm, hread.2.symm⟩

/-- What is sent tells the replies, also while more is to come. -/
theorem isPrefix_of_flatMap_bytes {replies others : List Reply} (hr : ∀ r ∈ replies, r.Fits)
    (ho : ∀ r ∈ others, r.Fits)
    (h : replies.flatMap Reply.bytes <+: others.flatMap Reply.bytes) : replies <+: others := by
  induction replies generalizing others with
  | nil => exact List.nil_prefix
  | cons r replies ih =>
    obtain ⟨more, hmore⟩ := h
    rw [List.flatMap_cons, List.append_assoc] at hmore
    cases others with
    | nil =>
      rw [List.flatMap_nil, r.bytes_eq] at hmore
      cases hmore
    | cons t others =>
      rw [List.flatMap_cons] at hmore
      obtain ⟨rfl, hrest⟩ :=
        Reply.eq_of_bytes_append_eq (hr r List.mem_cons_self) (ho t List.mem_cons_self) hmore
      rw [List.cons_prefix_cons]
      exact ⟨rfl, ih (fun u hu => hr u (List.mem_cons_of_mem r hu))
        (fun u hu => ho u (List.mem_cons_of_mem r hu)) ⟨more, hrest⟩⟩

/-- Frames of clients are read back, whatever the client chose; the frames of the server have the
only form that the server may choose, and are read back; and the output of the server tells what it
has sent, from its first reply on. -/
theorem framing_invertible :
    (∀ (fin : Bool) (opcode : Opcode) (key : MaskKey) (form : LengthForm) (payload : Bytes),
      payload.length < form.limit →
        (WrittenFrame.mk fin opcode (some key) form payload).ReadsBack) ∧
    (∀ length form, LengthForm.IsShortest form length ↔ form.IsFor length) ∧
    (∀ (kind : Kind) (payload : Bytes), payload.length < 2 ^ 64 →
      IsServed kind.opcode payload (Reply.echo kind payload).bytes ∧
      ∀ rest, Frame.decode ((Reply.echo kind payload).bytes ++ rest) =
        .frame ⟨true, false, kind.opcode, false, payload⟩ rest) ∧
    (∀ replies others : List Reply, (∀ r ∈ replies, r.Fits) → (∀ r ∈ others, r.Fits) →
      (replies.flatMap Reply.bytes = others.flatMap Reply.bytes ↔ replies = others) ∧
      (replies.flatMap Reply.bytes <+: others.flatMap Reply.bytes ↔ replies <+: others)) := by
  refine ⟨fun fin opcode key form payload hfits => WrittenFrame.readsBack hfits,
    fun length form => LengthForm.isShortest_iff, ?_, ?_⟩
  · intro kind payload hlength
    refine ⟨isServed_encode kind.opcode hlength, fun rest => ?_⟩
    rw [Reply.bytes_eq]
    exact (Reply.readsBack (r := .echo kind payload) hlength).whole rest
  · intro replies others hr ho
    have hprefix : replies.flatMap Reply.bytes <+: others.flatMap Reply.bytes ↔
        replies <+: others := by
      refine ⟨isPrefix_of_flatMap_bytes hr ho, ?_⟩
      rintro ⟨more, rfl⟩
      rw [List.flatMap_append]
      exact List.prefix_append _ _
    refine ⟨⟨fun h => ?_, fun h => by rw [h]⟩, hprefix⟩
    have hfront := hprefix.1 (h ▸ List.prefix_rfl)
    have hback := isPrefix_of_flatMap_bytes ho hr (h ▸ List.prefix_rfl)
    exact hfront.eq_of_length_le hback.length_le

/-- A client may take eight bytes for a length of 126, and the server takes two. -/
theorem wideLength_invertible :
    let payload : Bytes := List.replicate 126 0xA5
    let replies := [Reply.echo .text payload, .pong [0x01], .close none]
    (payload.length < LengthForm.limit .sixtyFour ∧
      (WrittenFrame.mk false .text (some ⟨[1, 2, 3, 4], rfl⟩) .sixtyFour payload).ReadsBack) ∧
    (payload.length < 2 ^ 64 ∧ IsServed .text payload (Reply.echo .text payload).bytes) ∧
    (∀ r ∈ replies, r.Fits) ∧ (∀ r ∈ replies.reverse, r.Fits) ∧
    (replies.flatMap Reply.bytes <+: replies.reverse.flatMap Reply.bytes ↔
      replies <+: replies.reverse) := by
  intro payload replies
  obtain ⟨hclient, _, hserver, houtput⟩ := framing_invertible
  have hlength : payload.length < 2 ^ 64 := by simp [payload]
  have hfits : ∀ r ∈ replies, r.Fits := by
    simp [replies, payload, Reply.Fits, Reply.frame, WrittenFrame.served]
  have hback : ∀ r ∈ replies.reverse, r.Fits := fun r hr => hfits r (List.mem_reverse.1 hr)
  exact ⟨⟨hlength, hclient _ _ _ _ _ hlength⟩, ⟨hlength, (hserver _ _ hlength).1⟩, hfits, hback,
    (houtput _ _ hfits hback).2⟩

end WebSocketEcho
