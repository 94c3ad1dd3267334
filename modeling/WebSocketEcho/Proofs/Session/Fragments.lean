import Mathlib.Data.Nat.Find
import WebSocketEcho.Proofs.Session.Rules

/-!
# Texts in fragments

A text message may be cut anywhere, also inside a character, and any payloads may be sent as one.
The check of a fragment knows only where the fragments before it have brought the checker.  Still it
decides what is decided by the text as a whole, and as early as that can be done: the session fails
at the first fragment up to which no text begins with the payload, or else at the last
(`SpoiltAt`, `feed_of_spoiltAt`), it waits before the end of that fragment (`feed_before_spoiltAt`),
and a text that is sound comes back whole (`feed_of_isText`).

Nothing is assumed of the bytes of a fragment.  The inductions are over the fragments, and what they
carry is that the session remembers the payload so far (`Gathering.Holds`).
-/

namespace WebSocketEcho

open Utf8 (IsText BeginsText)

namespace Fragments

/-- The frames of each fragment behind those of the controls before it.  The first fragment tells
what the message is, and the last one that it ends. -/
def groups (opcode : Opcode) : Fragments → List (List WrittenFrame)
  | [] => []
  | (controls, piece) :: left =>
    (controls.map Control.frame ++ [piece.frame left.isEmpty opcode]) :: groups .continuation left

/-- The first `count` fragments of a text as they travel. -/
def sent (fragments : Fragments) (count : Nat) : Bytes :=
  ((fragments.groups .text).take count).flatten.flatMap WrittenFrame.bytes

/-- The payload of the first `count` fragments. -/
def payloadTo (fragments : Fragments) (count : Nat) : Bytes := payload (fragments.take count)

/-- The replies to the controls before the first `count` fragments and between them. -/
def repliesTo (fragments : Fragments) (count : Nat) : List Reply := replies (fragments.take count)

/-- The replies to all fragments of a text that is sound: the text goes back whole. -/
def echoed (fragments : Fragments) : List Reply :=
  fragments.replies ++ [.echo .text fragments.payload]

/-- Behind the bytes `sofar`, a text is spoilt at the first fragment up to which no text begins
with its payload, or at the last one if all of it is there and is not a text. -/
structure SpoiltAt (sofar : Bytes) (fragments : Fragments) (i : Nat) : Prop where
  lt : i < fragments.length
  begins : ∀ j < i, BeginsText (sofar ++ fragments.payloadTo (j + 1))
  spoilt : ¬ BeginsText (sofar ++ fragments.payloadTo (i + 1)) ∨
    i + 1 = fragments.length ∧ ¬ IsText (sofar ++ fragments.payload)

/-- What is not a text is spoilt at one of its fragments. -/
theorem exists_spoiltAt {fragments : Fragments} (hne : fragments ≠ [])
    (h : ¬ IsText fragments.payload) : ∃ i, SpoiltAt [] fragments i := by
  classical
  have hpos : 0 < fragments.length := List.length_pos_iff.2 hne
  have hlast : ∃ i, ¬ BeginsText (fragments.payloadTo (i + 1)) ∨ i + 1 = fragments.length :=
    ⟨fragments.length - 1, Or.inr (by omega)⟩
  have hle : Nat.find hlast ≤ fragments.length - 1 := Nat.find_min' hlast (Or.inr (by omega))
  refine ⟨Nat.find hlast, by omega, ?_, ?_⟩
  · intro j hj
    have hnot := Nat.find_min hlast hj
    exact Classical.not_not.1 fun hbegins => hnot (Or.inl hbegins)
  · rcases Nat.find_spec hlast with hspoilt | hend
    · exact Or.inl hspoilt
    · exact Or.inr ⟨hend, h⟩

/-- There is only one such fragment. -/
theorem SpoiltAt.unique {sofar : Bytes} {fragments : Fragments} {i j : Nat}
    (hi : SpoiltAt sofar fragments i) (hj : SpoiltAt sofar fragments j) : i = j := by
  -- A text that is spoilt later has not been spoilt, and has not ended, at the earlier fragment.
  have hle : ∀ {i j}, SpoiltAt sofar fragments i → SpoiltAt sofar fragments j → j ≤ i := by
    intro i j hi hj
    apply Nat.le_of_not_lt
    intro hlt
    rcases hi.spoilt with hspoilt | ⟨hlast, -⟩
    · exact hspoilt (hj.begins i hlt)
    · have hend := hj.lt
      omega
  exact Nat.le_antisymm (hle hj hi) (hle hi hj)

section Spoilt

variable {sofar : Bytes} {controls : List Control} {piece : Piece} {left : Fragments} {i : Nat}

@[simp] theorem payloadTo_cons (count : Nat) :
    payloadTo ((controls, piece) :: left) (count + 1) =
      piece.payload ++ payloadTo left count := by
  simp [payloadTo, payload]

@[simp] theorem repliesTo_cons (count : Nat) :
    repliesTo ((controls, piece) :: left) (count + 1) =
      controls.flatMap Control.replies ++ repliesTo left count := by
  simp [repliesTo, replies]

@[simp] theorem payload_cons :
    payload ((controls, piece) :: left) = piece.payload ++ payload left := rfl

/-- A text that is spoilt at its first fragment. -/
theorem SpoiltAt.first (h : SpoiltAt sofar ((controls, piece) :: left) 0) :
    ¬ BeginsText (sofar ++ piece.payload) ∨
      left.isEmpty = true ∧ ¬ IsText (sofar ++ piece.payload) := by
  rcases h.spoilt with hspoilt | ⟨hlast, hspoilt⟩
  · exact Or.inl (by simpa [payloadTo, payload] using hspoilt)
  · have hnil : left = [] := by simpa using hlast
    subst hnil
    exact Or.inr ⟨rfl, by simpa [payload] using hspoilt⟩

/-- A text that is spoilt later goes on behind its first fragment, -/
theorem SpoiltAt.begins_first (h : SpoiltAt sofar ((controls, piece) :: left) (i + 1)) :
    BeginsText (sofar ++ piece.payload) := by
  have hbegins := h.begins 0 (Nat.succ_pos i)
  rwa [payloadTo_cons, show payloadTo left 0 = [] from rfl, List.append_nil] at hbegins

/-- and what is behind it is spoilt. -/
theorem SpoiltAt.behind (h : SpoiltAt sofar ((controls, piece) :: left) (i + 1)) :
    SpoiltAt (sofar ++ piece.payload) left i := by
  obtain ⟨hlt, hbegins, hspoilt⟩ := h
  simp only [payloadTo_cons, payload_cons, ← List.append_assoc, List.length_cons,
    Nat.succ_lt_succ_iff, Nat.succ_inj] at hlt hbegins hspoilt
  exact ⟨hlt, fun j hj => hbegins (j + 1) (Nat.succ_lt_succ hj), hspoilt⟩

end Spoilt

/-! ## All fragments -/

@[simp] theorem length_groups (opcode : Opcode) (fragments : Fragments) :
    (fragments.groups opcode).length = fragments.length := by
  induction fragments generalizing opcode with
  | nil => rfl
  | cons fragment left ih => rw [groups, List.length_cons, ih, List.length_cons]

theorem sent_length (fragments : Fragments) :
    fragments.sent fragments.length =
      (fragments.groups .text).flatten.flatMap WrittenFrame.bytes := by
  rw [sent, List.take_of_length_le (by simp)]

/-- All groups together are the frames of a message. -/
theorem flatten_groups (opcode : Opcode) (controls : List Control) (piece : Piece)
    (more : Fragments) :
    (groups opcode ((controls, piece) :: more)).flatten =
      controls.map Control.frame ++ Message.framesFrom opcode piece more := by
  induction more generalizing opcode controls piece with
  | nil => simp [groups, Message.framesFrom]
  | cons fragment more ih =>
    obtain ⟨next, other⟩ := fragment
    rw [groups, List.flatten_cons, ih, Message.framesFrom]
    simp

end Fragments

namespace Session

open Fragments (SpoiltAt)

/-! ## Fragments are read -/

section Read

variable {gathering : Option Gathering} {g : Gathering} {opcode : Opcode} {sofar : Bytes}
  {fragments : Fragments} {i : Nat}

/-- A fragment that lets the session go on, behind its controls. -/
theorem consume_group {gathering' : Option Gathering} {controls : List Control} {piece : Piece}
    {fin : Bool} (h : judge gathering (piece.frame fin opcode).frame = .proceed gathering')
    (echoed : UInt64) (rest : Bytes) :
    consume gathering echoed
        ((controls.map Control.frame ++ [piece.frame fin opcode]).flatMap WrittenFrame.bytes ++
          rest) [] =
      before ((controls.flatMap Control.replies).map .send)
        (consume gathering' echoed rest []) := by
  rw [List.flatMap_append, List.append_assoc, consume_controls, List.flatMap_cons,
    List.flatMap_nil, List.append_nil, consume_written (f := piece.frame fin opcode) piece.fits, h]

/-- What comes before the fragment at which a text is spoilt is read, and the session then fails at
that fragment. -/
theorem exists_front
    (hjudge : ∀ fin payload, judge gathering ⟨fin, false, opcode, true, payload⟩ =
      join g fin payload)
    (hholds : g.Holds ⟨.text, sofar⟩) (h : SpoiltAt sofar fragments i) :
    ∃ (front : Bytes) (f : WrittenFrame) (gathering' : Option Gathering),
      ((fragments.groups opcode).take (i + 1)).flatten.flatMap WrittenFrame.bytes =
          front ++ f.bytes ∧
        f.payload.length < f.form.limit ∧ judge gathering' f.frame = .fail .notUtf8 ∧
        ∀ echoed rest, consume gathering echoed (front ++ rest) [] =
          before ((fragments.repliesTo (i + 1)).map .send)
            (consume gathering' echoed rest []) := by
  induction fragments generalizing gathering g opcode sofar i with
  | nil => exact absurd h.lt (Nat.not_lt_zero i)
  | cons fragment left ih =>
    obtain ⟨controls, piece⟩ := fragment
    cases i with
    | zero =>
      refine ⟨(controls.map Control.frame).flatMap WrittenFrame.bytes,
        piece.frame left.isEmpty opcode, gathering, by simp [Fragments.groups], piece.fits,
        (hjudge left.isEmpty piece.payload).trans (join_of_spoilt hholds rfl h.first), ?_⟩
      intro echoed rest
      rw [consume_controls]
      simp [Fragments.repliesTo, Fragments.replies]
    | succ i =>
      obtain ⟨g', hjoin, hholds'⟩ := join_more_of_not_spoilt hholds fun _ => h.begins_first
      obtain ⟨front, f, gathering', hsent, hfits, hverdict, hread⟩ :=
        ih (judge_continuation g') hholds' h.behind
      have hproceed : judge gathering (piece.frame false opcode).frame = .proceed (some g') :=
        (hjudge false piece.payload).trans hjoin
      have hmore : left.isEmpty = false :=
        List.isEmpty_eq_false_iff.2 (List.ne_nil_of_length_pos (Nat.zero_lt_of_lt h.behind.lt))
      refine ⟨(controls.map Control.frame ++ [piece.frame false opcode]).flatMap
        WrittenFrame.bytes ++ front, f, gathering', ?_, hfits, hverdict, ?_⟩
      · rw [Fragments.groups, List.take_succ_cons, List.flatten_cons, List.flatMap_append, hsent,
          hmore, List.append_assoc]
      · intro echoed rest
        rw [List.append_assoc, consume_group hproceed, hread, before_before,
          Fragments.repliesTo_cons, List.map_append]

end Read

/-! ## What becomes of a text -/

theorem feed_begin (bytes : Bytes) : (begin []).feed bytes = consume none 0 bytes [] := rfl

/-- A session that waits behind some bytes has waited before each of them. -/
theorem exists_waiting_of_append {s t : Session} {read left : Bytes} {reactions : List Reaction}
    (h : s.feed (read ++ left) = (reactions, .waiting t)) :
    ∃ (written : List Reaction) (t' : Session), written <+: reactions ∧
      s.feed read = (written, .waiting t') := by
  rw [feed_append] at h
  cases hread : s.feed read with
  | mk written progress =>
    rw [hread] at h
    cases progress with
    | ended o => cases h
    | waiting t' => exact ⟨written, t', ⟨_, congrArg Prod.fst h⟩, rfl⟩

section Texts

variable {frames : List ReceivedFrame} {replies : List Reply} {fragments : Fragments} {i : Nat}

/-- A text comes to an end between legal frames: all before the fragment at which it is spoilt is
answered, and that fragment fails the session. -/
theorem exists_front_of_spoiltAt (hlegal : Legal none frames none replies)
    (h : SpoiltAt [] fragments i) :
    ∃ (front : Bytes) (f : WrittenFrame) (gathering : Option Gathering) (echoed : UInt64),
      frames.flatMap (·.bytes) ++ fragments.sent (i + 1) = front ++ f.bytes ∧
        f.payload.length < f.form.limit ∧ judge gathering f.frame = .fail .notUtf8 ∧
        ∀ rest, (begin []).feed (front ++ rest) =
          before ((replies ++ fragments.repliesTo (i + 1)).map .send)
            (consume gathering echoed rest []) := by
  obtain ⟨g, echoed, hg, hread⟩ := consume_legal hlegal .none 0
  cases hg
  have hempty : Gathering.Holds ⟨.text, [], .boundary⟩ ⟨.text, []⟩ := ⟨rfl, rfl, fun _ => rfl⟩
  obtain ⟨front, f, gathering, hsent, hfits, hverdict, hfront⟩ :=
    exists_front (judge_first .text) hempty h
  refine ⟨frames.flatMap (·.bytes) ++ front, f, gathering, echoed, ?_, hfits, hverdict, ?_⟩
  · rw [List.append_assoc, ← hsent]
    rfl
  · intro rest
    rw [feed_begin, List.append_assoc, hread, hfront, before_before, List.map_append]

/-- A session fails at the fragment at which a text is spoilt. -/
theorem feed_of_spoiltAt (hlegal : Legal none frames none replies)
    (h : SpoiltAt [] fragments i) :
    (begin []).feed (frames.flatMap (·.bytes) ++ fragments.sent (i + 1)) =
      ((replies ++ fragments.repliesTo (i + 1)).map .send, .ended (.failed .notUtf8)) := by
  obtain ⟨front, f, gathering, echoed, hsent, hfits, hverdict, hread⟩ :=
    exists_front_of_spoiltAt hlegal h
  have hfails : consume gathering echoed (f.bytes ++ []) [] = _ := consume_written hfits []
  rw [List.append_nil, hverdict] at hfails
  rw [hsent, hread, hfails]
  simp [before]

/-- Up to the end of that fragment it waits. -/
theorem feed_before_spoiltAt (hlegal : Legal none frames none replies) (h : SpoiltAt [] fragments i)
    {read left : Bytes}
    (hcut : read ++ left = frames.flatMap (·.bytes) ++ fragments.sent (i + 1))
    (hleft : left ≠ []) :
    ∃ (written : List Reply) (t : Session), written <+: replies ++ fragments.repliesTo (i + 1) ∧
      (begin []).feed read = (written.map .send, .waiting t) := by
  obtain ⟨front, f, gathering, echoed, hsent, hfits, _, hfront⟩ :=
    exists_front_of_spoiltAt hlegal h
  -- Part of the fragment's frame is no frame, so that the session waits there.
  have hwaits : ∀ part missing, part ++ missing = f.bytes → missing ≠ [] →
      (begin []).feed (front ++ part) =
        ((replies ++ fragments.repliesTo (i + 1)).map .send,
          .waiting ⟨part, gathering, echoed⟩) := by
    intro part missing hpart hmissing
    rw [hfront, consume_of_incomplete (WrittenFrame.decode_of_cut hfits hpart hmissing)]
    simp [before]
  rw [hsent] at hcut
  rcases List.append_eq_append_iff.1 hcut with ⟨tail, rfl, _⟩ | ⟨part, rfl, hpart⟩
  · have hnil := hwaits [] f.bytes rfl (List.cons_ne_nil _ _)
    rw [List.append_nil] at hnil
    obtain ⟨written, t, hwritten, hread⟩ := exists_waiting_of_append hnil
    obtain ⟨sent, hprefix, rfl⟩ := List.prefix_map_iff.1 hwritten
    exact ⟨sent, t, hprefix, hread⟩
  · exact ⟨_, _, List.prefix_refl _, hwaits part left hpart.symm hleft⟩

/-- A text that is sound is echoed whole, and the session goes on. -/
theorem feed_of_isText (hlegal : Legal none frames none replies) (hne : fragments ≠ [])
    (htext : IsText fragments.payload) :
    ∃ t : Session,
      (begin []).feed (frames.flatMap (·.bytes) ++ fragments.sent fragments.length) =
        ((replies ++ fragments.echoed).map .send,
          .waiting t) := by
  obtain ⟨g, echoed, hg, hread⟩ := consume_legal hlegal .none 0
  cases hg
  obtain ⟨⟨controls, piece⟩, more, rfl⟩ := List.exists_cons_of_ne_nil hne
  have hexpects : Expects ⟨.text, [], .boundary⟩ (piece.payload ++ Fragments.payload more) :=
    fun _ => Utf8.run_eq_boundary_iff.2 htext
  have hmessage : consume none echoed
      ((Message.framesFrom .text piece more).flatMap WrittenFrame.bytes ++ []) [] = _ :=
    consume_fragments (judge_first .text) hexpects []
  have hnothing : Frame.decode [] = .incomplete := rfl
  rw [List.append_nil, consume_of_incomplete hnothing] at hmessage
  rw [feed_begin, hread, Fragments.sent_length, Fragments.flatten_groups, List.flatMap_append,
    consume_controls, hmessage, before_before, before_before]
  refine ⟨⟨[], none, echoed + 1⟩, ?_⟩
  simp [before, Fragments.echoed, Fragments.replies, Fragments.payload]

end Texts

end Session

end WebSocketEcho
