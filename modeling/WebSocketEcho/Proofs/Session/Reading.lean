import WebSocketEcho.Proofs.Frame.Decoding
import WebSocketEcho.Session

/-!
# Reading in pieces

A session that reads a stream in pieces does what it does when it reads the stream at once.
`Session.feed_append` is the statement.  It rests on the fact that a frame is the same whatever
follows it, and on `consume_before`, which takes the reactions so far out of the recursion.

`consume_of_*` are the steps of the recursion, one for each verdict on a frame.
-/

namespace WebSocketEcho.Session

/-- Reactions that come before those of a reading. -/
def before (earlier : List Reaction) (r : List Reaction × Progress) : List Reaction × Progress :=
  (earlier ++ r.1, r.2)

/-- A reading that goes on from where another one stopped, unless that one ended. -/
def followedBy (r : List Reaction × Progress) (next : Session → List Reaction × Progress) :
    List Reaction × Progress :=
  match r.2 with
  | .waiting s => before r.1 (next s)
  | .ended o => (r.1, .ended o)

@[simp] theorem before_nil (r : List Reaction × Progress) : before [] r = r := rfl

@[simp] theorem before_before (a b : List Reaction) (r : List Reaction × Progress) :
    before a (before b r) = before (a ++ b) r := by
  simp [before]

@[simp] theorem followedBy_before (a : List Reaction) (r : List Reaction × Progress)
    (next : Session → List Reaction × Progress) :
    followedBy (before a r) next = before a (followedBy r next) := by
  obtain ⟨reactions, progress⟩ := r
  cases progress with
  | waiting s => simp [followedBy, before]
  | ended o => rfl

/-! ## The steps of a reading -/

section Steps

variable {gathering : Option Gathering} {echoed : UInt64} {buffer rest : Bytes} {f : Frame}

/-- The reactions so far come before all others. -/
theorem consume_before (gathering : Option Gathering) (echoed : UInt64) (buffer : Bytes)
    (done : List Reaction) :
    consume gathering echoed buffer done =
      before done.reverse (consume gathering echoed buffer []) := by
  induction hn : buffer.length using Nat.strongRecOn generalizing gathering echoed buffer done with
  | ind n ih =>
    subst hn
    rw [consume, consume]
    split
    · simp [before]
    · simp [before]
    · rename_i f rest h
      have hlt := Frame.length_lt_of_decode h
      split
      · exact ih _ hlt _ _ _ _ rfl
      · rename_i kind payload _
        rw [ih _ hlt _ _ _ (_ :: done) rfl, ih _ hlt _ _ _ [.send (.echo kind payload)] rfl]
        simp
      · rename_i payload _
        rw [ih _ hlt _ _ _ (_ :: done) rfl, ih _ hlt _ _ _ [.send (.pong payload)] rfl]
        simp
      · simp [before]
      · simp [before]

theorem consume_of_incomplete (h : Frame.decode buffer = .incomplete) :
    consume gathering echoed buffer [] = ([], .waiting ⟨buffer, gathering, echoed⟩) := by
  rw [consume]
  split <;> simp_all

theorem consume_of_reservedOpcode {number : Nat}
    (h : Frame.decode buffer = .reservedOpcode number) :
    consume gathering echoed buffer [] =
      ([], .ended (.failed (.protocol (.reservedOpcode number)))) := by
  rw [consume]
  split <;> simp_all

/-- A reading whose first frame is complete: the verdict says how it goes on. -/
theorem consume_of_frame (h : Frame.decode buffer = .frame f rest) :
    consume gathering echoed buffer [] =
      match judge gathering f with
      | .proceed gathering => consume gathering echoed rest []
      | .message kind payload =>
        before [.send (.echo kind payload)] (consume none (echoed + 1) rest [])
      | .ping payload => before [.send (.pong payload)] (consume gathering echoed rest [])
      | .close farewell =>
        ([.note farewell, .send (.close farewell)], .ended (.peerClosed echoed))
      | .fail failure => ([], .ended (.failed failure)) := by
  rw [consume]
  split
  · simp_all
  · simp_all
  · rename_i f' rest' h'
    rw [h] at h'
    cases h'
    cases judge gathering f with
    | proceed gathering => rfl
    | message kind payload => exact consume_before _ _ _ _
    | ping payload => exact consume_before _ _ _ _
    | close farewell => rfl
    | fail failure => rfl

end Steps

/-! ## Cuts -/

/-- A reading that is suspended at the end of its input goes on with the next piece as if there
had been no cut. -/
theorem consume_append (gathering : Option Gathering) (echoed : UInt64) (buffer more : Bytes) :
    consume gathering echoed (buffer ++ more) [] =
      followedBy (consume gathering echoed buffer []) fun s => s.feed more := by
  induction hn : buffer.length using Nat.strongRecOn generalizing gathering echoed buffer with
  | ind n ih =>
    subst hn
    cases h : Frame.decode buffer with
    | incomplete =>
      rw [consume_of_incomplete h]
      rfl
    | reservedOpcode number =>
      rw [consume_of_reservedOpcode h,
        consume_of_reservedOpcode (Frame.decode_append_of_reservedOpcode h more)]
      rfl
    | frame f rest =>
      have hlt := Frame.length_lt_of_decode h
      rw [consume_of_frame h, consume_of_frame (Frame.decode_append_of_frame h more)]
      cases judge gathering f with
      | proceed gathering => exact ih _ hlt _ _ _ rfl
      | message kind payload =>
        dsimp only
        rw [followedBy_before, ih _ hlt _ _ _ rfl]
      | ping payload =>
        dsimp only
        rw [followedBy_before, ih _ hlt _ _ _ rfl]
      | close farewell => rfl
      | fail failure => rfl

/-- Two pieces of input are read like one. -/
theorem feed_append (s : Session) (a b : Bytes) :
    s.feed (a ++ b) = followedBy (s.feed a) fun t => t.feed b := by
  rw [feed, ← List.append_assoc, consume_append, feed]

end WebSocketEcho.Session
