import WebSocketEcho.Proofs.Server.Echo
import WebSocketEcho.Proofs.Session.Rules

/-!
# The first violation

A session that a client fails shows the replies to the frames before, one line with the first rule
that was broken, and nothing of what comes behind: `first_violation_reported`.  A stream that stops
before the client has closed fails in the same way, once the client has closed its side.
-/

namespace WebSocketEcho.Server

open Session (Legal Ends presence course)

/-- What a run `r` shows of a session on the connection `id` that fails, when the counters were `c₀`
before it. -/
structure Fails (id : String) (peer : SocketAddress) (c₀ : Counters) (replies : List Reply)
    (failure : Failure) (r : Server × List Entry) : Prop where
  /-- The replies are written in their order, each as one frame of a server, and nothing else. -/
  output : r.2.flatMap (·.output id) = replies.flatMap fun reply => reply.frame.bytes
  /-- The log tells what was wrong. -/
  log : (r.2.flatMap (·.log)).map Log.Event.line =
    ["INFO echo session " ++ peer.text ++ " opened (" ++ toString c₀.enter.active ++ " active)",
      "DEBUG echo session " ++ peer.text ++ " ended with error: " ++ failure.message,
      "INFO echo session " ++ peer.text ++ " closed (" ++ toString c₀.enter.leave.active ++
        " active)"]
  /-- The session is counted once and given back once. -/
  passages : passages (r.2.flatMap (·.effects)) = [.entered id, .left id]
  counters : r.1.counters = c₀.enter.leave
  /-- The server closes the connection. -/
  closed : ∃ e ∈ r.2, id ∈ e.closed

theorem line_failed (peer : SocketAddress) (failure : Failure) :
    (Log.Event.sessionEnded peer (.failed failure)).line =
      "DEBUG echo session " ++ peer.text ++ " ended with error: " ++ failure.message := by
  have hhead : "DEBUG" ++ " " ++ "echo session " = "DEBUG echo session " := rfl
  show "DEBUG" ++ " " ++
    ("echo session " ++ peer.text ++ " ended with error: " ++ failure.message) = _
  simp only [← String.append_assoc, hhead]

/-- A stream that fails a session is read up to what fails it. -/
theorem course_of_ends {frames : List ReceivedFrame} {m : Option Underway} {replies : List Reply}
    {tail : Bytes} {finished : Bool} {failure : Failure} (hlegal : Legal none frames m replies)
    (hends : Ends m tail finished failure) :
    course (frames.flatMap (·.bytes) ++ tail) finished =
      (replies.map .send, .ended (.failed failure)) := by
  obtain ⟨g, echoed, hg, hread⟩ := Session.consume_legal hlegal .none 0
  have hfeed : (Session.begin []).feed (frames.flatMap (·.bytes) ++ tail) = _ := hread tail
  rcases Session.consume_of_ends hends hg echoed with htail | ⟨rfl, rfl, s, htail⟩
  · rw [htail] at hfeed
    have hended : course (frames.flatMap (·.bytes) ++ tail) false =
        (replies.map .send, .ended (.failed failure)) := by
      show (Session.begin []).feed _ = _
      rw [hfeed]
      simp [Session.before]
    have hcourse := Session.course_append_of_ended hended [] finished
    rwa [List.append_nil] at hcourse
  · rw [htail] at hfeed
    rw [course]
    simp only [presence, if_true, Session.poll]
    rw [hfeed]
    simp [Session.before, Progress.atEnd]

/-- Runs that show the same effects show a client the same. -/
theorem agree_of_effects {id : String} {a b : Server × List Entry}
    (heffects : a.2.flatMap (·.effects) = b.2.flatMap (·.effects))
    (hcounters : a.1.counters = b.1.counters) : Agree id a b := by
  have hjoined : Entry.joined a.2 = Entry.joined b.2 := by
    rw [Entry.joined, Entry.joined, heffects]
  constructor
  · rw [flatMap_output, flatMap_output, hjoined]
  · rw [flatMap_log, flatMap_log, hjoined]
  · exact hcounters
  · rw [exists_mem_closed_iff, exists_mem_closed_iff, heffects]

section Report

variable (earlier : List (List Action)) {id : String} {peer : SocketAddress}
  {frames : List ReceivedFrame} {m : Option Underway} {replies : List Reply} {tail : Bytes}
  {finished : Bool} {failure : Failure} {steps : List (List Action)}

/-- All that happens on the connection, and the counters behind it. -/
theorem steps_of_ends (hid : (after earlier).find? id = none) (hlegal : Legal none frames m replies)
    (hends : Ends m tail finished failure)
    (h : Cuts id peer (frames.flatMap (·.bytes) ++ tail) finished steps) :
    ((after earlier).steps steps).2.flatMap (·.effects) =
        shown (after earlier).counters id peer (replies.map .send, .ended (.failed failure)) ∧
      ((after earlier).steps steps).1.counters = (after earlier).counters.enter.leave := by
  obtain ⟨hkept, hready⟩ := kept_after earlier
  obtain ⟨heffects, hcounters⟩ := shown_steps hkept.mode hid hready h.delivers
  rw [course_of_ends hlegal hends] at heffects hcounters
  exact ⟨heffects, hcounters⟩

/-- What fails a session first decides what is seen of it, after any run of other clients and
however the stream is cut.  Unless it is the end of the stream, nothing that follows is seen. -/
theorem first_violation_reported (hid : (after earlier).find? id = none)
    (hlegal : Legal none frames m replies) (hends : Ends m tail finished failure)
    (h : Cuts id peer (frames.flatMap (·.bytes) ++ tail) finished steps) :
    Fails id peer (after earlier).counters replies failure ((after earlier).steps steps) ∧
      (finished = false → ∀ more finished' steps',
        Cuts id peer (frames.flatMap (·.bytes) ++ (tail ++ more)) finished' steps' →
          Agree id ((after earlier).steps steps) ((after earlier).steps steps')) := by
  obtain ⟨heffects, hcounters⟩ := steps_of_ends earlier hid hlegal hends h
  refine ⟨⟨?_, ?_, ?_, hcounters, ?_⟩, ?_⟩
  · rw [flatMap_output, Entry.joined, heffects, output_shown, flatMap_send]
  · rw [flatMap_log, Entry.joined, heffects, log_shown, flatMap_log_send]
    show [Log.Event.line _, Log.Event.line _, Log.Event.line _] = _
    rw [line_sessionOpened, line_failed, line_sessionClosed]
  · rw [heffects, shown, told]
    simp only [passages_passed, passages_logged, passages_append, passages_reactions]
    rfl
  · rw [exists_mem_closed_iff, heffects]
    simp [shown, told]
  · rintro rfl more finished' steps' h'
    obtain ⟨heffects', hcounters'⟩ :=
      steps_of_ends earlier hid hlegal (hends.append more finished') h'
    exact agree_of_effects (heffects.trans heffects'.symm) (hcounters.trans hcounters'.symm)

end Report

/-- A ping, and the first byte of a character as the first fragment of a text. -/
def pingAndStart : List ReceivedFrame :=
  [⟨⟨0x89, some ⟨[11, 12, 13, 14], rfl⟩, .sixteen, 1, by decide⟩, [7], rfl⟩,
    ⟨⟨0x01, some ⟨[15, 16, 17, 18], rfl⟩, .seven, 1, by decide⟩, [0xC3], rfl⟩]

/-- A close frame that is a fragment and has one byte. -/
def closeFragment : ReceivedFrame :=
  ⟨⟨0x08, some ⟨[0, 0, 0, 9], rfl⟩, .seven, 1, by decide⟩, [3], rfl⟩

theorem legal_pingAndStart :
    Legal none pingAndStart (some ⟨.text, [0xC3]⟩) [.pong [7]] := by
  have hbegins : Utf8.BeginsText [0xC3] := ⟨[0xA9], "é", by decide⟩
  refine .cons (o := .ping) rfl (by decide) ?_ (.cons (o := .text) rfl (by decide) ?_ (.nil _))
  · simp [Session.Keeps, Session.rules, Session.Spoilt, Session.joined, FrameHeader.reserved,
      FrameHeader.fin, Session.isControl]
  · simp [Session.Keeps, Session.rules, Session.Spoilt, Session.joined, FrameHeader.reserved,
      FrameHeader.fin, Session.isControl, Session.next, hbegins]

theorem closeFragment_reported :
    (after []).find? "a" = none ∧
      Legal none pingAndStart (some ⟨.text, [0xC3]⟩) [.pong [7]] ∧
      Ends (some ⟨.text, [0xC3]⟩) (closeFragment.bytes ++ []) false
        (.protocol .fragmentedControl) ∧
      Cuts "a" loopback (pingAndStart.flatMap (·.bytes) ++ (closeFragment.bytes ++ [])) false
        [[.connect "a" loopback],
          [.send "a" (pingAndStart.flatMap (·.bytes) ++ (closeFragment.bytes ++ []))]] ∧
      ((after []).steps
          [[.connect "a" loopback],
            [.send "a" (pingAndStart.flatMap (·.bytes) ++
              (closeFragment.bytes ++ []))]]).2.flatMap (·.output "a") =
        [0x8A, 1, 7] := by
  have hends : Ends (some ⟨.text, [0xC3]⟩) (closeFragment.bytes ++ []) false
      (.protocol .fragmentedControl) :=
    .broken (o := .close) rfl (.later (by decide) (.later (by simp [closeFragment])
      (.here ⟨rfl, rfl⟩))) [] false
  have hcuts : Cuts "a" loopback
      (pingAndStart.flatMap (·.bytes) ++ (closeFragment.bytes ++ [])) false
      [[.connect "a" loopback],
        [.send "a" (pingAndStart.flatMap (·.bytes) ++ (closeFragment.bytes ++ []))]] :=
    ⟨[_], List.flatten_singleton, rfl⟩
  refine ⟨rfl, legal_pingAndStart, hends, hcuts, ?_⟩
  rw [(first_violation_reported [] rfl legal_pingAndStart hends hcuts).1.output]
  decide

end WebSocketEcho.Server
