import WebSocketEcho.Proofs.Server.Violation
import WebSocketEcho.Proofs.Session.Fragments

/-!
# A text in fragments is checked as a whole

However a client cuts a text into fragments, and with whatever pings and pongs between them, it gets
the text back exactly when all fragments together are one.  Otherwise the session fails at the
fragment at which the text is spoilt, not before and not after, and nothing of the text is written:
`text_checked_as_whole`.

`Waits` is what is seen of a session that goes on.  Before the end of the fragment at which a text
is spoilt it is said of every beginning of the stream, so that no part of a fragment is judged.
-/

namespace WebSocketEcho.Server

open Session (Legal course)
open Fragments (SpoiltAt)
open Utf8 (IsText)

/-- What a run `r` shows of a session on the connection `id` that has sent replies and goes on, when
the counters were `c₀` before it. -/
structure Waits (id : String) (peer : SocketAddress) (c₀ : Counters) (replies : List Reply)
    (r : Server × List Entry) : Prop where
  /-- The replies are written in their order, each as one frame of a server, and nothing else. -/
  output : r.2.flatMap (·.output id) = replies.flatMap fun reply => reply.frame.bytes
  /-- The log tells that the session is open. -/
  log : (r.2.flatMap (·.log)).map Log.Event.line =
    ["INFO echo session " ++ peer.text ++ " opened (" ++ toString c₀.enter.active ++ " active)"]
  counters : r.1.counters = c₀.enter
  /-- The server keeps the connection. -/
  kept : ¬ ∃ e ∈ r.2, id ∈ e.closed

section Shown

variable {id : String} {peer : SocketAddress} {c₀ : Counters} {replies : List Reply}
  {r : Server × List Entry}

/-- What has been replied comes before all else that is written, -/
theorem output_shown_before (c : Counters) (id : String) (peer : SocketAddress)
    (reactions : List Reaction) (rest : List Reaction × Progress) :
    Entry.output ⟨shown c id peer (Session.before reactions rest), [], .zero⟩ id =
      reactions.flatMap Reaction.bytes ++
        Entry.output ⟨told c.enter id peer rest, [], .zero⟩ id := by
  rw [← output_reactions, shown, told_before]
  rfl

/-- and is logged behind the line that opens the session. -/
theorem log_shown_before (c : Counters) (id : String) (peer : SocketAddress)
    (reactions : List Reaction) (rest : List Reaction × Progress) :
    Entry.log ⟨shown c id peer (Session.before reactions rest), [], .zero⟩ =
      .sessionOpened peer c.enter.active ::
        (reactions.flatMap Reaction.log ++ Entry.log ⟨told c.enter id peer rest, [], .zero⟩) := by
  rw [← log_reactions, shown, told_before]
  rfl

/-- The effects of a session that goes on. -/
theorem waits_of_shown {t : Session}
    (heffects : r.2.flatMap (·.effects) = shown c₀ id peer (replies.map .send, .waiting t))
    (hcounters : r.1.counters = c₀.enter) : Waits id peer c₀ replies r := by
  have hbefore : (replies.map Reaction.send, Progress.waiting t) =
      Session.before (replies.map .send) ([], .waiting t) := by simp [Session.before]
  rw [hbefore] at heffects
  constructor
  · rw [flatMap_output, Entry.joined, heffects, output_shown_before, flatMap_send]
    exact List.append_nil _
  · rw [flatMap_log, Entry.joined, heffects, log_shown_before, flatMap_log_send]
    show [Log.Event.line _] = _
    rw [line_sessionOpened]
  · exact hcounters
  · rw [exists_mem_closed_iff, heffects]
    simp [shown, told, reactionEffect, Session.before]

/-- The effects of a session that fails. -/
theorem fails_of_shown {failure : Failure}
    (heffects : r.2.flatMap (·.effects) =
      shown c₀ id peer (replies.map .send, .ended (.failed failure)))
    (hcounters : r.1.counters = c₀.enter.leave) : Fails id peer c₀ replies failure r := by
  refine ⟨?_, ?_, ?_, hcounters, ?_⟩
  · rw [flatMap_output, Entry.joined, heffects, output_shown, flatMap_send]
  · rw [flatMap_log, Entry.joined, heffects, log_shown, flatMap_log_send]
    show [Log.Event.line _, Log.Event.line _, Log.Event.line _] = _
    rw [line_sessionOpened, line_failed, line_sessionClosed]
  · rw [heffects, shown, told]
    simp only [passages_passed, passages_logged, passages_append, passages_reactions]
    rfl
  · rw [exists_mem_closed_iff, heffects]
    simp [shown, told]

/-- The replies of a session come before all that is written when more arrives. -/
theorem output_of_shown_before {rest : List Reaction × Progress}
    (heffects : r.2.flatMap (·.effects) =
      shown c₀ id peer (Session.before (replies.map .send) rest)) :
    (replies.flatMap fun reply => reply.frame.bytes) <+: r.2.flatMap (·.output id) := by
  rw [flatMap_output, Entry.joined, heffects, output_shown_before, flatMap_send]
  exact List.prefix_append _ _

end Shown

section Texts

variable (earlier : List (List Action)) {id : String} {peer : SocketAddress}
  {frames : List ReceivedFrame} {replies : List Reply} {fragments : Fragments} {i : Nat}

/-- A text that is sound is written back, and the session goes on. -/
theorem waits_of_isText (hid : (after earlier).find? id = none)
    (hlegal : Legal none frames none replies) (hne : fragments ≠ [])
    (htext : IsText fragments.payload) {steps : List (List Action)}
    (h : Cuts id peer (frames.flatMap (·.bytes) ++ fragments.sent fragments.length) false steps) :
    Waits id peer (after earlier).counters (replies ++ fragments.echoed)
      ((after earlier).steps steps) := by
  obtain ⟨hkept, hready⟩ := kept_after earlier
  obtain ⟨heffects, hcounters⟩ := shown_steps hkept.mode hid hready h.delivers
  obtain ⟨t, hread⟩ := Session.feed_of_isText hlegal hne htext
  rw [show course _ false = _ from hread] at heffects hcounters
  exact waits_of_shown heffects hcounters

/-- Whatever follows is written behind it. -/
theorem echoed_prefix_of_isText (hid : (after earlier).find? id = none)
    (hlegal : Legal none frames none replies) (hne : fragments ≠ [])
    (htext : IsText fragments.payload) {more : Bytes} {finished : Bool}
    {steps : List (List Action)}
    (h : Cuts id peer (frames.flatMap (·.bytes) ++ (fragments.sent fragments.length ++ more))
      finished steps) :
    ((replies ++ fragments.echoed).flatMap fun reply => reply.frame.bytes) <+:
      ((after earlier).steps steps).2.flatMap (·.output id) := by
  obtain ⟨hkept, hready⟩ := kept_after earlier
  obtain ⟨heffects, -⟩ := shown_steps hkept.mode hid hready h.delivers
  obtain ⟨t, hread⟩ := Session.feed_of_isText hlegal hne htext
  rw [← List.append_assoc, Session.course_append hread] at heffects
  exact output_of_shown_before heffects

/-- Before the end of the fragment at which a text is spoilt the session waits, -/
theorem waits_before_spoiltAt (hid : (after earlier).find? id = none)
    (hlegal : Legal none frames none replies) (hspoilt : SpoiltAt [] fragments i)
    {read left : Bytes}
    (hcut : read ++ left = frames.flatMap (·.bytes) ++ fragments.sent (i + 1))
    (hleft : left ≠ []) {steps : List (List Action)} (h : Cuts id peer read false steps) :
    ∃ written, written <+: replies ++ fragments.repliesTo (i + 1) ∧
      Waits id peer (after earlier).counters written ((after earlier).steps steps) := by
  obtain ⟨hkept, hready⟩ := kept_after earlier
  obtain ⟨heffects, hcounters⟩ := shown_steps hkept.mode hid hready h.delivers
  obtain ⟨written, t, hwritten, hread⟩ := Session.feed_before_spoiltAt hlegal hspoilt hcut hleft
  rw [show course read false = _ from hread] at heffects hcounters
  exact ⟨written, hwritten, waits_of_shown heffects hcounters⟩

/-- and at its end the session fails, whatever follows. -/
theorem fails_at_spoiltAt (hid : (after earlier).find? id = none)
    (hlegal : Legal none frames none replies) (hspoilt : SpoiltAt [] fragments i) {more : Bytes}
    {finished : Bool} {steps : List (List Action)}
    (h : Cuts id peer
      (frames.flatMap (·.bytes) ++ (fragments.sent (i + 1) ++ more)) finished steps) :
    Fails id peer (after earlier).counters (replies ++ fragments.repliesTo (i + 1)) .notUtf8
      ((after earlier).steps steps) := by
  obtain ⟨hkept, hready⟩ := kept_after earlier
  obtain ⟨heffects, hcounters⟩ := shown_steps hkept.mode hid hready h.delivers
  have hread : course (frames.flatMap (·.bytes) ++ fragments.sent (i + 1)) false = _ :=
    Session.feed_of_spoiltAt hlegal hspoilt
  rw [← List.append_assoc, Session.course_append_of_ended hread] at heffects hcounters
  exact fails_of_shown heffects hcounters

/-- A text in fragments, behind frames that are legal, after any run of other clients and however
the stream is cut.  If all of it together is a text, it is echoed whole.  If not, the session fails
at the fragment at which it is spoilt: it waits before the end of that fragment, it has failed
there, and nothing of the text is written. -/
theorem text_checked_as_whole (hid : (after earlier).find? id = none)
    (hlegal : Legal none frames none replies) (hne : fragments ≠ []) :
    (IsText fragments.payload →
      (∀ steps,
        Cuts id peer (frames.flatMap (·.bytes) ++ fragments.sent fragments.length) false steps →
          Waits id peer (after earlier).counters (replies ++ fragments.echoed)
            ((after earlier).steps steps)) ∧
        ∀ more finished steps,
          Cuts id peer (frames.flatMap (·.bytes) ++ (fragments.sent fragments.length ++ more))
              finished steps →
            ((replies ++ fragments.echoed).flatMap fun reply => reply.frame.bytes) <+:
              ((after earlier).steps steps).2.flatMap (·.output id)) ∧
      (¬ IsText fragments.payload → ∃ i, SpoiltAt [] fragments i ∧
        (∀ read left steps,
          read ++ left = frames.flatMap (·.bytes) ++ fragments.sent (i + 1) → left ≠ [] →
            Cuts id peer read false steps →
              ∃ written, written <+: replies ++ fragments.repliesTo (i + 1) ∧
                Waits id peer (after earlier).counters written ((after earlier).steps steps)) ∧
        ∀ more finished steps,
          Cuts id peer (frames.flatMap (·.bytes) ++ (fragments.sent (i + 1) ++ more)) finished
              steps →
            Fails id peer (after earlier).counters (replies ++ fragments.repliesTo (i + 1)) .notUtf8
              ((after earlier).steps steps)) := by
  constructor
  · intro htext
    constructor
    · intro steps h
      exact waits_of_isText earlier hid hlegal hne htext h
    · intro more finished steps h
      exact echoed_prefix_of_isText earlier hid hlegal hne htext h
  · intro htext
    obtain ⟨i, hspoilt⟩ := Fragments.exists_spoiltAt hne htext
    refine ⟨i, hspoilt, ?_, ?_⟩
    · intro read left steps hcut hleft h
      exact waits_before_spoiltAt earlier hid hlegal hspoilt hcut hleft h
    · intro more finished steps h
      exact fails_at_spoiltAt earlier hid hlegal hspoilt h

end Texts

/-- A character in too many bytes, which its second byte shows, in three fragments with a ping
before the second. -/
def overlong : Fragments :=
  [([], ⟨[0xE0], ⟨[21, 22, 23, 24], rfl⟩, .seven, by decide⟩),
    ([⟨true, ⟨[7], ⟨[25, 26, 27, 28], rfl⟩, .sixteen, by decide⟩, by decide⟩],
      ⟨[0x80], ⟨[0, 0, 0, 29], rfl⟩, .sixtyFour, by decide⟩),
    ([], ⟨[0x80], ⟨[0, 0, 0, 30], rfl⟩, .seven, by decide⟩)]

theorem overlong_spoiltAt : SpoiltAt [] overlong 1 := by
  refine ⟨by decide, ?_, Or.inl ?_⟩
  · intro j hj
    obtain rfl : j = 0 := by omega
    exact ⟨[0xA0, 0x80], Utf8.run_eq_boundary_iff.1 (by decide)⟩
  · rw [← Utf8.run_eq_none_iff]
    decide

theorem overlong_checked :
    (after []).find? "a" = none ∧ Legal none [] none [] ∧ overlong ≠ [] ∧
      ¬ IsText overlong.payload ∧ SpoiltAt [] overlong 1 ∧
      Cuts "a" loopback (overlong.sent 2 ++ []) false
        [[.connect "a" loopback], [.send "a" (overlong.sent 2)]] ∧
      ((after []).steps
          [[.connect "a" loopback], [.send "a" (overlong.sent 2)]]).2.flatMap (·.output "a") =
        [0x8A, 1, 7] := by
  have hne : overlong ≠ [] := List.cons_ne_nil _ _
  have htext : ¬ IsText overlong.payload := by
    rw [← Utf8.run_eq_boundary_iff]
    decide
  have hcuts : Cuts "a" loopback (overlong.sent 2 ++ []) false
      [[.connect "a" loopback], [.send "a" (overlong.sent 2)]] :=
    ⟨[overlong.sent 2], rfl, rfl⟩
  obtain ⟨i, hspoilt, -, hfails⟩ :=
    (@text_checked_as_whole [] "a" loopback [] [] overlong rfl (.nil none) hne).2 htext
  obtain rfl := hspoilt.unique overlong_spoiltAt
  refine ⟨rfl, .nil none, hne, htext, overlong_spoiltAt, hcuts, ?_⟩
  rw [(hfails [] false _ hcuts).output]
  decide

end WebSocketEcho.Server
