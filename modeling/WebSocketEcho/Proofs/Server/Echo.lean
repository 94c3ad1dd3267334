import WebSocketEcho.Proofs.Server.Segmentation
import WebSocketEcho.Proofs.Session.Conversation

/-!
# Conversations are echoed

A client that keeps the rules gets back what it sent: `conversation_echoed`.  The server writes one
frame for each message and each ping, in the order in which they are complete, answers the close
frame, logs how many messages there were, and closes the connection.  The client's bytes may arrive
in any pieces, over any steps.
-/

namespace WebSocketEcho

/-- What a reaction puts on the wire. -/
def Reaction.bytes : Reaction → Bytes
  | .send r => r.bytes
  | .note _ => []

/-- What a reaction leaves in the log. -/
def Reaction.log : Reaction → List Log.Event
  | .send _ => []
  | .note farewell => [.closeReceived farewell]

namespace Server

section Shown

variable (c : Counters) (id : String) (peer : SocketAddress) (reactions : List Reaction)

theorem output_reactions (effects : List Effect) :
    Entry.output ⟨reactions.map (reactionEffect id) ++ effects, [], .zero⟩ id =
      reactions.flatMap Reaction.bytes ++ Entry.output ⟨effects, [], .zero⟩ id := by
  simp only [Entry.output, Bytes.join_eq_flatten]
  induction reactions with
  | nil => rfl
  | cons r rest ih =>
    cases r with
    | send r =>
      rw [List.flatMap_cons, List.append_assoc, ← ih]
      simp [reactionEffect, Reaction.bytes]
    | note farewell => exact ih

theorem log_reactions (effects : List Effect) :
    Entry.log ⟨reactions.map (reactionEffect id) ++ effects, [], .zero⟩ =
      reactions.flatMap Reaction.log ++ Entry.log ⟨effects, [], .zero⟩ := by
  simp only [Entry.log]
  induction reactions with
  | nil => rfl
  | cons r rest ih =>
    cases r with
    | send r => exact ih
    | note farewell =>
      rw [List.flatMap_cons, List.append_assoc, ← ih]
      rfl

/-- The effects of a session that has ended: what it wrote, -/
theorem output_shown (o : Outcome) :
    Entry.output ⟨shown c id peer (reactions, .ended o), [], .zero⟩ id =
      reactions.flatMap Reaction.bytes := by
  have h := output_reactions id reactions
    [.logged (.sessionEnded peer o), .passed (.left id),
      .logged (.sessionClosed peer c.enter.leave.active), .closed id]
  rw [show Entry.output ⟨[_, _, _, _], [], .zero⟩ id = [] from rfl, List.append_nil] at h
  exact h

/-- and what it logged. -/
theorem log_shown (o : Outcome) :
    Entry.log ⟨shown c id peer (reactions, .ended o), [], .zero⟩ =
      .sessionOpened peer c.enter.active ::
        (reactions.flatMap Reaction.log ++
          [.sessionEnded peer o, .sessionClosed peer c.enter.leave.active]) := by
  have h := log_reactions id reactions
    [.logged (.sessionEnded peer o), .passed (.left id),
      .logged (.sessionClosed peer c.enter.leave.active), .closed id]
  exact congrArg (.sessionOpened peer c.enter.active :: ·) h

end Shown

/-- Replies are written as the frames of a server and leave no log. -/
theorem flatMap_send (replies : List Reply) :
    (replies.map Reaction.send).flatMap Reaction.bytes =
      replies.flatMap fun reply => reply.frame.bytes := by
  rw [List.flatMap_map]
  congr 1
  funext reply
  exact Reply.bytes_eq reply

theorem flatMap_log_send (replies : List Reply) :
    (replies.map Reaction.send).flatMap Reaction.log = [] := by
  rw [List.flatMap_map]
  exact List.flatMap_eq_nil_iff.2 fun _ _ => rfl

/-! ## Conversations -/

/-- What a run `r` shows of a conversation on the connection `id`, when the counters were `c₀`
before it. -/
structure Echoes (id : String) (peer : SocketAddress) (c₀ : Counters) (c : Conversation)
    (r : Server × List Entry) : Prop where
  /-- The replies are written in their order, each as one frame of a server. -/
  output : r.2.flatMap (·.output id) = c.replies.flatMap fun reply => reply.frame.bytes
  /-- The log tells the number of messages, which is counted in 64 bits. -/
  log : (r.2.flatMap (·.log)).map Log.Event.line =
    ["INFO echo session " ++ peer.text ++ " opened (" ++ toString c₀.enter.active ++ " active)",
      "DEBUG close frame received: None",
      "DEBUG echo session " ++ peer.text ++ ": peer closed after " ++
        toString (c.messages % 2 ^ 64) ++ " frames",
      "INFO echo session " ++ peer.text ++ " closed (" ++ toString c₀.enter.leave.active ++
        " active)"]
  /-- The server closes the connection. -/
  closed : ∃ e ∈ r.2, id ∈ e.closed

/-! ### The lines of the log -/

section Lines

variable (peer : SocketAddress) (active : UInt64) (n : Nat)

theorem line_sessionOpened : (Log.Event.sessionOpened peer active).line =
    "INFO echo session " ++ peer.text ++ " opened (" ++ toString active ++ " active)" := by
  have hhead : "INFO" ++ " " ++ "echo session " = "INFO echo session " := rfl
  show "INFO" ++ " " ++
    ("echo session " ++ peer.text ++ " opened (" ++ Decimal.text active.toNat ++ " active)") = _
  rw [Decimal.text_eq_toString]
  simp only [← String.append_assoc, hhead]
  rfl

theorem line_sessionClosed : (Log.Event.sessionClosed peer active).line =
    "INFO echo session " ++ peer.text ++ " closed (" ++ toString active ++ " active)" := by
  have hhead : "INFO" ++ " " ++ "echo session " = "INFO echo session " := rfl
  show "INFO" ++ " " ++
    ("echo session " ++ peer.text ++ " closed (" ++ Decimal.text active.toNat ++ " active)") = _
  rw [Decimal.text_eq_toString]
  simp only [← String.append_assoc, hhead]
  rfl

theorem line_peerClosed : (Log.Event.sessionEnded peer (.peerClosed (.ofNat n))).line =
    "DEBUG echo session " ++ peer.text ++ ": peer closed after " ++ toString (n % 2 ^ 64) ++
      " frames" := by
  have hhead : "DEBUG" ++ " " ++ "echo session " = "DEBUG echo session " := rfl
  show "DEBUG" ++ " " ++
    ("echo session " ++ peer.text ++ ": peer closed after " ++
      Decimal.text (UInt64.ofNat n).toNat ++ " frames") = _
  rw [Decimal.text_eq_toString, UInt64.toNat_ofNat']
  simp only [← String.append_assoc, hhead]

theorem line_closeReceived :
    (Log.Event.closeReceived none).line = "DEBUG close frame received: None" := by
  show "DEBUG" ++ " " ++ ("close frame received: " ++ "None") = _
  rfl

end Lines

theorem course_conversation (c : Conversation) (finished : Bool) :
    Session.course c.bytes finished =
      ((c.items.flatMap Item.replies).map .send ++ [.note none, .send (.close none)],
        .ended (.peerClosed (.ofNat c.messages))) := by
  have hcourse : Session.course c.bytes false = _ := Session.feed_conversation c
  have happend := Session.course_append_of_ended hcourse [] finished
  rw [List.append_nil] at happend
  exact happend

/-- Every conversation is echoed, after any run of other clients and however it is cut. -/
theorem conversation_echoed (earlier : List (List Action)) {id : String}
    (hid : (after earlier).find? id = none) {peer : SocketAddress} {c : Conversation}
    {finished : Bool} {steps : List (List Action)} (h : Cuts id peer c.bytes finished steps) :
    Echoes id peer (after earlier).counters c ((after earlier).steps steps) := by
  obtain ⟨hkept, hready⟩ := kept_after earlier
  obtain ⟨heffects, hcounters⟩ := shown_steps hkept.mode hid hready h.delivers
  rw [course_conversation] at heffects
  constructor
  · rw [flatMap_output, Entry.joined, heffects, output_shown, List.flatMap_append,
      flatMap_send, Conversation.replies, List.flatMap_append]
    congr 1
  · rw [flatMap_log, Entry.joined, heffects, log_shown, List.flatMap_append, flatMap_log_send]
    show [Log.Event.line _, Log.Event.line _, Log.Event.line _, Log.Event.line _] = _
    rw [line_sessionOpened, line_closeReceived, line_peerClosed, line_sessionClosed]
  · rw [exists_mem_closed_iff, heffects]
    simp [shown, told]

/-- A text of one character that is cut inside it, with a ping at the cut and a pong behind. -/
def cutCharacter : Conversation where
  items :=
    [.message
      { content := .text "é"
        first := ⟨[0xC3], ⟨[1, 2, 3, 4], rfl⟩, .sixteen, by decide⟩
        more :=
          [([⟨true, ⟨[7], ⟨[5, 6, 7, 8], rfl⟩, .seven, by decide⟩, by decide⟩],
            ⟨[0xA9], ⟨[0, 0, 0, 0], rfl⟩, .sixtyFour, by decide⟩)]
        spells := by decide },
      .control ⟨false, ⟨[], ⟨[1, 1, 1, 1], rfl⟩, .seven, by decide⟩, by decide⟩]
  closeKey := ⟨[9, 9, 9, 9], rfl⟩
  closeForm := .seven

theorem cutCharacter_echoed :
    (after []).find? "a" = none ∧
      Cuts "a" loopback cutCharacter.bytes false
        [[.connect "a" loopback], [.send "a" cutCharacter.bytes]] ∧
      ((after []).steps
          [[.connect "a" loopback], [.send "a" cutCharacter.bytes]]).2.flatMap (·.output "a") =
        [0x8A, 1, 7, 0x81, 2, 0xC3, 0xA9, 0x88, 0] := by
  have hcuts : Cuts "a" loopback cutCharacter.bytes false
      [[.connect "a" loopback], [.send "a" cutCharacter.bytes]] :=
    ⟨[cutCharacter.bytes], List.flatten_singleton, rfl⟩
  refine ⟨rfl, hcuts, ?_⟩
  rw [(conversation_echoed [] rfl hcuts).output]
  decide

end Server

end WebSocketEcho
