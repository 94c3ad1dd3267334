import WebSocketEcho.Proofs.Frame.Written
import WebSocketEcho.Proofs.Session.Reading
import WebSocketEcho.Proofs.Utf8

/-!
# Conversations

A conversation is what a client sends that keeps the rules: messages, each cut into fragments
anywhere, with pings and pongs between them and between their fragments, and at last an empty close
frame.  Every frame has a key and a form of its length that the client chooses.

`Conversation.replies` says what is to be sent back, in the order in which messages and pings are
complete.  `feed_conversation` says that a session sends this, and then ends.  The induction is over
the fragments of a message, and `Expects` is what it carries: the rest of a text brings the checker
from where it stands to the end of a character.
-/

namespace WebSocketEcho

/-! ## What a client sends -/

/-- The payload of one frame, with the choices that are the client's. -/
structure Piece where
  payload : Bytes
  key : MaskKey
  form : LengthForm
  fits : payload.length < form.limit

def Piece.frame (fin : Bool) (opcode : Opcode) (p : Piece) : WrittenFrame :=
  ⟨fin, opcode, some p.key, p.form, p.payload⟩

/-- A ping or a pong. -/
structure Control where
  isPing : Bool
  piece : Piece
  short : piece.payload.length ≤ 125

def Control.frame (c : Control) : WrittenFrame :=
  c.piece.frame true (if c.isPing then .ping else .pong)

/-- A ping asks for a pong, a pong for nothing. -/
def Control.replies (c : Control) : List Reply :=
  if c.isPing then [.pong c.piece.payload] else []

/-- What a message says. -/
inductive Content where
  | text (t : String)
  | binary (bytes : Bytes)

namespace Content

def kind : Content → Kind
  | .text _ => .text
  | .binary _ => .binary

/-- The bytes of a text are its UTF-8. -/
def payload : Content → Bytes
  | .text t => t.toUTF8.data.toList
  | .binary bytes => bytes

end Content

/-- Fragments of a message, each behind the controls that come before it. -/
abbrev Fragments := List (List Control × Piece)

/-- What fragments add to a message. -/
def Fragments.payload (fragments : Fragments) : Bytes := fragments.flatMap (·.2.payload)

/-- The replies to the controls between fragments. -/
def Fragments.replies (fragments : Fragments) : List Reply :=
  fragments.flatMap fun fragment => fragment.1.flatMap Control.replies

/-- A message in fragments, cut anywhere. -/
structure Message where
  content : Content
  first : Piece
  more : Fragments
  spells : first.payload ++ more.payload = content.payload

namespace Message

/-- The frames of a fragment and of those behind it. -/
def framesFrom (opcode : Opcode) (piece : Piece) : Fragments → List WrittenFrame
  | [] => [piece.frame true opcode]
  | (controls, next) :: more =>
    piece.frame false opcode ::
      (controls.map Control.frame ++ framesFrom .continuation next more)

def frames (m : Message) : List WrittenFrame :=
  framesFrom m.content.kind.opcode m.first m.more

/-- The message goes back whole, after the pongs for the pings inside it. -/
def replies (m : Message) : List Reply :=
  m.more.replies ++ [.echo m.content.kind m.content.payload]

end Message

/-- What stands in a conversation. -/
inductive Item where
  | message (m : Message)
  | control (c : Control)

namespace Item

def frames : Item → List WrittenFrame
  | .message m => m.frames
  | .control c => [c.frame]

def replies : Item → List Reply
  | .message m => m.replies
  | .control c => c.replies

def isMessage : Item → Bool
  | .message _ => true
  | .control _ => false

end Item

/-- Everything that a client sends, the key and the form of its close frame last. -/
structure Conversation where
  items : List Item
  closeKey : MaskKey
  closeForm : LengthForm

namespace Conversation

def closing (c : Conversation) : WrittenFrame := ⟨true, .close, some c.closeKey, c.closeForm, []⟩

def frames (c : Conversation) : List WrittenFrame := c.items.flatMap Item.frames ++ [c.closing]

def bytes (c : Conversation) : Bytes := c.frames.flatMap WrittenFrame.bytes

/-- What is to be sent back. -/
def replies (c : Conversation) : List Reply := c.items.flatMap Item.replies ++ [.close none]

/-- How many messages there are. -/
def messages (c : Conversation) : Nat := c.items.countP Item.isMessage

end Conversation

/-- The frame of a reply. -/
def Reply.frame : Reply → WrittenFrame
  | .echo kind payload => .served kind.opcode payload
  | .pong payload => .served .pong payload
  | .close none => .served .close []
  | .close (some f) => .served .close f.payload

theorem Reply.bytes_eq (r : Reply) : r.bytes = r.frame.bytes := by
  cases r with
  | echo kind payload => exact WrittenFrame.encode_eq _ _
  | pong payload => exact WrittenFrame.encode_eq _ _
  | close farewell =>
    cases farewell with
    | none => exact WrittenFrame.encode_eq _ _
    | some f => exact WrittenFrame.encode_eq _ _

namespace Session

/-! ## How single frames are judged -/

section Judge

variable {gathering : Option Gathering} {g : Gathering}

/-- A data frame of a client passes the checks that are common to all frames. -/
theorem judge_data {fin : Bool} {opcode : Opcode} {payload : Bytes}
    (h : isControl opcode = false) :
    judge gathering ⟨fin, false, opcode, true, payload⟩ =
      judgeOpcode gathering ⟨fin, false, opcode, true, payload⟩ := by
  simp [judge, h]

theorem judge_first (kind : Kind) (fin : Bool) (payload : Bytes) :
    judge none ⟨fin, false, kind.opcode, true, payload⟩ =
      join ⟨kind, [], .boundary⟩ fin payload := by
  cases kind <;> exact judge_data rfl

theorem judge_continuation (g : Gathering) (fin : Bool) (payload : Bytes) :
    judge (some g) ⟨fin, false, .continuation, true, payload⟩ = join g fin payload :=
  judge_data rfl

theorem judge_control (gathering : Option Gathering) (c : Control) :
    judge gathering c.frame.frame =
      if c.isPing then .ping c.piece.payload else .proceed gathering := by
  have hshort : (c.piece.payload.drop 125).length = 0 := by
    have hle := c.short
    rw [List.length_drop]
    omega
  cases hping : c.isPing <;>
    simp [judge, judgeOpcode, isControl, Control.frame, Piece.frame, WrittenFrame.frame, hping,
      hshort]

theorem judge_closing (gathering : Option Gathering) (c : Conversation) :
    judge gathering c.closing.frame = .close none := by
  simp [judge, judgeOpcode, judgeClose, isControl, Conversation.closing, WrittenFrame.frame]

/-- The rest of a message is one that its beginning can have: a text goes on to the end of a
character. -/
def Expects (g : Gathering) (rest : Bytes) : Prop :=
  g.kind = .text → Utf8.run g.check rest = some .boundary

/-- The last fragment completes the message. -/
theorem join_last {payload : Bytes} (h : Expects g payload) :
    join g true payload = .message g.kind (g.pieces.reverse.flatten ++ payload) := by
  have hjoin : Bytes.join (payload :: g.pieces).reverse = g.pieces.reverse.flatten ++ payload := by
    rw [Bytes.join_eq_flatten]
    simp
  rw [join, hjoin]
  cases hkind : g.kind with
  | binary => rfl
  | text => simp [h hkind]

/-- Any other fragment leaves the message to be completed. -/
theorem join_more {payload rest : Bytes} (h : Expects g (payload ++ rest)) :
    ∃ check, join g false payload = .proceed (some ⟨g.kind, payload :: g.pieces, check⟩) ∧
      Expects ⟨g.kind, payload :: g.pieces, check⟩ rest := by
  cases hkind : g.kind with
  | binary =>
    refine ⟨g.check, ?_, fun htext => ?_⟩
    · rw [join]
      simp [hkind]
    · cases htext
  | text =>
    have hrun := h hkind
    rw [Utf8.run_append] at hrun
    cases hcheck : Utf8.run g.check payload with
    | none =>
      rw [hcheck] at hrun
      cases hrun
    | some check =>
      rw [hcheck] at hrun
      refine ⟨check, ?_, fun _ => hrun⟩
      rw [join]
      simp [hkind, hcheck]

end Judge

/-! ## How frames are read -/

section Read

variable {gathering : Option Gathering} {g : Gathering} {echoed : UInt64}

/-- The step of a reading for a frame that was written. -/
theorem consume_written {f : WrittenFrame} (h : f.payload.length < f.form.limit) (rest : Bytes) :
    consume gathering echoed (f.bytes ++ rest) [] =
      match judge gathering f.frame with
      | .proceed gathering => consume gathering echoed rest []
      | .message kind payload =>
        before [.send (.echo kind payload)] (consume none (echoed + 1) rest [])
      | .ping payload => before [.send (.pong payload)] (consume gathering echoed rest [])
      | .close farewell =>
        ([.note farewell, .send (.close farewell)], .ended (.peerClosed echoed))
      | .fail failure => ([], .ended (.failed failure)) :=
  consume_of_frame (WrittenFrame.decode_bytes h rest)

theorem consume_control (c : Control) (rest : Bytes) :
    consume gathering echoed (c.frame.bytes ++ rest) [] =
      before (c.replies.map .send) (consume gathering echoed rest []) := by
  rw [consume_written (f := c.frame) c.piece.fits, judge_control, Control.replies]
  cases c.isPing <;> rfl

/-- Controls are answered and leave the message under way as it is. -/
theorem consume_controls (controls : List Control) (rest : Bytes) :
    consume gathering echoed ((controls.map Control.frame).flatMap WrittenFrame.bytes ++ rest) [] =
      before ((controls.flatMap Control.replies).map .send)
        (consume gathering echoed rest []) := by
  induction controls with
  | nil => rfl
  | cons c controls ih =>
    rw [List.map_cons, List.flatMap_cons, List.append_assoc, consume_control, ih, before_before,
      List.flatMap_cons, List.map_append]

/-- Fragments are put together, with the controls between them answered on the way. -/
theorem consume_fragments {opcode : Opcode} {piece : Piece} {more : Fragments}
    (hjudge : ∀ fin payload, judge gathering ⟨fin, false, opcode, true, payload⟩ =
      join g fin payload)
    (h : Expects g (piece.payload ++ more.payload)) (rest : Bytes) :
    consume gathering echoed
        ((Message.framesFrom opcode piece more).flatMap WrittenFrame.bytes ++ rest) [] =
      before
        ((more.replies ++
          [Reply.echo g.kind
            (g.pieces.reverse.flatten ++ (piece.payload ++ more.payload))]).map .send)
        (consume none (echoed + 1) rest []) := by
  induction more generalizing gathering opcode g piece with
  | nil =>
    rw [Fragments.payload, List.flatMap_nil, List.append_nil] at h ⊢
    have hverdict : judge gathering (piece.frame true opcode).frame = _ :=
      (hjudge true piece.payload).trans (join_last h)
    rw [Message.framesFrom, List.flatMap_cons, List.flatMap_nil, List.append_nil,
      consume_written (f := piece.frame true opcode) piece.fits, hverdict]
    rfl
  | cons fragment more ih =>
    obtain ⟨controls, next⟩ := fragment
    rw [Fragments.payload, List.flatMap_cons] at h
    obtain ⟨check, hjoin, hexpects⟩ := join_more h
    have hverdict : judge gathering (piece.frame false opcode).frame = _ :=
      (hjudge false piece.payload).trans hjoin
    rw [Message.framesFrom, List.flatMap_cons, List.append_assoc,
      consume_written (f := piece.frame false opcode) piece.fits, hverdict]
    dsimp only
    rw [List.flatMap_append, List.append_assoc, consume_controls,
      ih (judge_continuation _) hexpects, before_before]
    simp [Fragments.replies, Fragments.payload]

/-- A message is echoed whole. -/
theorem consume_message (m : Message) (rest : Bytes) :
    consume none echoed (m.frames.flatMap WrittenFrame.bytes ++ rest) [] =
      before (m.replies.map .send) (consume none (echoed + 1) rest []) := by
  have hexpects : Expects ⟨m.content.kind, [], .boundary⟩
      (m.first.payload ++ m.more.payload) := by
    intro hkind
    rw [m.spells]
    cases hcontent : m.content with
    | binary bytes =>
      rw [hcontent] at hkind
      cases hkind
    | text t =>
      show Utf8.run .boundary t.toUTF8.data.toList = _
      rw [← Utf8.ofText_eq]
      exact Utf8.run_ofText t
  rw [Message.frames, consume_fragments (judge_first m.content.kind) hexpects, m.spells,
    Message.replies]
  rfl

theorem consume_item (i : Item) (rest : Bytes) :
    consume none echoed (i.frames.flatMap WrittenFrame.bytes ++ rest) [] =
      before (i.replies.map .send)
        (consume none (echoed + if i.isMessage then 1 else 0) rest []) := by
  cases i with
  | message m => exact consume_message m rest
  | control c =>
    have hzero : (echoed + if (Item.control c).isMessage then 1 else 0) = echoed :=
      UInt64.add_zero echoed
    show consume none echoed ([c.frame].flatMap WrittenFrame.bytes ++ rest) [] = _
    rw [hzero, List.flatMap_cons, List.flatMap_nil, List.append_nil]
    exact consume_control c rest

theorem consume_items (items : List Item) (rest : Bytes) :
    consume none echoed ((items.flatMap Item.frames).flatMap WrittenFrame.bytes ++ rest) [] =
      before ((items.flatMap Item.replies).map .send)
        (consume none (echoed + .ofNat (items.countP Item.isMessage)) rest []) := by
  induction items generalizing echoed with
  | nil =>
    rw [List.countP_nil, show UInt64.ofNat 0 = 0 from rfl, UInt64.add_zero]
    rfl
  | cons i items ih =>
    have hone : UInt64.ofNat (if i.isMessage then 1 else 0) = if i.isMessage then 1 else 0 := by
      split <;> rfl
    rw [List.flatMap_cons, List.flatMap_append, List.append_assoc, consume_item, ih,
      before_before, List.flatMap_cons, List.map_append, List.countP_cons, UInt64.ofNat_add, hone,
      UInt64.add_assoc, UInt64.add_comm (if i.isMessage then 1 else 0)]

/-- A session answers a conversation and ends when the client closes it, with the number of messages
in the 64 bits that it has for them. -/
theorem feed_conversation (c : Conversation) :
    (begin []).feed c.bytes =
      ((c.items.flatMap Item.replies).map .send ++ [.note none, .send (.close none)],
        .ended (.peerClosed (.ofNat c.messages))) := by
  have hfits : c.closing.payload.length < c.closing.form.limit := by
    show 0 < c.closeForm.limit
    cases c.closeForm <;> decide
  have hclose : consume none (.ofNat c.messages) (c.closing.bytes ++ []) [] = _ :=
    consume_written hfits []
  rw [judge_closing, List.append_nil] at hclose
  show consume none 0 c.bytes [] = _
  rw [Conversation.bytes, Conversation.frames, List.flatMap_append, consume_items, UInt64.zero_add,
    List.flatMap_cons, List.flatMap_nil, List.append_nil]
  show before _ (consume none (.ofNat c.messages) c.closing.bytes []) = _
  rw [hclose]
  rfl

end Read

end Session

end WebSocketEcho
