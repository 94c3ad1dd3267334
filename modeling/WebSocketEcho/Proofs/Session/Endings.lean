import WebSocketEcho.Proofs.Session.Rules

/-!
# How sessions end

A session that waits knows its past: how many messages it has echoed, and which one is under way
(`Session.waits`).  From there on a legal close frame ends it, whatever stands behind the frame
(`feed_of_close`), and so does the departure of the client.  What a session reads of a client that
has vanished is `Meets`: the first thing that asks for an answer, which cannot be written, or what
fails the session before that.

Every stream meets something (`exists_meets`), so no session outlives its client.
-/

namespace WebSocketEcho

/-! ## Close frames -/

/-- The codes that may travel in a close frame. -/
def CloseCode.MayTravel (c : CloseCode) : Prop :=
  1000 ≤ c.number.toNat ∧ c.number.toNat ≤ 1003 ∨ 1007 ≤ c.number.toNat ∧ c.number.toNat ≤ 1013 ∨
    3000 ≤ c.number.toNat ∧ c.number.toNat ≤ 4999

theorem CloseCode.isSome_lookup_names (n : UInt16) :
    (names.lookup n).isSome = true ↔ n ∈ names.map Prod.fst := by
  have hall : ∀ l : List (UInt16 × String), (l.lookup n).isSome = true ↔ n ∈ l.map Prod.fst := by
    intro l
    induction l with
    | nil => simp
    | cons pair rest ih =>
      rw [List.lookup_cons, List.map_cons, List.mem_cons]
      by_cases h : n = pair.1
      · simp [h]
      · rw [beq_eq_false_iff_ne.2 h]
        exact ih.trans (or_iff_right h).symm
  exact hall names

theorem CloseCode.isAllowed_iff (c : CloseCode) : c.isAllowed = true ↔ c.MayTravel := by
  rw [isAllowed, Bool.or_eq_true, isSome_lookup_names, MayTravel]
  simp only [names, List.map_cons, List.map_nil, List.mem_cons, List.not_mem_nil, or_false,
    ← UInt16.toNat_inj, Bool.and_eq_true, decide_eq_true_eq, UInt16.le_iff_toNat_le,
    UInt16.reduceToNat]
  omega

/-- What a close frame says: nothing, or a code and a reason. -/
structure ReceivedFrame.IsClose (f : ReceivedFrame) (said : Option Farewell) : Prop where
  opcode : f.header.opcode? = some .close
  fin : f.header.fin = true
  unreserved : f.header.reserved = false
  masked : f.header.key ≠ none
  short : f.payload.length ≤ 125
  payload : f.payload = (said.map Farewell.payload).getD []
  text : ∀ farewell, said = some farewell → Utf8.IsText farewell.reason

/-- How a close frame is answered. -/
inductive ClosesWith : Option Farewell → Option Farewell → Prop where
  | empty : ClosesWith none none
  | same {farewell : Farewell} (h : farewell.code.MayTravel) :
      ClosesWith (some farewell) (some farewell)
  | refused {farewell : Farewell} (h : ¬ farewell.code.MayTravel) :
      ClosesWith (some farewell) (some ⟨⟨1002⟩, Bytes.ofText "Protocol violation"⟩)

theorem closesWith_reply (said : Option Farewell) : ClosesWith said (said.map Farewell.reply) := by
  cases said with
  | none => exact .empty
  | some farewell =>
    rw [Option.map_some, Farewell.reply]
    split
    · rename_i h
      exact .same (farewell.code.isAllowed_iff.1 h)
    · rename_i h
      exact .refused fun hmay => h (farewell.code.isAllowed_iff.2 hmay)

/-- The two bytes of a code spell its number. -/
theorem CloseCode.bytes_eq (c : CloseCode) :
    c.bytes = [UInt8.ofNat (c.number.toNat / 256), UInt8.ofNat c.number.toNat] := by
  rw [bytes, Bytes.ofNat, Bytes.ofNat, Bytes.ofNat]
  rfl

theorem CloseCode.exists_bytes_eq (high low : UInt8) :
    ∃ c : CloseCode, c.bytes = [high, low] := by
  have hhigh := high.toNat_lt
  have hlow := low.toNat_lt
  refine ⟨⟨UInt16.ofNat (256 * high.toNat + low.toNat)⟩, ?_⟩
  rw [bytes_eq]
  dsimp only
  have hlt : 256 * high.toNat + low.toNat < 65536 := by omega
  rw [UInt16.toNat_ofNat_of_lt' hlt]
  congr 1
  · apply UInt8.toNat_inj.1
    rw [UInt8.toNat_ofNat']
    omega
  · congr 1
    apply UInt8.toNat_inj.1
    rw [UInt8.toNat_ofNat']
    omega

/-- These are the close frames that keep the rules. -/
theorem ReceivedFrame.isClose_iff (m : Option Underway) (f : ReceivedFrame) :
    (∃ said, f.IsClose said) ↔
      f.header.opcode? = some .close ∧ Session.Keeps (Session.rules m f .close) := by
  have hkeeps : Session.Keeps (Session.rules m f .close) ↔ f.header.reserved = false ∧
      f.header.key ≠ none ∧ f.header.fin = true ∧ f.payload.length ≤ 125 ∧
        f.payload.length ≠ 1 ∧ Utf8.IsText (f.payload.drop 2) := by
    simp [Session.Keeps, Session.rules, Session.Spoilt, Session.joined, Session.isControl]
  rw [hkeeps]
  constructor
  · rintro ⟨said, hclose⟩
    refine ⟨hclose.opcode, hclose.unreserved, hclose.masked, hclose.fin, hclose.short, ?_⟩
    rw [hclose.payload]
    cases said with
    | none => exact ⟨by simp, "", rfl⟩
    | some farewell =>
      have htext := hclose.text farewell rfl
      simp only [Option.map_some, Option.getD_some, Farewell.payload, CloseCode.bytes_eq]
      exact ⟨by simp, htext⟩
  · rintro ⟨hopcode, hreserved, hmasked, hfin, hshort, hlength, htext⟩
    rcases hpayload : f.payload with _ | ⟨high, _ | ⟨low, reason⟩⟩
    · refine ⟨none, hopcode, hfin, hreserved, hmasked, hshort, hpayload, ?_⟩
      intro farewell h
      cases h
    · rw [hpayload] at hlength
      exact absurd rfl hlength
    · rw [hpayload] at htext
      obtain ⟨code, hcode⟩ := CloseCode.exists_bytes_eq high low
      refine ⟨some ⟨code, reason⟩, hopcode, hfin, hreserved, hmasked, hshort, ?_, ?_⟩
      · rw [hpayload, Option.map_some, Option.getD_some, Farewell.payload, hcode]
        rfl
      · rintro farewell ⟨⟩
        exact htext

/-! ## What a reading comes to -/

/-- Whether a reply sends a message back. -/
def Reply.isEcho : Reply → Bool
  | .echo _ _ => true
  | .pong _ | .close _ => false

namespace Session

/-- What a reading can come to, when `echoed` messages had been echoed before it. -/
inductive ComesTo (echoed : UInt64) : List Reaction × Progress → Prop where
  | waits (replies : List Reply) {t : Session}
      (h : t.echoed = echoed + .ofNat (replies.countP Reply.isEcho)) :
      ComesTo echoed (replies.map .send, .waiting t)
  | fails (replies : List Reply) (failure : Failure) :
      ComesTo echoed (replies.map .send, .ended (.failed failure))
  | closes (replies : List Reply) (farewell : Option Farewell) :
      ComesTo echoed (replies.map .send ++ [.note farewell, .send (.close farewell)],
        .ended (.peerClosed (echoed + .ofNat (replies.countP Reply.isEcho))))

section ComesTo

variable {echoed : UInt64} {read : Bytes} {t t' : Session} {reactions : List Reaction}

theorem ComesTo.cons {reply : Reply} {r : List Reaction × Progress}
    (h : ComesTo (echoed + .ofNat ([reply].countP Reply.isEcho)) r) :
    ComesTo echoed (before [.send reply] r) := by
  have hcount : ∀ replies : List Reply, echoed + .ofNat ([reply].countP Reply.isEcho) +
      .ofNat (replies.countP Reply.isEcho) =
        echoed + .ofNat ((reply :: replies).countP Reply.isEcho) := by
    intro replies
    rw [show reply :: replies = [reply] ++ replies from rfl, List.countP_append, UInt64.ofNat_add,
      UInt64.add_assoc]
  cases h with
  | waits replies h =>
    rw [hcount] at h
    exact .waits (reply :: replies) h
  | fails replies failure => exact .fails (reply :: replies) failure
  | closes replies farewell =>
    rw [hcount]
    exact .closes (reply :: replies) farewell

theorem comesTo_consume (g : Option Gathering) (echoed : UInt64) (buffer : Bytes) :
    ComesTo echoed (consume g echoed buffer []) := by
  induction hn : buffer.length using Nat.strongRecOn generalizing g echoed buffer with
  | ind n ih =>
    subst hn
    cases h : Frame.decode buffer with
    | incomplete =>
      rw [consume_of_incomplete h]
      exact .waits [] (UInt64.add_zero echoed).symm
    | reservedOpcode number =>
      rw [consume_of_reservedOpcode h]
      exact .fails [] _
    | frame f rest =>
      have hlt := Frame.length_lt_of_decode h
      rw [consume_of_frame h]
      cases judge g f with
      | proceed g => exact ih _ hlt g echoed rest rfl
      | message kind payload => exact .cons (ih _ hlt none (echoed + 1) rest rfl)
      | ping payload =>
        refine .cons ?_
        rw [show echoed + .ofNat ([Reply.pong payload].countP Reply.isEcho) = echoed from
          UInt64.add_zero echoed]
        exact ih _ hlt g echoed rest rfl
      | close farewell =>
        have hcloses : ComesTo echoed _ := .closes [] farewell
        rw [show echoed + .ofNat (([] : List Reply).countP Reply.isEcho) = echoed from
          UInt64.add_zero echoed] at hcloses
        exact hcloses
      | fail failure => exact .fails [] failure

/-- A session that waits has sent replies and noted nothing. -/
theorem replies_of_feed (h : t.feed read = (reactions, .waiting t')) :
    ∃ replies : List Reply, reactions = replies.map .send ∧
      t'.echoed = t.echoed + .ofNat (replies.countP Reply.isEcho) := by
  have hcomes := comesTo_consume t.gathering t.echoed (t.buffer ++ read)
  rw [show consume t.gathering t.echoed (t.buffer ++ read) [] = _ from h] at hcomes
  cases hcomes with
  | waits replies h => exact ⟨replies, rfl, h⟩

end ComesTo

/-! ## The message under way -/

/-- The message under way, as a session remembers it. -/
def underway (t : Session) : Option Underway :=
  t.gathering.map fun g => ⟨g.kind, g.pieces.reverse.flatten⟩

section Close

variable {m m' : Option Underway} {g : Option Gathering} {f : ReceivedFrame}
  {said : Option Farewell} {t : Session} {frames : List ReceivedFrame} {replies : List Reply}
  {unread rest : Bytes}

theorem judge_of_isClose (hclose : f.IsClose said) (g : Option Gathering) :
    judge g (f.frame .close) = .close (said.map Farewell.reply) := by
  have hreserved : ¬ f.header.reserved = true := by simp [hclose.unreserved]
  have hfin : ¬ (isControl .close = true ∧ f.header.fin = false) := by simp [hclose.fin]
  have hshort : ¬ (isControl .close = true ∧ 125 < f.payload.length) :=
    fun h => absurd hclose.short (Nat.not_le.2 h.2)
  rw [judge_eq, if_neg hreserved, if_neg hclose.masked, if_neg hfin, if_neg hshort]
  show judgeClose f.payload = _
  rw [hclose.payload]
  cases said with
  | none => rfl
  | some farewell =>
    have hnumber : 256 * (UInt8.ofNat (farewell.code.number.toNat / 256)).toNat +
        (UInt8.ofNat farewell.code.number.toNat).toNat = farewell.code.number.toNat := by
      have hlt := farewell.code.number.toNat_lt
      rw [UInt8.toNat_ofNat', UInt8.toNat_ofNat']
      omega
    have hvalid : Utf8.isValid farewell.reason = true :=
      Utf8.isValid_iff.2 (hclose.text farewell rfl)
    rw [Option.map_some, Option.getD_some, Farewell.payload, CloseCode.bytes_eq]
    show judgeClose (_ :: _ :: farewell.reason) = _
    rw [judgeClose, if_pos hvalid, hnumber, UInt16.ofNat_toNat]
    rfl

theorem consume_of_isClose (hclose : f.IsClose said) (g : Option Gathering) (echoed : UInt64)
    (rest : Bytes) :
    consume g echoed (f.bytes ++ rest) [] =
      ([.note (said.map Farewell.reply), .send (.close (said.map Farewell.reply))],
        .ended (.peerClosed echoed)) := by
  rw [consume_received hclose.opcode, judge_of_isClose hclose]

/-- What a session remembers is the message under way. -/
theorem underway_eq (h : Option.Rel Gathering.Holds t.gathering m) : t.underway = m := by
  rw [underway]
  cases hg : t.gathering with
  | none =>
    rw [hg] at h
    cases h
    rfl
  | some g =>
    rw [hg] at h
    cases h with
    | some hholds => rw [Option.map_some, hholds.kind, hholds.payload]

/-- A session that waits remembers the message under way. -/
theorem holds_of_feed {read : Bytes} {reactions : List Reaction}
    (h : (begin []).feed read = (reactions, .waiting t)) :
    Option.Rel Gathering.Holds t.gathering t.underway := by
  obtain ⟨frames, m, replies, tail, hlegal, rfl, htail⟩ := exists_legal none read
  obtain ⟨g, echoed, hg, hread⟩ := consume_legal hlegal .none 0
  have hlast : (consume g echoed tail []).2 = .waiting t :=
    congrArg Prod.snd ((hread tail).symm.trans h)
  rcases htail with ⟨failure, hends⟩ | ⟨f, rest, hopcode, hkeeps, rfl⟩
  · cases hends with
    | reserved hh rest =>
      rw [consume_of_reservedOpcode (FrameHeader.decode_of_reserved hh rest)] at hlast
      cases hlast
    | broken ho hbroken rest =>
      rw [consume_received ho, judge_of_firstBroken hg hbroken] at hlast
      cases hlast
    | stopped htail =>
      rw [consume_of_incomplete (Frame.decode_of_partial htail)] at hlast
      cases hlast
      rw [underway_eq hg]
      exact hg
  · obtain ⟨said, hclose⟩ := (f.isClose_iff m).2 ⟨hopcode, hkeeps⟩
    rw [consume_of_isClose hclose] at hlast
    cases hlast

/-! ## The client closes -/

/-- A legal close frame ends a session, in any state and whatever stands behind it. -/
theorem feed_of_close (hg : Option.Rel Gathering.Holds t.gathering t.underway)
    (hlegal : Legal t.underway frames m' replies) (hclose : f.IsClose said)
    (hbytes : t.buffer ++ unread = frames.flatMap (·.bytes) ++ (f.bytes ++ rest)) :
    t.feed unread =
      (replies.map .send ++
          [.note (said.map Farewell.reply), .send (.close (said.map Farewell.reply))],
        .ended (.peerClosed (t.echoed + .ofNat (replies.countP Reply.isEcho)))) := by
  obtain ⟨g, echoed, _, hread⟩ := consume_legal hlegal hg t.echoed
  have hfeed : t.feed unread =
      (replies.map .send ++
          [.note (said.map Farewell.reply), .send (.close (said.map Farewell.reply))],
        .ended (.peerClosed echoed)) := by
    rw [feed, hbytes, hread, consume_of_isClose hclose]
    rfl
  have hcomes := comesTo_consume t.gathering t.echoed (t.buffer ++ unread)
  rw [show consume t.gathering t.echoed (t.buffer ++ unread) [] = _ from hfeed] at hcomes
  rw [hfeed]
  generalize hreactions : replies.map Reaction.send ++ _ = reactions at hcomes
  cases hcomes with
  | closes sent farewell =>
    obtain ⟨hsent, hlast⟩ := List.append_inj' hreactions rfl
    rw [(List.map_inj_right fun _ _ => Reaction.send.inj).1 hsent]

/-- As long as the client receives, what a session has read of it counts. -/
theorem poll_of_feed_ended {w : Wire} {reactions : List Reaction} {o : Outcome}
    (hw : w.isWritable = true) (h : t.feed w.unread = (reactions, .ended o)) :
    t.poll w = (reactions, .ended o) := by
  rw [poll]
  cases hstate : w.state with
  | present => exact h
  | finished =>
    dsimp only
    rw [h]
    rfl
  | vanished | reset =>
    rw [Wire.isWritable, hstate] at hw
    cases hw

end Close

/-! ## The client vanishes -/

/-- What a session meets that reads the bytes of a client that has vanished: what it notes, and what
it fails with.  Frames that ask for no answer come before it. -/
inductive Meets (m : Option Underway) : Bytes → List Reaction → Failure → Prop where
  /-- A complete message or a ping is to be answered. -/
  | asked {m' : Option Underway} {frames : List ReceivedFrame} {f : ReceivedFrame} {o : Opcode}
      (hlegal : Legal m frames m' []) (ho : f.header.opcode? = some o) (hclose : o ≠ .close)
      (hkeeps : Keeps (rules m' f o)) (hasks : answers m' f o ≠ []) (rest : Bytes) :
      Meets m (frames.flatMap (·.bytes) ++ (f.bytes ++ rest)) [] (.network .brokenPipe)
  /-- A legal close frame is noted and to be answered. -/
  | closed {m' : Option Underway} {frames : List ReceivedFrame} {f : ReceivedFrame}
      {said answer : Option Farewell} (hlegal : Legal m frames m' []) (hclose : f.IsClose said)
      (hanswer : answer = said.map Farewell.reply) (rest : Bytes) :
      Meets m (frames.flatMap (·.bytes) ++ (f.bytes ++ rest)) [.note answer]
        (.network .brokenPipe)
  /-- A rule is broken, or there is nothing more to read. -/
  | failed {m' : Option Underway} {frames : List ReceivedFrame} {tail : Bytes}
      {failure : Failure} (hlegal : Legal m frames m' []) (hends : Ends m' tail true failure) :
      Meets m (frames.flatMap (·.bytes) ++ tail) [] failure

section Meets

variable {m m' : Option Underway} {frames : List ReceivedFrame} {replies : List Reply}
  {bytes : Bytes} {reactions : List Reaction} {failure : Failure} {t : Session}

/-- Legal frames ask for nothing, or one of them is the first that asks. -/
theorem exists_first_asking (hlegal : Legal m frames m' replies) :
    replies = [] ∨ ∃ front f back m₁ o, frames = front ++ f :: back ∧ Legal m front m₁ [] ∧
      f.header.opcode? = some o ∧ o ≠ .close ∧ Keeps (rules m₁ f o) ∧ answers m₁ f o ≠ [] := by
  induction hlegal with
  | nil m => exact Or.inl rfl
  | @cons m m' f o frames replies ho hclose hkeeps h ih =>
    by_cases hasks : answers m f o = []
    · rw [hasks, List.nil_append]
      refine ih.imp_right ?_
      rintro ⟨front, f', back, m₁, o', rfl, hfront, hrest⟩
      refine ⟨f :: front, f', back, m₁, o', rfl, ?_, hrest⟩
      have hcons := Legal.cons ho hclose hkeeps hfront
      rw [hasks] at hcons
      exact hcons
    · exact Or.inr ⟨[], f, frames, m, o, rfl, .nil m, ho, hclose, hkeeps, hasks⟩

/-- Every stream meets something. -/
theorem exists_meets (m : Option Underway) (bytes : Bytes) :
    ∃ reactions failure, Meets m bytes reactions failure := by
  obtain ⟨frames, m', replies, tail, hlegal, rfl, htail⟩ := exists_legal m bytes
  rcases exists_first_asking hlegal with
    rfl | ⟨front, f, back, m₁, o, rfl, hfront, ho, hclose, hkeeps, hasks⟩
  · rcases htail with ⟨failure, hends⟩ | ⟨f, rest, hopcode, hkeeps, rfl⟩
    · exact ⟨_, _, .failed hlegal hends⟩
    · obtain ⟨said, hclose⟩ := (f.isClose_iff m').2 ⟨hopcode, hkeeps⟩
      exact ⟨_, _, .closed hlegal hclose rfl rest⟩
  · refine ⟨[], .network .brokenPipe, ?_⟩
    rw [List.flatMap_append, List.flatMap_cons, List.append_assoc, List.append_assoc]
    exact .asked hfront ho hclose hkeeps hasks (back.flatMap (·.bytes) ++ tail)

/-- Once something is to be sent, a session whose client has vanished fails to send it. -/
theorem poll_of_vanished_send {reply : Reply} {sent : List Reaction} {p : Progress}
    {w : Wire} (hw : w.state = .vanished)
    (h : t.feed w.unread = (reactions ++ .send reply :: sent, p))
    (hnotes : ∀ r ∈ reactions, r.isSend = false) :
    t.poll w = (reactions, .ended (.failed (.network .brokenPipe))) := by
  have hany : (reactions ++ .send reply :: sent).any Reaction.isSend = true := by
    simp [Reaction.isSend]
  have htake : (reactions ++ .send reply :: sent).takeWhile (fun r => !r.isSend) = reactions := by
    rw [List.takeWhile_append_of_pos fun r hr => by simp [hnotes r hr],
      List.takeWhile_cons_of_neg (by simp [Reaction.isSend]), List.append_nil]
  rw [poll, hw]
  dsimp only
  rw [h]
  dsimp only
  rw [if_pos hany, htake]

/-- A session whose client has vanished ends with what it meets. -/
theorem poll_of_meets (hg : Option.Rel Gathering.Holds t.gathering t.underway) {w : Wire}
    (hw : w.state = .vanished)
    (h : Meets t.underway (t.buffer ++ w.unread) reactions failure) :
    t.poll w = (reactions, .ended (.failed failure)) := by
  generalize hbytes : t.buffer ++ w.unread = bytes at h
  cases h with
  | asked hlegal ho hclose hkeeps hasks rest =>
    obtain ⟨g, echoed, hg', hread⟩ := consume_legal hlegal hg t.echoed
    obtain ⟨g', echoed', _, hread'⟩ := consume_kept hg' ho hclose hkeeps echoed
    obtain ⟨reply, more, hmore⟩ := List.exists_cons_of_ne_nil hasks
    have hfeed : t.feed w.unread =
        before [] (before ((reply :: more).map .send) (consume g' echoed' rest [])) := by
      rw [feed, hbytes, hread, hread', hmore]
      rfl
    exact poll_of_vanished_send hw hfeed fun r hr => absurd hr List.not_mem_nil
  | closed hlegal hclose hanswer rest =>
    subst hanswer
    have hfeed := feed_of_close hg hlegal hclose hbytes
    exact poll_of_vanished_send hw hfeed fun r hr => by
      rw [List.mem_singleton.1 hr]
      rfl
  | failed hlegal hends =>
    obtain ⟨g, echoed, hg', hread⟩ := consume_legal hlegal hg t.echoed
    rw [poll, hw]
    dsimp only
    rw [feed, hbytes, hread]
    rcases consume_of_ends hends hg' echoed with hended | ⟨_, rfl, s, hwaits⟩
    · rw [hended]
      rfl
    · rw [hwaits]
      rfl

end Meets

end Session

end WebSocketEcho
