import WebSocketEcho.Proofs.Http.HeadReading
import WebSocketEcho.Service

/-!
# Openings

An `Opening` is the head of a request that the echo endpoint accepts.  As long as it has not come
whole the connection waits (`poll_of_front`).  Then it is answered with `switchHead`, and what was
sent behind it is left, some of it read and the rest on the wire (`poll_of_opening`).
-/

namespace WebSocketEcho.Http

variable {head key : Bytes} {p : Head.Parsed}

/-- The head of a request without a body that the echo endpoint accepts; `key` is the key of its
handshake.  It is no longer than a connection waits for. -/
structure Opening (head : Bytes) (p : Head.Parsed) (key : Bytes) : Prop where
  spelled : Head.Spells head p
  size : head.length ≤ Pace.most
  version : p.request.version = .http11
  bodiless : p.body = .sized 0
  route : p.request.target.effectivePath = Route.echoPath
  accepted : Handshake.key p.request = .ok key

/-- There is something to read. -/
theorem Opening.ne_nil (h : Opening head p key) : head ≠ [] := by
  rintro rfl
  obtain ⟨raw, hraw, _⟩ := h.spelled
  cases hraw

/-! ## The answer -/

/-- The answer to an accepted handshake.  A client that does not want to keep the connection is told
that it will be closed, although it is not. -/
def switchHead (keepAlive : Bool) (key : Bytes) : Bytes :=
  Bytes.ofText "HTTP/1.1 101 Switching Protocols\r\n" ++
    Bytes.ofText (if keepAlive then "connection: Upgrade\r\n"
      else "connection: Upgrade, close\r\n") ++
    Bytes.ofText "upgrade: websocket\r\nsec-websocket-accept: " ++ Handshake.acceptValue key ++
    Bytes.ofText "\r\n\r\n"

theorem connectionFields_switching (keepAlive : Bool) (key : Bytes) :
    connectionFields .http11 keepAlive (Handshake.switching .http11 key).headers =
      [Header.ofText "connection" (if keepAlive then "Upgrade" else "Upgrade, close"),
        Header.ofText "upgrade" "websocket",
        ⟨Bytes.ofText "sec-websocket-accept", Handshake.acceptValue key⟩] := by
  cases keepAlive with
  | true => rfl
  | false => rfl

theorem bytes_frame_switching {r : Request} (hversion : r.version = .http11) (keepAlive : Bool)
    (key : Bytes) :
    (frame r keepAlive
        ⟨.switchingProtocols, (Handshake.switching r.version key).headers, []⟩).bytes =
      switchHead keepAlive key := by
  have hstatus : Bytes.ofText "HTTP/1.1" ++ [0x20] ++ Decimal.bytes 101 ++ [0x20] ++
      Bytes.ofText "Switching Protocols" ++ lineEnd =
      Bytes.ofText "HTTP/1.1 101 Switching Protocols\r\n" := by decide +kernel
  have hconnection : (Header.ofText "connection"
      (if keepAlive then "Upgrade" else "Upgrade, close")).line =
      Bytes.ofText (if keepAlive then "connection: Upgrade\r\n"
        else "connection: Upgrade, close\r\n") := by
    cases keepAlive <;> decide
  have hupgrade : (Header.ofText "upgrade" "websocket").line ++
      (Bytes.ofText "sec-websocket-accept" ++ Bytes.ofText ": ") =
      Bytes.ofText "upgrade: websocket\r\nsec-websocket-accept: " := by decide
  have hend : lineEnd ++ lineEnd = Bytes.ofText "\r\n\r\n" := by decide
  have hframe : (frame r keepAlive
      ⟨.switchingProtocols, (Handshake.switching r.version key).headers, []⟩).bytes =
      (Bytes.ofText "HTTP/1.1" ++ [0x20] ++ Decimal.bytes 101 ++ [0x20] ++
        Bytes.ofText "Switching Protocols" ++ lineEnd ++
        (connectionFields .http11 keepAlive (Handshake.switching .http11 key).headers).flatMap
          Header.line ++ lineEnd) ++ [] := by
    rw [frame, hversion]
    rfl
  rw [hframe, hstatus, connectionFields_switching, switchHead, ← hconnection, ← hupgrade, ← hend]
  simp [Header.line]

/-- The echo endpoint grants an opening its switch. -/
theorem answer_of_opening (h : Opening head p key) (k : Counters) :
    Service.answer k p.request =
      ⟨.switchingProtocols, (Handshake.switching p.request.version key).headers, []⟩ := by
  rw [Service.answer, h.route, Route.ofPath, if_pos rfl]
  dsimp only
  rw [Handshake.answer, h.accepted]
  rfl

theorem refusal?_of_opening (h : Opening head p key) : Service.refusal? p.request = none := by
  rw [Service.refusal?, h.route, Route.ofPath, if_pos rfl, Handshake.answer, h.accepted]
  rfl

/-! ## What the connection does -/

/-- What a head that is accepted says. -/
theorem Head.Raw.judge_eq_ok {raw : Head.Raw} (h : raw.judge = .ok p) :
    ∃ target f, Target.read? raw.target = some target ∧ framing raw.version raw.headers = .ok f ∧
      p.request = ⟨raw.method, target, raw.version, raw.headers⟩ ∧
      p.keepAlive = f.keepAlive raw.version ∧
      p.body = (if f.chunked = some true then .chunked else .sized (f.length.getD 0)) ∧
      p.bodyWaits = (f.expectsContinue && raw.version.atLeast11 && decide (p.body ≠ .sized 0)) := by
  rw [Head.Raw.judge] at h
  simp only [bind, Except.bind, pure, Except.pure, throw, throwThe, MonadExceptOf.throw] at h
  split at h
  · cases h
  split at h
  · cases h
  split at h
  · cases h
  rename_i target htarget
  split at h
  · cases h
  rename_i f hframing
  cases h
  exact ⟨target, f, htarget, hframing, rfl, rfl, rfl, rfl⟩

/-- Nobody waits for leave to send an empty body. -/
theorem bodyWaits_of_bodiless (h : Head.Spells head p) (hbody : p.body = .sized 0) :
    p.bodyWaits = false := by
  obtain ⟨raw, _, hjudge⟩ := h
  obtain ⟨_, _, _, _, _, _, _, hwaits⟩ := Head.Raw.judge_eq_ok hjudge
  rw [hwaits, hbody]
  simp

/-- While the client is there, asking for bytes leaves what there is to read. -/
theorem Inlet.fill_of_present {i : Inlet} (h : i.wire.state = .present) :
    ∃ j, (i.fill = .filled j ∨ i.fill = .blocked j) ∧ j.wire.state = .present ∧
      j.buffer ++ j.wire.unread = i.buffer ++ i.wire.unread := by
  rw [Inlet.fill]
  split
  · rcases Inlet.read_of_present h with ⟨_, hblocked⟩ | ⟨j, hfilled, hpresent, hsame⟩
    · exact ⟨i.prepared, Or.inr hblocked, h, rfl⟩
    · exact ⟨j, Or.inl hfilled, hpresent, hsame⟩
  · exact ⟨i, Or.inl rfl, h, rfl⟩

variable {handler : Request → Answer}

theorem respond_of_switch (onTheWay : Bool) {i : Inlet} (hpresent : i.wire.state = .present)
    (hswitch : (handler p.request).status = .switchingProtocols) :
    respond handler onTheWay p .finished i =
      .stop [.handle p.request, .write (frame p.request p.keepAlive (handler p.request)).bytes]
        (.switched i.buffer) i.wire := by
  have hwritable : i.wire.isWritable = true := by rw [Wire.isWritable, hpresent]
  have hnext : sequel p (handler p.request) = .switch := by
    rw [sequel, hswitch]
    rfl
  rw [respond, hwritable, hnext]
  rfl

/-- A request without a body is answered while the client is there, and what was sent behind its
head is left. -/
theorem serve_of_bodiless (handler : Request → Answer) (onTheWay : Bool) {i : Inlet}
    (hpresent : i.wire.state = .present) (hbody : p.body = .sized 0) (hwaits : p.bodyWaits = false) :
    ∃ j, serve handler onTheWay p i = respond handler onTheWay p .finished j ∧
      j.wire.state = .present ∧ j.buffer ++ j.wire.unread = i.buffer ++ i.wire.unread := by
  have hfirst : ∀ j : Inlet, firstAttempt p j = (.finished, j) := by
    intro j
    rw [firstAttempt, hwaits, hbody, if_neg Bool.false_ne_true]
    rfl
  have hheld : ∃ k : Inlet, (if p.retains then i.hold else i) = k ∧ k.wire = i.wire ∧
      k.buffer = i.buffer := by
    refine ⟨_, rfl, ?_, ?_⟩ <;> split <;> rfl
  obtain ⟨k, hk, hwire, hbuffer⟩ := hheld
  obtain ⟨j, hfill, hpresent', hsame⟩ := Inlet.fill_of_present (i := k) (by rw [hwire, hpresent])
  rw [hwire, hbuffer] at hsame
  refine ⟨j, ?_, hpresent', hsame⟩
  rw [serve, hk, hfirst]
  dsimp only
  rcases hfill with hfill | hfill <;> rw [hfill]

/-- A request without a body that is granted a switch is answered, and the connection is handed over
with what was sent behind the head. -/
theorem serve_of_switch (onTheWay : Bool) {i : Inlet} (hpresent : i.wire.state = .present)
    (hswitch : (handler p.request).status = .switchingProtocols) (hbody : p.body = .sized 0)
    (hwaits : p.bodyWaits = false) :
    ∃ leftover unread, leftover ++ unread = i.buffer ++ i.wire.unread ∧
      serve handler onTheWay p i =
        .stop [.handle p.request, .write (frame p.request p.keepAlive (handler p.request)).bytes]
          (.switched leftover) ⟨unread, .present⟩ := by
  obtain ⟨j, hserve, hpresent', hsame⟩ := serve_of_bodiless handler onTheWay hpresent hbody hwaits
  refine ⟨j.buffer, j.wire.unread, hsame, ?_⟩
  rw [hserve, ← hpresent']
  exact respond_of_switch onTheWay hpresent' hswitch

/-! ## What a poll does -/

variable {c : Connection} {w : Wire} {seen : Nat} {more : Bytes}

/-- A turn that stops is all that a poll does. -/
theorem poll_of_stop {deeds : List Deed} {standing : Standing} {v : Wire}
    (h : turn handler c.phase c.version (c.inlet w) = .stop deeds standing v) :
    c.poll handler w = (deeds, standing, v) := by
  rw [Connection.poll, maxTurns, takeTurns, h]
  simp

/-- A connection waits as long as the opening is not complete, and keeps what has come. -/
theorem poll_of_front (handler : Request → Answer) (hphase : c.phase = .head seen)
    (hopening : Opening (c.buffer ++ w.unread ++ more) p key) (hmore : more ≠ [])
    (hpresent : w.state = .present) :
    ∃ d, c.poll handler w = ([], .waiting d, ⟨[], .present⟩) ∧ d.buffer = c.buffer ++ w.unread ∧
      d.phase = .head d.buffer.length := by
  obtain ⟨j, hblocked, hbuffer, hwire⟩ := awaitHead_of_front seen (i := c.inlet w)
    hopening.spelled hmore hopening.size hpresent
  refine ⟨.ofInlet j (.head j.buffer.length) c.version, poll_of_stop ?_, hbuffer, rfl⟩
  rw [hphase, turn, headTurn, hblocked, ← hwire]

/-- A complete opening is answered, and what was sent behind it is left. -/
theorem poll_of_opening (hphase : c.phase = .head seen) (hopening : Opening head p key)
    (hseen : seen < head.length) (hcome : c.buffer ++ w.unread = head ++ more)
    (hpresent : w.state = .present) (k : Counters) :
    ∃ leftover unread, leftover ++ unread = more ∧
      c.poll (Service.answer k) w =
        ([.handle p.request, .write (switchHead p.keepAlive key)], .switched leftover,
          ⟨unread, .present⟩) := by
  obtain ⟨j, hparsed, hleft, hpresent'⟩ := awaitHead_of_head (i := c.inlet w)
    hopening.spelled hopening.size hseen hcome hpresent
  have hanswer := answer_of_opening hopening k
  have hswitch : (Service.answer k p.request).status = .switchingProtocols := by rw [hanswer]
  obtain ⟨leftover, unread, hsame, hserve⟩ := serve_of_switch false hpresent' hswitch
    hopening.bodiless (bodyWaits_of_bodiless hopening.spelled hopening.bodiless)
  rw [hanswer, bytes_frame_switching hopening.version] at hserve
  refine ⟨leftover, unread, hsame.trans hleft, poll_of_stop ?_⟩
  rw [hphase, turn, headTurn, hparsed]
  exact hserve

end WebSocketEcho.Http
