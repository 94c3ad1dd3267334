import WebSocketEcho.Proofs.Handshake
import WebSocketEcho.Proofs.Http.Opening
import WebSocketEcho.Proofs.Http.Received

/-!
# Requests in a row

An `Inquiry` is a request that is answered and leaves its connection open for the next.  Inquiries
may be sent one behind the other without waiting for the answers, and a connection reads them in
whatever pieces they come: `Expects` says how it stands when some are still to be answered, and
`poll_of_expects` that a poll answers the next ones in order and stands so again.  When it then
waits it has read everything, and no further request is complete (`Rests`).
-/

namespace WebSocketEcho.Http

/-- A GET of HTTP/1.1 without a body that does not ask to close the connection, and that the echo
endpoint refuses if it is for it.  Its head is no longer than a connection waits for. -/
structure Inquiry where
  head : Bytes
  parsed : Head.Parsed
  spelled : Head.Spells head parsed
  size : head.length ≤ Pace.most
  method : parsed.request.method = Bytes.ofText "GET"
  version : parsed.request.version = .http11
  bodiless : parsed.body = .sized 0
  stays : ∀ h ∈ parsed.request.headers, h.isNamed "connection" = true →
    Head.lists "close" h.value = false
  refused : parsed.request.target.effectivePath = Route.echoPath →
    ∃ why, Handshake.answer parsed.request = .error why

namespace Inquiry

/-- How the request is answered when the counters stand as given. -/
def response (q : Inquiry) (k : Counters) : Response :=
  frame q.parsed.request q.parsed.keepAlive (Service.answer k q.parsed.request)

/-- What happens on a connection that answers the request. -/
def deeds (q : Inquiry) (k : Counters) : List Deed :=
  [.handle q.parsed.request, .write (q.response k).bytes]

theorem head_ne_nil (q : Inquiry) : q.head ≠ [] := by
  intro hnil
  obtain ⟨raw, hraw, _⟩ := q.spelled
  rw [hnil] at hraw
  cases hraw

end Inquiry

/-! ## The connection stays open -/

/-- A field that does not ask to close the connection leaves it open. -/
theorem closes_of_note {version : Version} {f g : Head.Framing} {h : Header}
    (hstays : h.isNamed "connection" = true → Head.lists "close" h.value = false)
    (hnote : f.note version h = .ok g) : g.closes = f.closes := by
  rw [Head.Framing.note] at hnote
  split at hnote
  · split at hnote <;> cases hnote
    rfl
  · split at hnote
    · dsimp only at hnote
      split at hnote
      · cases hnote
        rfl
      · -- Of the ways to read a length one goes on, and it only keeps the length.
        split at hnote
        · cases hnote
        · split at hnote
          · cases hnote
          · split at hnote
            · cases hnote
            · split at hnote <;> cases hnote
              rfl
    · split at hnote
      · rename_i hnamed
        cases hnote
        simp [hstays hnamed]
      · split at hnote <;> cases hnote <;> rfl

theorem closes_of_notes {version : Version} {headers : List Header} {f g : Head.Framing}
    (hstays : ∀ h ∈ headers, h.isNamed "connection" = true → Head.lists "close" h.value = false)
    (hnotes : headers.foldlM (Head.Framing.note version) f = .ok g) : g.closes = f.closes := by
  induction headers generalizing f with
  | nil =>
    cases hnotes
    rfl
  | cons header rest ih =>
    obtain ⟨hheader, hrest⟩ := List.forall_mem_cons.1 hstays
    rw [List.foldlM_cons] at hnotes
    cases hnote : f.note version header with
    | error fault =>
      rw [hnote] at hnotes
      cases hnotes
    | ok next =>
      rw [hnote] at hnotes
      exact (ih hrest hnotes).trans (closes_of_note hheader hnote)

theorem closes_of_framing {version : Version} {headers : List Header} {f : Head.Framing}
    (hstays : ∀ h ∈ headers, h.isNamed "connection" = true → Head.lists "close" h.value = false)
    (h : Head.framing version headers = .ok f) : f.closes = false ∧ f.chunked ≠ some false := by
  rw [Head.framing] at h
  cases hnotes : headers.foldlM (Head.Framing.note version) .unstated with
  | error fault =>
    rw [hnotes] at h
    cases h
  | ok g =>
    rw [hnotes] at h
    simp only [bind, Except.bind, pure, Except.pure, throw, throwThe, MonadExceptOf.throw] at h
    split at h
    · cases h
    · rename_i hchunked
      cases h
      exact ⟨closes_of_notes hstays hnotes, hchunked⟩

theorem Inquiry.keepAlive (q : Inquiry) : q.parsed.keepAlive = true := by
  obtain ⟨raw, _, hjudge⟩ := q.spelled
  obtain ⟨target, f, _, hframing, hrequest, hkeep, hbody, _⟩ := Head.Raw.judge_eq_ok hjudge
  have hheaders : q.parsed.request.headers = raw.headers := by rw [hrequest]
  have hversion : raw.version = .http11 := by
    rw [← q.version, hrequest]
  obtain ⟨hcloses, hchunked⟩ := closes_of_framing (hheaders ▸ q.stays) hframing
  have hplain : f.chunked = none := by
    rw [q.bodiless] at hbody
    cases hf : f.chunked with
    | none => rfl
    | some chunked =>
      cases chunked with
      | true =>
        rw [hf, if_pos rfl] at hbody
        cases hbody
      | false => exact absurd hf hchunked
  rw [hkeep, Head.Framing.keepAlive, hcloses, hplain, hversion]
  rfl

/-- No inquiry is granted a switch. -/
theorem Inquiry.status_ne (q : Inquiry) (k : Counters) :
    (Service.answer k q.parsed.request).status ≠ .switchingProtocols := by
  rw [Service.answer, Route.ofPath]
  by_cases hpath : q.parsed.request.target.effectivePath = Route.echoPath
  · obtain ⟨why, hwhy⟩ := q.refused hpath
    rw [if_pos hpath]
    dsimp only
    rw [hwhy]
    cases why <;> exact Status.noConfusion
  · rw [if_neg hpath]
    exact Status.noConfusion

theorem Inquiry.sequel (q : Inquiry) (k : Counters) :
    sequel q.parsed (Service.answer k q.parsed.request) = .nextRequest := by
  have hswitch := q.status_ne k
  have htunnel : opensTunnel q.parsed.request (Service.answer k q.parsed.request) = false := by
    rw [opensTunnel, q.method]
    rfl
  rw [Http.sequel, if_neg (by simpa using hswitch), q.keepAlive, htunnel]
  rfl

/-! ## The answer -/

/-- What a client must read as the answer to an inquiry when the counters stand as given. -/
structure Inquiry.Answered (q : Inquiry) (k : Counters) (r : Received) : Prop where
  /-- Everything but the echo endpoint shows the status page. -/
  page : q.parsed.request.target.effectivePath ≠ Route.echoPath →
    r.code = 200 ∧ r.reason = Bytes.ofText "OK" ∧ r.body = (Report.ofCounters k).render
  /-- The echo endpoint tells by its status what is wrong with the handshake. -/
  refusal : q.parsed.request.target.effectivePath = Route.echoPath →
    ∃ why, Handshake.FirstUnmet (Handshake.demands q.parsed.request) why ∧
      (why.status.code = 400 ∨ why.status.code = 426) ∧ r.code = why.status.code ∧
      r.reason = Bytes.ofText why.status.reason ∧ r.body = Bytes.ofText why.status.reason
  version : firstValue? r.headers "sec-websocket-version" =
    if r.code = 426 then some (Bytes.ofText "13") else none
  length : firstValue? r.headers "content-length" = some (Decimal.bytes r.body.length)

/-- The answer has its own fields, and the length behind them. -/
theorem Inquiry.response_eq (q : Inquiry) (k : Counters) :
    q.response k =
      { version := .http11
        status := (Service.answer k q.parsed.request).status
        headers := (Service.answer k q.parsed.request).headers ++
          [lengthField (Service.answer k q.parsed.request).body]
        body := (Service.answer k q.parsed.request).body } := by
  have hstatus : ((Service.answer k q.parsed.request).status == .switchingProtocols) = false := by
    simpa using q.status_ne k
  rw [Inquiry.response, frame, opensTunnel, q.method, q.version, q.keepAlive, hstatus]
  rfl

/-- An inquiry is shown the status page, or refused. -/
theorem Inquiry.answer_cases (q : Inquiry) (k : Counters) :
    q.parsed.request.target.effectivePath ≠ Route.echoPath ∧
        Service.answer k q.parsed.request = ⟨.ok, [], (Report.ofCounters k).render⟩ ∨
      q.parsed.request.target.effectivePath = Route.echoPath ∧
        ∃ why, Handshake.FirstUnmet (Handshake.demands q.parsed.request) why ∧
          (why.status = .badRequest ∨ why.status = .upgradeRequired) ∧
          Service.answer k q.parsed.request = ⟨why.status, why.fields, why.body⟩ := by
  by_cases hpath : q.parsed.request.target.effectivePath = Route.echoPath
  · obtain ⟨why, hwhy⟩ := q.refused hpath
    have hunmet := Handshake.answer_eq_error_iff_firstUnmet.1 hwhy
    refine Or.inr ⟨hpath, why, hunmet, ?_, ?_⟩
    · cases hunmet with
      | here h => exact absurd q.method h
      | later _ hrest =>
        have hmem := hrest.mem
        simp only [List.map_cons, List.map_nil, List.mem_cons, List.not_mem_nil, or_false] at hmem
        rcases hmem with rfl | rfl | rfl | rfl | rfl <;> simp [Handshake.Refusal.status]
    · rw [Service.answer, Route.ofPath, if_pos hpath]
      dsimp only
      rw [hwhy]
  · refine Or.inl ⟨hpath, ?_⟩
    rw [Service.answer, Route.ofPath, if_neg hpath]

/-- The answer names the spoken version where another one was asked for, and has no other field. -/
theorem Inquiry.answer_headers (q : Inquiry) (k : Counters) :
    (Service.answer k q.parsed.request).headers =
      if (Service.answer k q.parsed.request).status = .upgradeRequired then
        [Header.ofText "sec-websocket-version" Handshake.spokenVersion]
      else [] := by
  rcases q.answer_cases k with ⟨_, heq⟩ | ⟨_, why, _, _, heq⟩
  · rw [heq, if_neg Status.noConfusion]
  · rw [heq]
    rfl

theorem isNamed_lengthField (body : Bytes) (name : String) : (lengthField body).isNamed name =
    ((Bytes.ofText "content-length").map Ascii.lower == Bytes.ofText name) := rfl

/-- The answer states the length of its body. -/
theorem Inquiry.firstValue?_length (q : Inquiry) (k : Counters) :
    firstValue? (q.response k).headers "content-length" =
      some (Decimal.bytes (q.response k).body.length) := by
  have hlength : ∀ body, (lengthField body).isNamed "content-length" = true :=
    fun body => (isNamed_lengthField body _).trans (by decide)
  have hversion : (Header.ofText "sec-websocket-version" Handshake.spokenVersion).isNamed
      "content-length" = false := by decide
  rw [q.response_eq, q.answer_headers]
  dsimp only
  split
  · rw [List.singleton_append, firstValue?_cons_of_not_isNamed hversion,
      firstValue?_cons_of_isNamed (hlength _)]
    rfl
  · rw [List.nil_append, firstValue?_cons_of_isNamed (hlength _)]
    rfl

/-- The answer names the version that is spoken only where another one was asked for. -/
theorem Inquiry.firstValue?_version (q : Inquiry) (k : Counters) :
    firstValue? (q.response k).headers "sec-websocket-version" =
      if (q.response k).status = .upgradeRequired then some (Bytes.ofText "13") else none := by
  have hversion : (Header.ofText "sec-websocket-version" Handshake.spokenVersion).isNamed
      "sec-websocket-version" = true := by decide
  have hlength : ∀ body, (lengthField body).isNamed "sec-websocket-version" = false :=
    fun body => (isNamed_lengthField body _).trans (by decide)
  rw [q.response_eq, q.answer_headers]
  dsimp only
  split
  · rw [List.singleton_append, firstValue?_cons_of_isNamed hversion]
    rfl
  · rw [List.nil_append, firstValue?_cons_of_not_isNamed (hlength _)]
    rfl

/-- The answer to an inquiry is read back, whatever follows it. -/
theorem Inquiry.readResponse_bytes (q : Inquiry) (k : Counters) (rest : Bytes) :
    readResponse ((q.response k).bytes ++ rest) = .done (q.response k).received rest := by
  have hspoken : (Header.ofText "sec-websocket-version" Handshake.spokenVersion).IsPlain :=
    Header.isPlain_of_solid ⟨by decide, List.all_eq_true.1 (by decide)⟩
      (List.all_eq_true.1 (by decide))
  have hfields : ∀ h ∈ (Service.answer k q.parsed.request).headers, h.IsPlain := by
    rw [q.answer_headers]
    split
    · exact fun h hmem => List.mem_singleton.1 hmem ▸ hspoken
    · exact fun h hmem => nomatch hmem
  refine Http.readResponse_bytes ?_ ?_ ?_ (q.firstValue?_length k) rest
  · rw [q.response_eq]
  · rw [q.response_eq]
    exact List.forall_mem_append.2 ⟨hfields, List.forall_mem_singleton.2 (isPlain_lengthField _)⟩
  · rw [q.response_eq, q.answer_headers]
    dsimp only
    split <;> simp [Head.maxHeaders]

theorem Inquiry.answered (q : Inquiry) (k : Counters) :
    q.Answered k (q.response k).received := by
  have hcode : ∀ status : Status, status = .upgradeRequired ↔ status.code = 426 := by
    intro status
    cases status <;> decide
  refine ⟨?_, ?_, ?_, q.firstValue?_length k⟩
  · intro hpath
    rcases q.answer_cases k with ⟨_, heq⟩ | ⟨hecho, _⟩
    · rw [q.response_eq, heq]
      simp [Response.received, Status.code, Status.reason]
    · exact absurd hecho hpath
  · intro hpath
    rcases q.answer_cases k with ⟨hother, _⟩ | ⟨_, why, hunmet, hstatus, heq⟩
    · exact absurd hpath hother
    · refine ⟨why, hunmet, ?_, ?_⟩
      · rcases hstatus with hstatus | hstatus <;> simp [hstatus, Status.code]
      · rw [q.response_eq, heq]
        exact ⟨rfl, rfl, rfl⟩
  · show firstValue? (q.response k).headers _ = if (q.response k).status.code = 426 then _ else _
    rw [q.firstValue?_version]
    simp only [hcode]

/-- Answers in a row are read as many, in their order. -/
theorem readResponses_answers (answered : List (Inquiry × Counters)) :
    readResponses (answered.flatMap fun a => (a.1.response a.2).bytes) =
      some (answered.map fun a => (a.1.response a.2).received) := by
  induction answered with
  | nil => exact readResponses_nil
  | cons a rest ih =>
    rw [List.flatMap_cons, readResponses_cons (a.1.readResponse_bytes a.2 _), ih]
    · rfl
    · rw [Response.bytes, Response.head]
      simp [lineEnd]

/-! ## Standing between two requests -/

section Expects

variable {rest rest' : List Inquiry} {phase : Phase} {i j : Inlet} {more : Bytes} {k : Counters}

/-- A connection on which these requests are still to be answered; `more` has not been sent yet. -/
structure Expects (rest : List Inquiry) (phase : Phase) (i : Inlet) (more : Bytes) : Prop where
  present : i.wire.state = .present
  stream : i.buffer ++ i.wire.unread ++ more = rest.flatMap (·.head)
  /-- The next request was not complete at the last attempt on it. -/
  phase : ∃ seen, phase = .head seen ∧ ∀ q ∈ rest.head?, seen < q.head.length

/-- Everything was read, and the next request is not complete. -/
structure Rests (rest : List Inquiry) (i : Inlet) : Prop where
  unread : i.wire.unread = []
  short : ∀ q ∈ rest.head?, i.buffer.length < q.head.length

theorem Expects.congr (h : Expects rest phase i more) {d : Connection} {w : Wire}
    (hphase : d.phase = phase) (hbuffer : d.buffer = i.buffer) (hwire : w = i.wire) :
    Expects rest d.phase (d.inlet w) more := by
  refine ⟨?_, ?_, ?_⟩
  · rw [← h.present, ← hwire]
    rfl
  · rw [← h.stream, ← hwire, ← hbuffer]
    rfl
  · rw [hphase]
    exact h.phase

/-- When everything has been sent, a connection rests only when everything has been answered. -/
theorem Expects.eq_nil (h : Expects rest phase i []) (hrests : Rests rest i) : rest = [] := by
  cases rest with
  | nil => rfl
  | cons q rest' =>
    have hstream := congrArg List.length h.stream
    have hshort := hrests.short q rfl
    rw [hrests.unread, List.append_nil, List.append_nil, List.flatMap_cons,
      List.length_append] at hstream
    omega

/-! ## One turn -/

/-- What a turn does on a connection on which these requests are still to be answered. -/
inductive Turn.Serves (k : Counters) (rest : List Inquiry) (more : Bytes) : Turn → Prop where
  | rests {d : Connection} {w : Wire} (h : Expects rest d.phase (d.inlet w) more)
      (hrests : Rests rest (d.inlet w)) : Serves k rest more (.stop [] (.waiting d) w)
  | answers {q : Inquiry} {rest' : List Inquiry} {phase : Phase} {version : Version} {j : Inlet}
      (hrest : rest = q :: rest') (h : Expects rest' phase j more) :
      Serves k rest more (.again (q.deeds k) phase version j)
  | answersAndRests {q : Inquiry} {rest' : List Inquiry} {d : Connection} {w : Wire}
      (hrest : rest = q :: rest') (h : Expects rest' d.phase (d.inlet w) more)
      (hrests : Rests rest' (d.inlet w)) :
      Serves k rest more (.stop (q.deeds k) (.waiting d) w)

/-- A connection without bytes blocks. -/
theorem awaitHead_of_empty (seen : Nat) (hbuffer : i.buffer = []) (hunread : i.wire.unread = [])
    (hpresent : i.wire.state = .present) : awaitHead seen i = .blocked i.prepared := by
  have hattempt : Head.attempt seen i.buffer = .incomplete := by
    rw [hbuffer]
    rfl
  have hread : i.read = .blocked i.prepared := by
    rw [Inlet.read, if_neg (by rw [hpresent]; exact Presence.noConfusion),
      if_pos (by rw [hunread]; rfl), if_pos hpresent]
  rw [awaitHead, hattempt]
  dsimp only
  rw [if_neg (by rw [hbuffer]; decide)]
  split
  · rename_i hfilled
    rw [hread] at hfilled
    cases hfilled
  · rename_i hblocked
    rw [hread] at hblocked
    cases hblocked
    rfl
  · rename_i hended
    rw [hread] at hended
    cases hended
  · rename_i hfailed
    rw [hread] at hfailed
    cases hfailed

/-- Where nothing is to be read, nothing is in the buffer or on the wire. -/
theorem Inlet.fill_blocked_of_present (hpresent : i.wire.state = .present)
    (h : i.fill = .blocked j) :
    i.buffer = [] ∧ i.wire.unread = [] ∧ j.buffer = [] ∧ j.wire = i.wire := by
  rw [Inlet.fill] at h
  split at h
  · rename_i hempty
    have hbuffer : i.buffer = [] := List.isEmpty_iff.1 hempty
    rcases Inlet.read_of_present hpresent with ⟨hunread, hblocked⟩ | ⟨_, hfilled, _⟩
    · rw [hblocked] at h
      cases h
      exact ⟨hbuffer, hunread, hbuffer, rfl⟩
    · rw [hfilled] at h
      cases h
  · cases h

/-- After its answer the connection goes on with what has come, or waits if that is nothing. -/
theorem serves_reuse {q : Inquiry} (hrest : rest = q :: rest') (version : Version)
    (h : Expects rest' (.head 0) i more) :
    (reuse (q.deeds k) version i (.again (q.deeds k) (.head 0) version)).Serves k rest more := by
  obtain ⟨j, hfill, hpresent, hsame⟩ := Inlet.fill_of_present h.present
  have hexpects : Expects rest' (.head 0) j more := ⟨hpresent, hsame ▸ h.stream, h.phase⟩
  rw [reuse]
  rcases hfill with hfill | hfill
  · rw [hfill]
    exact .answers hrest hexpects
  · obtain ⟨_, hunread, hbuffer, hwire⟩ := Inlet.fill_blocked_of_present h.present hfill
    rw [hfill]
    refine .answersAndRests hrest (hexpects.congr rfl rfl rfl) ⟨?_, fun q' _ => ?_⟩
    · show j.wire.unread = []
      rw [hwire, hunread]
    · show j.buffer.length < q'.head.length
      rw [hbuffer]
      exact List.length_pos_iff.2 q'.head_ne_nil

/-- The next request is answered as soon as its head is complete. -/
theorem serves_serve {q : Inquiry} (hrest : rest = q :: rest') (onTheWay : Bool)
    (hpresent : i.wire.state = .present)
    (hstream : i.buffer ++ i.wire.unread ++ more = rest'.flatMap (·.head)) :
    (serve (Service.answer k) onTheWay q.parsed i).Serves k rest more := by
  obtain ⟨j, hserve, hpresent', hsame⟩ := serve_of_bodiless (Service.answer k) onTheWay hpresent
    q.bodiless (bodyWaits_of_bodiless q.spelled q.bodiless)
  have hwritable : j.wire.isWritable = true := by rw [Wire.isWritable, hpresent']
  have hexpects : Expects rest' (.head 0) j.release more := by
    refine ⟨hpresent', ?_, 0, rfl, fun q' _ => List.length_pos_iff.2 q'.head_ne_nil⟩
    rw [← hstream, ← hsame]
    rfl
  have hrespond : respond (Service.answer k) onTheWay q.parsed .finished j =
      reuse (q.deeds k) q.parsed.request.version j.release
        (.again (q.deeds k) (.head 0) q.parsed.request.version) := by
    rw [respond, hwritable, q.sequel]
    rfl
  rw [hserve, hrespond]
  exact serves_reuse hrest _ hexpects

/-- A turn answers the next request if it has come whole, and otherwise the connection waits. -/
theorem serves_turn (h : Expects rest phase i more) (version : Version) :
    (turn (Service.answer k) phase version i).Serves k rest more := by
  obtain ⟨seen, rfl, hseen⟩ := h.phase
  rw [turn, headTurn]
  cases rest with
  | nil =>
    have hnil : i.buffer = [] ∧ i.wire.unread = [] := by
      have hstream := h.stream
      rw [List.flatMap_nil] at hstream
      exact List.append_eq_nil_iff.1 (List.append_eq_nil_iff.1 hstream).1
    rw [awaitHead_of_empty seen hnil.1 hnil.2 h.present]
    have hnone : ∀ q ∈ (none : Option Inquiry), i.buffer.length < q.head.length :=
      fun q hq => absurd hq (Option.not_mem_none q)
    exact .rests ⟨h.present, h.stream, _, rfl, hnone⟩ ⟨hnil.2, hnone⟩
  | cons q rest' =>
    have hprefix : i.buffer ++ i.wire.unread <+: q.head ++ rest'.flatMap (·.head) :=
      ⟨more, h.stream⟩
    rcases front_or_head hprefix with ⟨missing, hmissing, hhead⟩ | ⟨behind, hbehind⟩
    · have hspelled := q.spelled
      have hsize := q.size
      rw [hhead] at hspelled hsize
      obtain ⟨j, hblocked, hbuffer, hwire⟩ :=
        awaitHead_of_front seen hspelled hmissing hsize h.present
      have hshort : j.buffer.length < q.head.length := by
        have hpos := List.length_pos_iff.2 hmissing
        have hlength := congrArg List.length hhead
        rw [List.length_append, ← hbuffer] at hlength
        omega
      have hnext : ∀ q' ∈ (q :: rest').head?, j.buffer.length < q'.head.length := by
        rintro q' ⟨⟩
        exact hshort
      rw [hblocked]
      refine .rests ⟨?_, ?_, _, rfl, hnext⟩ ⟨?_, hnext⟩
      · show j.wire.state = .present
        rw [hwire]
      · show j.buffer ++ j.wire.unread ++ more = _
        rw [hwire, hbuffer, List.append_nil]
        exact h.stream
      · show j.wire.unread = []
        rw [hwire]
    · obtain ⟨j, hparsed, hleft, hpresent⟩ := awaitHead_of_head q.spelled q.size
        (hseen q rfl) hbehind h.present
      rw [hparsed]
      refine serves_serve rfl false hpresent ?_
      have hstream := h.stream
      rw [hbehind, List.flatMap_cons, List.append_assoc] at hstream
      rw [hleft]
      exact List.append_cancel_left hstream

/-! ## A poll -/

theorem takeTurns_of_expects {turns : Nat} {version : Version} {done : List Deed}
    (h : Expects rest phase i more) :
    ∃ answered rest' standing d w, rest = answered ++ rest' ∧
      takeTurns (Service.answer k) turns phase version i done =
        (done.reverse ++ answered.flatMap (·.deeds k), standing, w) ∧
      Expects rest' d.phase (d.inlet w) more ∧
      (standing = .paused d ∨ standing = .waiting d ∧ Rests rest' (d.inlet w)) := by
  induction turns generalizing rest phase version i done with
  | zero =>
    refine ⟨[], rest, _, .ofInlet i phase version, i.wire, rfl, ?_, h.congr rfl rfl rfl, Or.inl rfl⟩
    rw [takeTurns, List.flatMap_nil, List.append_nil]
  | succ turns ih =>
    have hserves := serves_turn (k := k) h version
    rw [takeTurns]
    generalize turn (Service.answer k) phase version i = t at hserves
    cases hserves with
    | rests h hrests =>
      refine ⟨[], rest, _, _, _, rfl, ?_, h, Or.inr ⟨rfl, hrests⟩⟩
      simp
    | @answers q rest' phase version j hrest h =>
      obtain ⟨answered, behind, standing, d, w, rfl, htaken, hexpects, hstanding⟩ :=
        ih h
      refine ⟨q :: answered, behind, standing, d, w, hrest, ?_, hexpects, hstanding⟩
      dsimp only
      rw [htaken]
      simp
    | @answersAndRests q rest' d w hrest h hrests =>
      refine ⟨[q], rest', _, d, w, hrest, ?_, h, Or.inr ⟨rfl, hrests⟩⟩
      simp

/-- A poll answers the next requests that have come whole, in their order, and then the connection
stands as before, with the others still to be answered. -/
theorem poll_of_expects {c : Connection} {w : Wire} (h : Expects rest c.phase (c.inlet w) more)
    (k : Counters) :
    ∃ answered rest' standing d v, rest = answered ++ rest' ∧
      c.poll (Service.answer k) w = (answered.flatMap (·.deeds k), standing, v) ∧
      Expects rest' d.phase (d.inlet v) more ∧
      (standing = .paused d ∨ standing = .waiting d ∧ Rests rest' (d.inlet v)) :=
  takeTurns_of_expects h

end Expects

end WebSocketEcho.Http
