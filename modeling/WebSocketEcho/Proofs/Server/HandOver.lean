import WebSocketEcho.Proofs.Http.Opening
import WebSocketEcho.Proofs.Server.Draining
import WebSocketEcho.Proofs.Server.Echo

/-!
# Handing a connection over

A client that opens with the head of an accepted handshake and sends bytes behind it sees the answer
to the handshake and then the session that a client sees who sends only those bytes to a server of
sessions.  The stream may be cut anywhere, also between head and bytes, or not at all
(`handed_over_to_session`).

Two readers share the stream: the connection waits for the head in a buffer of its own, and what it
has read too much is where the session begins.  `Hears` says how the server stands to the client on
the way; once the head is complete it is `Stands`, which is how a server of sessions stands to it.
-/

namespace WebSocketEcho.Server

open Session (presence)

variable {s₀ s : Server} {id : String} {peer : SocketAddress} {head key b : Bytes}
  {p : Http.Head.Parsed} {x y : Sending} {out : List Effect}

/-- What is seen of a client when it is handed over. -/
def handedOver (id : String) (peer : SocketAddress) (p : Http.Head.Parsed) (key : Bytes) :
    List Effect :=
  [.logged (.connected peer), .logged (.requested peer p.request.method p.request.target),
    .wrote id (Http.switchHead p.keepAlive key)]

/-- How a server that listens stands to a client that sends an opening and more, with the effects so
far.  The server was `s₀` before the client came. -/
inductive Hears (s₀ : Server) (id : String) (peer : SocketAddress) (head : Bytes)
    (p : Http.Head.Parsed) (key : Bytes) : Sending → Server → List Effect → Prop where
  | absent : Hears s₀ id peer head p key .absent s₀ []
  | arriving {s : Server} {sent : Bytes}
      (hc : s.find? id = some ⟨id, peer, ⟨sent, .present⟩, .arriving, false⟩)
      (hready : s.ready = [.accept]) (harrivals : s.arrivals = [.client id])
      (hcounters : s.counters = s₀.counters) :
      Hears s₀ id peer head p key (.sent sent false) s []
  /-- The head is not complete in the buffer; `unread` has come since. -/
  | requesting {s : Server} {connection : Http.Connection} {missing unread : Bytes}
      (hhead : head = connection.buffer ++ missing) (hmissing : missing ≠ [])
      (hphase : connection.phase = .head connection.buffer.length)
      (hc : s.find? id = some ⟨id, peer, ⟨unread, .present⟩, .requesting connection, false⟩)
      (hready : s.ready = [.advance id] ∨ s.ready = [] ∧ unread = [])
      (hcounters : s.counters = s₀.counters) :
      Hears s₀ id peer head p key (.sent (connection.buffer ++ unread) false) s
        [.logged (.connected peer)]
  /-- The session runs; `b` was sent behind the head. -/
  | switched {s : Server} {b : Bytes} {out : List Effect}
      (h : Stands s₀ id peer (.sent b false) s out) :
      Hears s₀ id peer head p key (.sent (head ++ b) false) s (handedOver id peer p key ++ out)

/-! ## Actions -/

/-- What a client who is there sends is put on its wire, and its task is woken. -/
theorem acted_send {c : Client} (hc : s.find? id = some c) (hpresent : c.wire.state = .present)
    (bytes : Bytes) :
    s.acted (.send id bytes) = s.touch { c with wire := ⟨c.wire.unread ++ bytes, .present⟩ } := by
  have hlive : s.live? id = some c := by
    rw [live?, hc]
    simp [hpresent]
  refine acted_of_ok ?_
  rw [act, onLive, hlive, ← hpresent]
  rfl

theorem find?_touch_self {c c' : Client} (hc : s.find? id = some c) (hid : c'.id = id) :
    (s.touch c').find? id = some c' := by
  rw [find?_touch, hc, hid, Option.map_some, if_pos rfl]

theorem Hears.connect (hmode : s₀.mode = .http) (hid : s₀.find? id = none) (hready : s₀.ready = [])
    (harrivals : s₀.arrivals = []) (h : Hears s₀ id peer head p key .absent s out) :
    Hears s₀ id peer head p key (.sent [] false) (s.acted (.connect id peer)) out := by
  cases h
  rw [acted_connect hid]
  refine .arriving ?_ ?_ ?_ ?_
  · rw [find?_connect_of_http hmode hid, if_pos rfl]
    rfl
  · rw [connect_of_http hmode]
    exact ready_wake_of_nil hready
  · rw [connect_of_http hmode, arrivals_wake, harrivals]
    rfl
  · rw [connect_of_http hmode, counters_wake]

theorem Hears.send {sent : Bytes} (h : Hears s₀ id peer head p key (.sent sent false) s out)
    (bytes : Bytes) :
    Hears s₀ id peer head p key (.sent (sent ++ bytes) false) (s.acted (.send id bytes)) out := by
  cases h with
  | arriving hc hready harrivals hcounters =>
    rw [acted_send hc rfl]
    exact .arriving (find?_touch_self hc rfl) hready harrivals
      ((counters_touch _ _).trans hcounters)
  | requesting hhead hmissing hphase hc hready hcounters =>
    rw [acted_send hc rfl, List.append_assoc]
    refine .requesting hhead hmissing hphase (find?_touch_self hc rfl) (Or.inl ?_)
      ((counters_touch _ _).trans hcounters)
    exact ready_touch (by simp) (by simp) (hready.imp_right (·.1))
  | switched h =>
    rw [List.append_assoc]
    exact .switched (h.send bytes)

/-- A client that has closed its side does nothing more. -/
theorem Delivers.eq_of_finished {sent : Bytes} {actions : List Action}
    (h : Delivers id peer (.sent sent true) actions y) : y = .sent sent true := by
  cases h
  rfl

/-- The actions of a client, before the server runs. -/
theorem Hears.foldl_acted (hmode : s₀.mode = .http) (hid : s₀.find? id = none)
    (hready : s₀.ready = []) (harrivals : s₀.arrivals = []) {actions : List Action}
    (hd : Delivers id peer x actions y) (hy : ∀ bytes, y ≠ .sent bytes true)
    (h : Hears s₀ id peer head p key x s out) :
    Hears s₀ id peer head p key y (actions.foldl acted s) out := by
  induction hd generalizing s with
  | done => exact h
  | connect _ ih => exact ih hy (h.connect hmode hid hready harrivals)
  | send _ ih => exact ih hy (h.send _)
  | finish hrest _ => exact absurd hrest.eq_of_finished (hy _)

/-! ## Tasks -/

/-- The task of a connection that is served leaves it where a poll leaves it. -/
theorem run_of_poll {c : Client} {connection : Http.Connection} {deeds : List Http.Deed}
    {standing : Http.Standing} {w : Wire} (hc : s.find? id = some c) (hkept : c.cancelled = false)
    (hstage : c.stage = .requesting connection)
    (hpoll : connection.poll (Service.answer s.counters) c.wire = (deeds, standing, w)) :
    ∃ s', Server.run { s with ready := [] } (.advance id) =
        (s', deeds.flatMap (deedEffects c) ++ standing.effects c) ∧
      s'.find? id = some { c with wire := w, stage := standing.stage } ∧
      s'.ready = (if standing.wakes then [.advance id] else []) ∧ s'.counters = s.counters := by
  obtain rfl : c.id = id := id_of_find? hc
  obtain ⟨_, _, _, f, woken, hf, hmove, hclients, hready⟩ := advanced_run hc hkept []
  obtain ⟨hchange, rfl, hcounters, heffects⟩ := hmove.of_poll hstage hpoll
  refine ⟨(Server.run { s with ready := [] } (.advance c.id)).1, Prod.ext rfl heffects, ?_, ?_,
    hcounters⟩
  · rw [← hchange, find?, hclients]
    exact find?_update_self (fun d hd => ((hf d).1).trans hd) hc
  · rw [hready, wakeIf]
    split
    · exact ready_wake_of_nil rfl
    · rfl

/-- The listener takes the only client that has come in. -/
theorem run_accept {c : Client} (hc : s.find? id = some c) (harrivals : s.arrivals = [.client id]) :
    ∃ s', Server.run { s with ready := [] } .accept = (s', [.logged (.connected c.peer)]) ∧
      s'.find? id = some { c with stage := .requesting .fresh } ∧ s'.ready = [.advance id] ∧
      s'.counters = s.counters := by
  have hc' : ({ s with ready := [], arrivals := [] } : Server).find? id = some c := hc
  obtain rfl : c.id = id := id_of_find? hc
  refine ⟨(({ s with ready := [], arrivals := [] } : Server).update c.id fun d =>
    { d with stage := .requesting .fresh }).wake (.advance c.id), ?_, ?_, ?_, ?_⟩
  · show each take { s with ready := [], arrivals := [] } s.arrivals = _
    rw [harrivals, each_cons, take_client hc']
    rfl
  · rw [find?_wake]
    exact find?_update_self (f := fun d => { d with stage := .requesting .fresh })
      (fun d hd => hd) hc'
  · exact ready_wake_of_nil rfl
  · rw [counters_wake]
    rfl

/-- The connection reads what has come.  When that completes the head, the session begins in the
same step with what was read behind it. -/
theorem hears_settle_of_requesting (hlistening : Listening s) (hopening : Http.Opening head p key)
    {connection : Http.Connection} {missing unread : Bytes}
    (hhead : head = connection.buffer ++ missing) (hmissing : missing ≠ [])
    (hphase : connection.phase = .head connection.buffer.length)
    (hc : s.find? id = some ⟨id, peer, ⟨unread, .present⟩, .requesting connection, false⟩)
    (hready : s.ready = [.advance id]) (hcounters : s.counters = s₀.counters)
    (hfits : connection.buffer ++ unread <+: head ++ b) :
    Hears s₀ id peer head p key (.sent (connection.buffer ++ unread) false) s.settle.1
        (.logged (.connected peer) :: s.settle.2) ∧ s.settle.1.ready = [] := by
  rcases Http.front_or_head hfits with ⟨more, hmore, hfront⟩ | ⟨behind, hbehind⟩
  · rw [hfront] at hopening
    obtain ⟨d, hpoll, hbuffer, hphase'⟩ := Http.poll_of_front (Service.answer s.counters)
      (w := ⟨unread, .present⟩) hphase hopening hmore rfl
    obtain ⟨s', hrun, hc', hready', hcounters'⟩ := run_of_poll hc rfl rfl hpoll
    have hnil : s'.ready = [] := hready'
    rw [hlistening.settle_cons hready, hrun, settle_of_nil hnil]
    rw [← hbuffer] at hfront ⊢
    rw [← List.append_nil d.buffer]
    exact ⟨.requesting hfront hmore hphase' hc' (Or.inr ⟨hnil, rfl⟩) (hcounters'.trans hcounters),
      hnil⟩
  · have hseen : connection.buffer.length < head.length := by
      have hpos := List.length_pos_iff.2 hmissing
      rw [hhead, List.length_append]
      omega
    obtain ⟨leftover, rest, hleft, hpoll⟩ := Http.poll_of_opening
      (w := ⟨unread, .present⟩) hphase hopening hseen hbehind rfl s.counters
    obtain ⟨s', hrun, hc', hready', hcounters'⟩ := run_of_poll hc rfl rfl hpoll
    have hready' : s'.ready = [.advance id] := hready'
    have hstarting : s'.find? id =
        some ⟨id, peer, ⟨rest, presence false⟩, .starting leftover, false⟩ := hc'
    obtain ⟨hstands, hnil⟩ := stands_settle_of_starting hstarting hready'
      (hcounters'.trans hcounters)
    rw [hlistening.settle_cons hready, hrun, hbehind]
    rw [hleft] at hstands
    have hdeeds : [Http.Deed.handle p.request, .write (Http.switchHead p.keepAlive key)].flatMap
        (deedEffects ⟨id, peer, ⟨unread, .present⟩, .requesting connection, false⟩) ++
        (Http.Standing.switched leftover).effects
          ⟨id, peer, ⟨unread, .present⟩, .requesting connection, false⟩ =
        [.logged (.requested peer p.request.method p.request.target),
          .wrote id (Http.switchHead p.keepAlive key)] := by
      simp [deedEffects, Http.refusal?_of_opening hopening, Http.Standing.effects]
    rw [hdeeds]
    exact ⟨.switched hstands, hnil⟩

/-- Whatever has come is read and answered. -/
theorem Hears.settle (hready₀ : s₀.ready = []) (hlistening : Listening s)
    (hopening : Http.Opening head p key) (h : Hears s₀ id peer head p key x s out)
    (hfits : ∀ sent, x = .sent sent false → sent <+: head ++ b) :
    Hears s₀ id peer head p key x s.settle.1 (out ++ s.settle.2) ∧ s.settle.1.ready = [] := by
  cases h with
  | absent =>
    rw [settle_of_nil hready₀]
    exact ⟨.absent, hready₀⟩
  | arriving hc hready harrivals hcounters =>
    obtain ⟨s', hrun, hc', hready', hcounters'⟩ := run_accept hc harrivals
    have hlistening' := hlistening.run hready
    rw [hrun] at hlistening'
    have hsettled := hears_settle_of_requesting hlistening' hopening rfl hopening.ne_nil rfl hc'
      hready' (hcounters'.trans hcounters) (hfits _ rfl)
    rw [hlistening.settle_cons hready, hrun]
    exact hsettled
  | requesting hhead hmissing hphase hc hready hcounters =>
    rcases hready with hready | ⟨hready, hunread⟩
    · exact hears_settle_of_requesting hlistening hopening hhead hmissing hphase hc hready hcounters
        (hfits _ rfl)
    · rw [settle_of_nil hready]
      exact ⟨.requesting hhead hmissing hphase hc (Or.inr ⟨hready, hunread⟩) hcounters, hready⟩
  | switched h =>
    obtain ⟨hstands, hnil⟩ := h.settle hready₀
    rw [List.append_assoc]
    exact ⟨.switched hstands, hnil⟩

/-! ## Runs -/

/-- What has been sent stays sent. -/
theorem Delivers.grows {sent bytes : Bytes} {finished finished' : Bool} {actions : List Action}
    (h : Delivers id peer (.sent sent finished) actions (.sent bytes finished')) :
    sent <+: bytes := by
  generalize hx : Sending.sent sent finished = x at h
  generalize hy : Sending.sent bytes finished' = y at h
  induction h generalizing sent finished with
  | done =>
    cases hx.trans hy.symm
    exact List.prefix_rfl
  | connect _ _ => cases hx
  | send _ ih =>
    cases hx
    exact (List.prefix_append _ _).trans (ih rfl hy)
  | finish _ ih =>
    cases hx
    exact ih rfl hy

/-- The steps of a client that opens, however its actions are spread over them. -/
theorem Hears.steps (hmode : s₀.mode = .http) (hid : s₀.find? id = none) (hready₀ : s₀.ready = [])
    (harrivals₀ : s₀.arrivals = []) (hopening : Http.Opening head p key)
    {steps : List (List Action)}
    (hd : Delivers id peer x steps.flatten (.sent (head ++ b) false)) (hlistening : Listening s)
    (h : Hears s₀ id peer head p key x s out) (hready : s.ready = []) :
    Hears s₀ id peer head p key (.sent (head ++ b) false) (s.steps steps).1
        (out ++ (s.steps steps).2.flatMap (·.effects)) ∧ (s.steps steps).1.ready = [] := by
  induction steps generalizing x s out with
  | nil =>
    cases hd
    rw [Server.steps, List.flatMap_nil, List.append_nil]
    exact ⟨h, hready⟩
  | cons actions rest ih =>
    rw [List.flatten_cons] at hd
    obtain ⟨z, hactions, hrest⟩ := hd.split
    have hopen : ∀ bytes, z ≠ .sent bytes true := by
      rintro bytes rfl
      cases hrest.eq_of_finished
    have hfits : ∀ sent, z = .sent sent false → sent <+: head ++ b := by
      rintro sent rfl
      exact hrest.grows
    have hacted := h.foldl_acted hmode hid hready₀ harrivals₀ hactions hopen
    have hlistening' := hlistening.foldl_acted actions
    obtain ⟨hsettled, hready'⟩ := hacted.settle hready₀ hlistening' hopening hfits
    rw [← step_fst, ← effects_step] at hsettled
    rw [← step_fst] at hready'
    have hlistening'' := hlistening'.settle.1
    rw [← step_fst] at hlistening''
    obtain ⟨hhears, hnil⟩ := ih hrest hlistening'' hsettled hready'
    rw [steps_cons, List.flatMap_cons, ← List.append_assoc]
    exact ⟨hhears, hnil⟩

/-- Once the head has come the session runs. -/
theorem Hears.stands (h : Hears s₀ id peer head p key (.sent (head ++ b) false) s out)
    (hready : s.ready = []) :
    ∃ out', out = handedOver id peer p key ++ out' ∧ Stands s₀ id peer (.sent b false) s out' := by
  generalize hx : Sending.sent (head ++ b) false = x at h
  cases h with
  | absent => cases hx
  | arriving _ hready' _ _ =>
    rw [hready'] at hready
    cases hready
  | requesting hhead hmissing _ _ hready' _ =>
    rename_i connection missing unread
    rcases hready' with hready' | ⟨_, hunread⟩
    · rw [hready'] at hready
      cases hready
    · -- The buffer would be shorter than the head that it holds.
      have hsent := congrArg List.length (Sending.sent.inj hx).1
      have hlength := congrArg List.length hhead
      have hpos := List.length_pos_iff.2 hmissing
      rw [hunread] at hsent
      simp only [List.length_append, List.length_nil] at hsent hlength
      omega
  | switched h =>
    rw [List.append_cancel_left (Sending.sent.inj hx).1]
    exact ⟨_, rfl, h⟩

/-- All effects of a client that opens, and the counters behind it. -/
theorem handedOver_steps (hmode : s₀.mode = .http) (hlistening : Listening s₀)
    (hid : s₀.find? id = none) (hready : s₀.ready = []) (harrivals : s₀.arrivals = [])
    (hopening : Http.Opening head p key) {steps : List (List Action)}
    (hd : Delivers id peer .absent steps.flatten (.sent (head ++ b) false)) :
    (s₀.steps steps).2.flatMap (·.effects) =
        handedOver id peer p key ++ shown s₀.counters id peer (Session.course b false) ∧
      (s₀.steps steps).1.counters = counted s₀.counters.enter (Session.course b false) := by
  obtain ⟨hhears, hnil⟩ := Hears.steps hmode hid hready harrivals hopening hd hlistening .absent
    hready
  obtain ⟨out, hout, hstands⟩ := hhears.stands hnil
  obtain ⟨hshown, hcounters⟩ := hstands.shown_course hnil
  rw [List.nil_append] at hout
  rw [hout, hshown]
  exact ⟨rfl, hcounters⟩

/-- A session shows its client the same, whatever the connection is called. -/
theorem shown_renamed (k : Counters) (id id' : String) (peer : SocketAddress)
    (r : List Reaction × Progress) :
    Entry.output ⟨shown k id peer r, [], .zero⟩ id =
        Entry.output ⟨shown k id' peer r, [], .zero⟩ id' ∧
      Entry.log ⟨shown k id peer r, [], .zero⟩ = Entry.log ⟨shown k id' peer r, [], .zero⟩ ∧
      (.closed id ∈ shown k id peer r ↔ .closed id' ∈ shown k id' peer r) := by
  obtain ⟨reactions, progress⟩ := r
  cases progress with
  | ended o =>
    rw [output_shown, output_shown, log_shown, log_shown]
    exact ⟨rfl, rfl, by simp [shown, told]⟩
  | waiting t =>
    have houtput : ∀ i, Entry.output ⟨shown k i peer (reactions, .waiting t), [], .zero⟩ i =
        reactions.flatMap Reaction.bytes :=
      fun i => (output_reactions i reactions []).trans (List.append_nil _)
    have hlog : ∀ i, Entry.log ⟨shown k i peer (reactions, .waiting t), [], .zero⟩ =
        .sessionOpened peer k.enter.active :: reactions.flatMap Reaction.log :=
      fun i => congrArg (_ :: ·) ((log_reactions i reactions []).trans (List.append_nil _))
    have hclosed : ∀ i, .closed i ∉ shown k i peer (reactions, .waiting t) := by
      intro i hmem
      simp only [shown, told, List.append_nil, List.mem_cons, reduceCtorEq, false_or] at hmem
      obtain ⟨reaction, _, heq⟩ := List.mem_map.1 hmem
      cases reaction <;> cases heq
    rw [houtput, houtput, hlog, hlog]
    exact ⟨rfl, rfl, iff_of_false (hclosed id) (hclosed id')⟩

/-- What a client sees who is handed over, next to what a client `id'` of a session sees: the answer
to the handshake is written first and the request is logged, and all else is the same. -/
structure HandedOver (id id' : String) (peer : SocketAddress) (p : Http.Head.Parsed) (key : Bytes)
    (served session : Server × List Entry) : Prop where
  output : served.2.flatMap (·.output id) =
    Http.switchHead p.keepAlive key ++ session.2.flatMap (·.output id')
  log : served.2.flatMap (·.log) =
    [.connected peer, .requested peer p.request.method p.request.target] ++
      session.2.flatMap (·.log)
  counters : served.1.counters = session.1.counters
  closed : (∃ e ∈ served.2, id ∈ e.closed) ↔ ∃ e ∈ session.2, id' ∈ e.closed

/-- A client of a server that listens whose first request is granted the switch gets the answer to
it and then what a session makes of the bytes behind the head, after any runs of other clients that
leave the counters the same.  The streams may be cut anywhere. -/
theorem handed_over_to_session (earlier earlier' : List (List Action)) {id' : String}
    (hid : (serving earlier).find? id = none) (hid' : (after earlier').find? id' = none)
    (hcounters : (serving earlier).counters = (after earlier').counters)
    (hopening : Http.Opening head p key) {steps steps' : List (List Action)}
    (h : Cuts id peer (head ++ b) false steps) (h' : Cuts id' peer b false steps') :
    HandedOver id id' peer p key ((serving earlier).steps steps) ((after earlier').steps steps') := by
  obtain ⟨hlistening, hready, harrivals⟩ := listening_serving earlier
  obtain ⟨hkept, hready'⟩ := kept_after earlier'
  obtain ⟨heffects, hends⟩ := handedOver_steps hlistening.mode hlistening hid hready harrivals
    hopening h.delivers
  obtain ⟨heffects', hends'⟩ := shown_steps hkept.mode hid' hready' h'.delivers
  rw [hcounters] at heffects hends
  obtain ⟨houtput, hlog, hclosed⟩ :=
    shown_renamed (after earlier').counters id id' peer (Session.course b false)
  constructor
  · rw [flatMap_output, flatMap_output, Entry.joined, Entry.joined, heffects, heffects', ← houtput]
    simp [Entry.output, Bytes.join_eq_flatten, handedOver]
  · rw [flatMap_log, flatMap_log, Entry.joined, Entry.joined, heffects, heffects', ← hlog]
    rfl
  · rw [hends, hends']
  · rw [exists_mem_closed_iff, exists_mem_closed_iff, heffects, heffects', ← hclosed]
    simp [handedOver]

/-- The head of an opening handshake, with a query. -/
def sampleHead : Bytes :=
  Bytes.ofText ("GET /ws?room=1 HTTP/1.1\r\nConnection: keep-alive, Upgrade\r\n" ++
    "Upgrade: websocket\r\nSec-WebSocket-Version: 13\r\n" ++
    "Sec-WebSocket-Key: dGhlIHNhbXBsZSBub25jZQ==\r\n\r\n")

def sampleKey : Bytes := Bytes.ofText "dGhlIHNhbXBsZSBub25jZQ=="

/-- What the head says. -/
def sampleParsed : Http.Head.Parsed where
  request :=
    { method := Bytes.ofText "GET"
      target := ⟨none, none, Bytes.ofText "/ws", some (Bytes.ofText "room=1")⟩
      version := .http11
      headers := [.ofText "Connection" "keep-alive, Upgrade", .ofText "Upgrade" "websocket",
        .ofText "Sec-WebSocket-Version" "13", ⟨Bytes.ofText "Sec-WebSocket-Key", sampleKey⟩] }
  keepAlive := true
  body := .sized 0
  bodyWaits := false
  retains := true

theorem opening_sample : Http.Opening sampleHead sampleParsed sampleKey where
  spelled := by decide +kernel
  size := by decide +kernel
  version := rfl
  bodiless := rfl
  route := by decide +kernel
  accepted := by decide +kernel

/-- A ping whose header is in the segment that ends the head. -/
theorem pingBehindHead_handed_over :
    (serving []).find? "a" = none ∧ (after []).find? "b" = none ∧
      (serving []).counters = (after []).counters ∧
      Http.Opening sampleHead sampleParsed sampleKey ∧
      Cuts "a" loopback (sampleHead ++ [0x89, 0x81, 1, 2, 3, 4, 6]) false
        [[.connect "a" loopback, .send "a" (sampleHead.take 30)],
          [.send "a" (sampleHead.drop 30 ++ [0x89])], [.send "a" [0x81, 1, 2, 3, 4, 6]]] ∧
      Cuts "b" loopback [0x89, 0x81, 1, 2, 3, 4, 6] false
        [[.connect "b" loopback, .send "b" [0x89, 0x81, 1, 2, 3, 4, 6]]] ∧
      ((serving []).steps
          [[.connect "a" loopback, .send "a" (sampleHead.take 30)],
            [.send "a" (sampleHead.drop 30 ++ [0x89])],
            [.send "a" [0x81, 1, 2, 3, 4, 6]]]).2.flatMap (·.output "a") =
        Bytes.ofText ("HTTP/1.1 101 Switching Protocols\r\nconnection: Upgrade\r\n" ++
          "upgrade: websocket\r\n" ++
          "sec-websocket-accept: s3pPLMBiTxaQ9kYGzzhZRbK+xOo=\r\n\r\n") ++ [0x8A, 1, 7] := by
  have hcuts : Cuts "a" loopback (sampleHead ++ [0x89, 0x81, 1, 2, 3, 4, 6]) false
      [[.connect "a" loopback, .send "a" (sampleHead.take 30)],
        [.send "a" (sampleHead.drop 30 ++ [0x89])], [.send "a" [0x81, 1, 2, 3, 4, 6]]] :=
    ⟨[sampleHead.take 30, sampleHead.drop 30 ++ [0x89], [0x81, 1, 2, 3, 4, 6]], by decide +kernel,
      rfl⟩
  have hcuts' : Cuts "b" loopback [0x89, 0x81, 1, 2, 3, 4, 6] false
      [[.connect "b" loopback, .send "b" [0x89, 0x81, 1, 2, 3, 4, 6]]] :=
    ⟨[_], List.flatten_singleton, rfl⟩
  refine ⟨rfl, rfl, rfl, opening_sample, hcuts, hcuts', ?_⟩
  rw [(handed_over_to_session [] [] rfl rfl rfl opening_sample hcuts hcuts').output]
  decide +kernel

end WebSocketEcho.Server
