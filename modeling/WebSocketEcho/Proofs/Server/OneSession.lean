import WebSocketEcho.Proofs.Server.Queue
import WebSocketEcho.Proofs.Server.Turns
import WebSocketEcho.Proofs.Session.Reading

/-!
# One session in many steps

A client connects, sends bytes in pieces and perhaps closes its side, and the actions are spread
over steps in any way.  `Stands` says how the server stands to that connection after any part of
this, also in the middle of a step, and `shown_steps` gives all effects of such a run: they are
those of one session that reads all the bytes at once, however they were cut.

Other sessions may be there.  They wait, because nothing is done on their connections.
-/

namespace WebSocketEcho

/-! ## A session that reads in pieces -/

namespace Session

/-- Where a client is that may have closed its side. -/
def presence (finished : Bool) : Presence := if finished then .finished else .present

/-- A session begins on a connection, reads all that was sent and, when the client has closed its
side, the end. -/
def course (sent : Bytes) (finished : Bool) : List Reaction × Progress :=
  (begin []).poll ⟨sent, presence finished⟩

theorem course_append {read : Bytes} {reactions : List Reaction} {t : Session}
    (h : (begin []).feed read = (reactions, .waiting t)) (unread : Bytes) (finished : Bool) :
    course (read ++ unread) finished = before reactions (t.poll ⟨unread, presence finished⟩) := by
  have hfeed : (begin []).feed (read ++ unread) = before reactions (t.feed unread) := by
    rw [feed_append, h]
    rfl
  cases finished with
  | false => exact hfeed
  | true =>
    rw [course]
    simp only [presence, if_true, poll]
    rw [hfeed]
    rfl

/-- A session that has ended stays what it was, whatever more comes and whether or not the client
then closes its side. -/
theorem course_append_of_ended {sent : Bytes} {reactions : List Reaction} {o : Outcome}
    (h : course sent false = (reactions, .ended o)) (more : Bytes) (finished : Bool) :
    course (sent ++ more) finished = (reactions, .ended o) := by
  have hfeed : (begin []).feed (sent ++ more) = (reactions, .ended o) := by
    rw [feed_append, show (begin []).feed sent = (reactions, .ended o) from h]
    rfl
  cases finished with
  | false => exact hfeed
  | true =>
    rw [course]
    simp only [presence, if_true, poll]
    rw [hfeed]
    rfl

end Session

namespace Server

open Session (presence course)

/-! ## What a client does -/

/-- How far a client has come. -/
inductive Sending where
  | absent
  /-- It has connected and sent these bytes, and perhaps closed its side. -/
  | sent (bytes : Bytes) (finished : Bool)

/-- The actions of a client that connects, sends, and closes its side last. -/
inductive Delivers (id : String) (peer : SocketAddress) :
    Sending → List Action → Sending → Prop where
  | done (x : Sending) : Delivers id peer x [] x
  | connect {rest : List Action} {y : Sending} (h : Delivers id peer (.sent [] false) rest y) :
      Delivers id peer .absent (.connect id peer :: rest) y
  | send {sent bytes : Bytes} {rest : List Action} {y : Sending}
      (h : Delivers id peer (.sent (sent ++ bytes) false) rest y) :
      Delivers id peer (.sent sent false) (.send id bytes :: rest) y
  | finish {sent : Bytes} {rest : List Action} {y : Sending}
      (h : Delivers id peer (.sent sent true) rest y) :
      Delivers id peer (.sent sent false) (.finish id :: rest) y

section Delivers

variable {id : String} {peer : SocketAddress} {x y : Sending}

/-- Actions can be cut anywhere. -/
theorem Delivers.split {a b : List Action} (h : Delivers id peer x (a ++ b) y) :
    ∃ z, Delivers id peer x a z ∧ Delivers id peer z b y := by
  induction a generalizing x with
  | nil => exact ⟨x, .done x, h⟩
  | cons action rest ih =>
    cases h with
    | connect h =>
      obtain ⟨z, ha, hb⟩ := ih h
      exact ⟨z, .connect ha, hb⟩
    | send h =>
      obtain ⟨z, ha, hb⟩ := ih h
      exact ⟨z, .send ha, hb⟩
    | finish h =>
      obtain ⟨z, ha, hb⟩ := ih h
      exact ⟨z, .finish ha, hb⟩

/-- What is sent in pieces adds up. -/
theorem delivers_pieces (sent : Bytes) (pieces : List Bytes) (finished : Bool) :
    Delivers id peer (.sent sent false)
      (pieces.map (.send id) ++ if finished then [.finish id] else [])
      (.sent (sent ++ pieces.flatten) finished) := by
  induction pieces generalizing sent with
  | nil =>
    rw [List.flatten_nil, List.append_nil]
    cases finished with
    | false => exact .done _
    | true => exact .finish (.done _)
  | cons piece rest ih =>
    rw [List.flatten_cons, ← List.append_assoc]
    exact .send (ih (sent ++ piece))

end Delivers

/-! ## How the server stands to it -/

/-- The effects of a reading, when the counters were `c` before it. -/
def told (c : Counters) (id : String) (peer : SocketAddress) (r : List Reaction × Progress) :
    List Effect :=
  r.1.map (reactionEffect id) ++
    match r.2 with
    | .waiting _ => []
    | .ended o =>
      [.logged (.sessionEnded peer o), .passed (.left id),
        .logged (.sessionClosed peer c.leave.active), .closed id]

/-- The effects of a session from its beginning, when the counters were `c` before it. -/
def shown (c : Counters) (id : String) (peer : SocketAddress) (r : List Reaction × Progress) :
    List Effect :=
  .passed (.entered id) :: .logged (.sessionOpened peer c.enter.active) ::
    told c.enter id peer r

/-- The counters after a reading: a session that has ended is no longer counted. -/
def counted (c : Counters) (r : List Reaction × Progress) : Counters :=
  match r.2 with
  | .waiting _ => c
  | .ended _ => c.leave

/-- The stage of a connection after a reading. -/
def stageOf (r : List Reaction × Progress) : Stage :=
  match r.2 with
  | .waiting t => .echoing t
  | .ended _ => .ended

theorem told_before (c : Counters) (id : String) (peer : SocketAddress)
    (reactions : List Reaction) (r : List Reaction × Progress) :
    told c id peer (Session.before reactions r) =
      reactions.map (reactionEffect id) ++ told c id peer r := by
  simp [told, Session.before]

/-- A session's turn is a reading. -/
theorem runSession_spec {s : Server} {id : String} {c : Client} (hc : s.find? id = some c)
    (session : Session) :
    (s.runSession c session).1.find? id =
        some { c with
          wire := { c.wire with unread := [] }, stage := stageOf (session.poll c.wire) } ∧
      (s.runSession c session).1.ready = s.ready ∧
      (s.runSession c session).1.counters = counted s.counters (session.poll c.wire) ∧
      (s.runSession c session).2 = told s.counters c.id c.peer (session.poll c.wire) := by
  obtain rfl : c.id = id := id_of_find? hc
  rcases hp : session.poll c.wire with ⟨reactions, progress⟩
  cases progress with
  | waiting t =>
    rw [runSession_of_waiting hp]
    refine ⟨?_, rfl, rfl, ?_⟩
    · exact find?_update_self
        (f := fun d => { d with wire := { c.wire with unread := [] }, stage := .echoing t })
        (fun d hd => hd) hc
    · rw [told]
      exact (List.append_nil _).symm
  | ended o =>
    rw [runSession_of_ended hp]
    refine ⟨?_, rfl, rfl, rfl⟩
    exact find?_update_self
      (f := fun d => { d with wire := { c.wire with unread := [] }, stage := .ended })
      (fun d hd => hd) hc

/-- How a server stands to a client that has come so far, with the effects so far.  The server was
`s₀` before the client came. -/
inductive Stands (s₀ : Server) (id : String) (peer : SocketAddress) :
    Sending → Server → List Effect → Prop where
  | absent : Stands s₀ id peer .absent s₀ []
  | starting {s : Server} {sent : Bytes} {finished : Bool}
      (hc : s.find? id = some ⟨id, peer, ⟨sent, presence finished⟩, .starting [], false⟩)
      (hready : s.ready = [.advance id]) (hcounters : s.counters = s₀.counters) :
      Stands s₀ id peer (.sent sent finished) s []
  /-- The session has read `read` and waits; `unread` has come since. -/
  | echoing {s : Server} {read unread : Bytes} {finished : Bool} {reactions : List Reaction}
      {t : Session} (hfeed : (Session.begin []).feed read = (reactions, .waiting t))
      (hc : s.find? id = some ⟨id, peer, ⟨unread, presence finished⟩, .echoing t, false⟩)
      (hready : s.ready = [.advance id] ∨ s.ready = [] ∧ unread = [] ∧ finished = false)
      (hcounters : s.counters = s₀.counters.enter) :
      Stands s₀ id peer (.sent (read ++ unread) finished) s
        (shown s₀.counters id peer (reactions, .waiting t))
  | ended {s : Server} {sent unread : Bytes} {finished : Bool} {reactions : List Reaction}
      {o : Outcome} (hcourse : course sent finished = (reactions, .ended o))
      (hc : s.find? id = some ⟨id, peer, ⟨unread, presence finished⟩, .ended, false⟩)
      (hready : s.ready = []) (hcounters : s.counters = s₀.counters.enter.leave) :
      Stands s₀ id peer (.sent sent finished) s
        (shown s₀.counters id peer (reactions, .ended o))

section Stands

variable {s₀ s : Server} {id : String} {peer : SocketAddress} {x y : Sending} {out : List Effect}

/-- When the queue is empty, everything that was sent has been read, as if at once. -/
theorem Stands.shown_course {sent : Bytes} {finished : Bool}
    (h : Stands s₀ id peer (.sent sent finished) s out) (hready : s.ready = []) :
    out = shown s₀.counters id peer (course sent finished) ∧
      s.counters = counted s₀.counters.enter (course sent finished) := by
  cases h with
  | starting _ hready' =>
    rw [hready'] at hready
    cases hready
  | echoing hfeed hc hready' hcounters =>
    rename_i read unread reactions t
    rcases hready' with hready' | ⟨_, rfl, rfl⟩
    · rw [hready'] at hready
      cases hready
    · have hcourse : course (read ++ []) false = (reactions, .waiting t) := by
        rw [List.append_nil]
        exact hfeed
      rw [hcourse]
      exact ⟨rfl, hcounters⟩
  | ended hcourse _ _ hcounters =>
    rw [hcourse]
    exact ⟨rfl, hcounters⟩

/-! ### Actions -/

/-- What the client does to its connection while a session is to run or runs on it. -/
theorem ready_touch {c : Client} (h : c.stage ≠ .arriving) (h' : c.stage ≠ .ended)
    (hready : s.ready = [.advance c.id] ∨ s.ready = []) :
    (s.touch c).ready = [.advance c.id] := by
  rw [touch_of_live h h']
  rcases hready with hready | hready
  · exact ready_wake_of_singleton hready
  · exact ready_wake_of_nil hready

theorem Stands.connect (hmode : s₀.mode = .sessions) (hid : s₀.find? id = none)
    (hready : s₀.ready = []) (h : Stands s₀ id peer .absent s out) :
    Stands s₀ id peer (.sent [] false) (s.acted (.connect id peer)) out := by
  cases h
  rw [acted_connect hid]
  refine .starting ?_ ?_ ?_
  · rw [find?_connect hmode hid, if_pos rfl]
    rfl
  · rw [connect_of_sessions hmode]
    exact ready_wake_of_nil hready
  · rw [connect_of_sessions hmode, counters_wake]

/-- More is sent, or the client closes its side.  A session that is to run or runs is woken. -/
theorem Stands.onLive {a : Action} {f : Client → Client} {sent more : Bytes} {finished : Bool}
    (hact : s.act a = s.onLive id f)
    (hf : ∀ c, c.wire.state = .present →
      f c = { c with wire := ⟨c.wire.unread ++ more, presence finished⟩ })
    (h : Stands s₀ id peer (.sent sent false) s out) :
    Stands s₀ id peer (.sent (sent ++ more) finished) (s.acted a) out := by
  have htouch : ∀ c, s.find? id = some c → c.wire.state = .present →
      s.acted a = s.touch { c with wire := ⟨c.wire.unread ++ more, presence finished⟩ } := by
    intro c hc hpresent
    have hlive : s.live? id = some c := by
      rw [live?, hc]
      simp [hpresent]
    refine acted_of_ok ?_
    rw [hact, Server.onLive, hlive, ← hf c hpresent]
  have hfind : ∀ c c', s.find? id = some c → c'.id = id → (s.touch c').find? id = some c' := by
    intro c c' hc hid
    rw [find?_touch, hc]
    simp [hid]
  cases h with
  | starting hc hready hcounters =>
    rw [htouch _ hc rfl]
    refine .starting (hfind _ _ hc rfl) ?_ ((counters_touch _ _).trans hcounters)
    exact ready_touch (by simp) (by simp) (Or.inl hready)
  | echoing hfeed hc hready hcounters =>
    rw [htouch _ hc rfl, List.append_assoc]
    refine .echoing hfeed (hfind _ _ hc rfl) (Or.inl ?_) ((counters_touch _ _).trans hcounters)
    exact ready_touch (by simp) (by simp) (hready.imp_right (·.1))
  | ended hcourse hc hready hcounters =>
    rw [htouch _ hc rfl]
    refine .ended (Session.course_append_of_ended hcourse more finished) (hfind _ _ hc rfl) ?_
      ((counters_touch _ _).trans hcounters)
    rw [touch_of_ended rfl]
    exact hready

theorem Stands.send {sent : Bytes} (h : Stands s₀ id peer (.sent sent false) s out)
    (bytes : Bytes) :
    Stands s₀ id peer (.sent (sent ++ bytes) false) (s.acted (.send id bytes)) out := by
  refine h.onLive rfl fun c hc => ?_
  rw [Wire.send, hc]
  rfl

theorem Stands.finish {sent : Bytes} (h : Stands s₀ id peer (.sent sent false) s out) :
    Stands s₀ id peer (.sent sent true) (s.acted (.finish id)) out := by
  rw [← List.append_nil sent]
  refine h.onLive rfl fun c _ => ?_
  rw [List.append_nil]
  rfl

/-- The actions of a client, before the server runs. -/
theorem Stands.foldl_acted (hmode : s₀.mode = .sessions) (hid : s₀.find? id = none)
    (hready : s₀.ready = []) {actions : List Action} (hd : Delivers id peer x actions y)
    (h : Stands s₀ id peer x s out) : Stands s₀ id peer y (actions.foldl acted s) out := by
  induction hd generalizing s with
  | done => exact h
  | connect _ ih => exact ih (h.connect hmode hid hready)
  | send _ ih => exact ih (h.send _)
  | finish _ ih => exact ih h.finish

/-! ### Tasks -/

/-- How the server stands once everything that was sent has been read. -/
theorem stands_of_course {sent : Bytes} {finished : Bool} (hready : s.ready = [])
    (hc : s.find? id =
      some ⟨id, peer, ⟨[], presence finished⟩, stageOf (course sent finished), false⟩)
    (hcounters : s.counters = counted s₀.counters.enter (course sent finished)) :
    Stands s₀ id peer (.sent sent finished) s
      (shown s₀.counters id peer (course sent finished)) := by
  rcases hcourse : course sent finished with ⟨reactions, progress⟩
  rw [hcourse] at hc hcounters
  cases progress with
  | ended o => exact .ended hcourse hc hready hcounters
  | waiting t =>
    -- A session does not wait for a client that has closed its side.
    have hpresent : presence finished = .present := Session.state_of_poll_waiting hcourse
    cases finished with
    | true => cases hpresent
    | false =>
      rw [← List.append_nil sent]
      exact .echoing hcourse hc (Or.inr ⟨hready, rfl, rfl⟩) hcounters

/-- The session begins with what has come before its turn, some of which may have been read before
it. -/
theorem stands_settle_of_starting {leftover unread : Bytes} {finished : Bool}
    (hc : s.find? id = some ⟨id, peer, ⟨unread, presence finished⟩, .starting leftover, false⟩)
    (hready : s.ready = [.advance id]) (hcounters : s.counters = s₀.counters) :
    Stands s₀ id peer (.sent (leftover ++ unread) finished) s.settle.1 s.settle.2 ∧
      s.settle.1.ready = [] := by
  obtain ⟨hc', hready', hcounters', heffects⟩ :=
    runSession_spec (s := { s with ready := [], counters := s.counters.enter }) hc
      (.begin leftover)
  have hrun : run { s with ready := [] } (.advance id) =
      startSession { s with ready := [] }
        ⟨id, peer, ⟨unread, presence finished⟩, .starting leftover, false⟩ leftover := by
    rw [run, advance, show ({ s with ready := [] } : Server).find? id = _ from hc]
    rfl
  have hcourse : (Session.begin leftover).poll ⟨unread, presence finished⟩ =
      course (leftover ++ unread) finished := by
    cases finished <;> rfl
  have hsettle := settle_of_singleton hready (by rw [hrun]; exact hready')
  have hstands : Stands s₀ id peer (.sent (leftover ++ unread) finished) _ _ :=
    stands_of_course hready' (by rw [← hcourse]; exact hc')
      (by rw [← hcourse, ← hcounters]; exact hcounters')
  rw [← hcourse, shown, ← hcounters] at hstands
  rw [hsettle, hrun]
  refine ⟨?_, hready'⟩
  rw [startSession]
  dsimp only
  rw [heffects]
  exact hstands

/-- The session goes on with what has come since its last turn. -/
theorem stands_settle_of_echoing {read unread : Bytes} {finished : Bool}
    {reactions : List Reaction} {t : Session}
    (hfeed : (Session.begin []).feed read = (reactions, .waiting t))
    (hc : s.find? id = some ⟨id, peer, ⟨unread, presence finished⟩, .echoing t, false⟩)
    (hready : s.ready = [.advance id]) (hcounters : s.counters = s₀.counters.enter) :
    Stands s₀ id peer (.sent (read ++ unread) finished) s.settle.1
        (shown s₀.counters id peer (reactions, .waiting t) ++ s.settle.2) ∧
      s.settle.1.ready = [] := by
  obtain ⟨hc', hready', hcounters', heffects⟩ :=
    runSession_spec (s := { s with ready := [] }) hc t
  have hrun : run { s with ready := [] } (.advance id) =
      runSession { s with ready := [] }
        ⟨id, peer, ⟨unread, presence finished⟩, .echoing t, false⟩ t := by
    rw [run, advance, show ({ s with ready := [] } : Server).find? id = _ from hc]
    rfl
  have hsettle := settle_of_singleton hready (by rw [hrun]; exact hready')
  have hcourse := Session.course_append hfeed unread finished
  have hstands : Stands s₀ id peer (.sent (read ++ unread) finished) _ _ :=
    stands_of_course hready' (by rw [hcourse]; exact hc')
      (by rw [hcourse, ← hcounters]; exact hcounters')
  rw [hcourse, shown, told_before, ← hcounters] at hstands
  rw [hsettle, hrun, heffects]
  refine ⟨?_, hready'⟩
  rw [shown, told, ← hcounters]
  simpa using hstands

/-- Whatever has come is read and answered. -/
theorem Stands.settle (hready₀ : s₀.ready = []) (h : Stands s₀ id peer x s out) :
    Stands s₀ id peer x s.settle.1 (out ++ s.settle.2) ∧ s.settle.1.ready = [] := by
  cases h with
  | absent =>
    rw [settle_of_nil hready₀]
    exact ⟨.absent, hready₀⟩
  | starting hc hready hcounters => exact stands_settle_of_starting hc hready hcounters
  | echoing hfeed hc hready hcounters =>
    rcases hready with hready | ⟨hready, rfl, rfl⟩
    · exact stands_settle_of_echoing hfeed hc hready hcounters
    · rw [settle_of_nil hready]
      refine ⟨?_, hready⟩
      rw [List.append_nil (shown _ _ _ _)]
      exact .echoing hfeed hc (Or.inr ⟨hready, rfl, rfl⟩) hcounters
  | ended hcourse hc hready hcounters =>
    rw [settle_of_nil hready, List.append_nil]
    exact ⟨.ended hcourse hc hready hcounters, hready⟩

/-! ### Runs -/

/-- The steps of a client, however its actions are spread over them. -/
theorem Stands.steps (hmode : s₀.mode = .sessions) (hid : s₀.find? id = none)
    (hready₀ : s₀.ready = []) {steps : List (List Action)}
    (hd : Delivers id peer x steps.flatten y) (h : Stands s₀ id peer x s out)
    (hready : s.ready = []) :
    Stands s₀ id peer y (s.steps steps).1 (out ++ (s.steps steps).2.flatMap (·.effects)) ∧
      (s.steps steps).1.ready = [] := by
  induction steps generalizing x s out with
  | nil =>
    cases hd
    rw [Server.steps, List.flatMap_nil, List.append_nil]
    exact ⟨h, hready⟩
  | cons actions rest ih =>
    rw [List.flatten_cons] at hd
    obtain ⟨z, hactions, hrest⟩ := hd.split
    have hacted := h.foldl_acted hmode hid hready₀ hactions
    obtain ⟨hsettled, hready'⟩ := hacted.settle hready₀
    rw [← step_fst, ← effects_step] at hsettled
    rw [← step_fst] at hready'
    obtain ⟨hstands, hnil⟩ := ih hrest hsettled hready'
    rw [steps_cons, List.flatMap_cons, ← List.append_assoc]
    exact ⟨hstands, hnil⟩

/-- All effects of a client's run, and the counters after it, are those of one session that reads
everything at once. -/
theorem shown_steps (hmode : s₀.mode = .sessions) (hid : s₀.find? id = none)
    (hready : s₀.ready = []) {sent : Bytes} {finished : Bool} {steps : List (List Action)}
    (hd : Delivers id peer .absent steps.flatten (.sent sent finished)) :
    (s₀.steps steps).2.flatMap (·.effects) =
        shown s₀.counters id peer (course sent finished) ∧
      (s₀.steps steps).1.counters = counted s₀.counters.enter (course sent finished) := by
  obtain ⟨hstands, hnil⟩ := Stands.steps hmode hid hready hd .absent hready
  exact hstands.shown_course hnil

end Stands

end Server

end WebSocketEcho
