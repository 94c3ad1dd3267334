import WebSocketEcho.Proofs.Server.OneSession
import WebSocketEcho.Proofs.Server.Stints

/-!
# A server that listens

What happens on a server with a listener, one action and one task at a time.  `happens_acted` says
what an action does: it brings a new connection or a failure to the listener, or changes what waits
on the wire of one connection.  `moves_advance` says what the task of a connection does: one `Move`
of that connection, and nothing else.  The listener takes everything that has come in.

`Listening` is the invariant of all runs.  Nothing is ever cancelled on such a server, and whatever
has come in at the listener has woken it.
-/

namespace WebSocketEcho

namespace Http.Standing

/-- The stage of a connection that stands so. -/
def stage : Standing → Stage
  | .waiting c | .paused c => .requesting c
  | .closed _ => .ended
  | .switched leftover => .starting leftover
  | .abandoned _ => .abandoned

/-- Whether the task of the connection is woken again. -/
def wakes : Standing → Bool
  | .paused _ | .switched _ | .abandoned _ => true
  | .waiting _ | .closed _ => false

/-- What the outside sees of a connection that stands so. -/
def effects (c : Client) : Standing → List Effect
  | .waiting _ | .paused _ | .switched _ => []
  | .closed none => [.closed c.id]
  | .closed (some fault) | .abandoned fault =>
    [.logged (.connectionFailed c.peer fault), .closed c.id]

end Http.Standing

namespace Server

variable {s s' : Server} {id : String} {c c' : Client} {effects : List Effect}

/-! ## What a task does -/

/-- What the task of a connection can do: what becomes of the connection, whether the task is woken
again, the counters, and what is seen. -/
inductive Move (k : Counters) (c : Client) : Client → Bool → Counters → List Effect → Prop where
  | idle (h : c.stage = .arriving ∨ c.stage = .ended) : Move k c c false k []
  /-- The connection is served. -/
  | served {connection : Http.Connection} {deeds : List Http.Deed} {standing : Http.Standing}
      {w : Wire} (h : c.stage = .requesting connection)
      (hpoll : connection.poll (Service.answer k) c.wire = (deeds, standing, w)) :
      Move k c { c with wire := w, stage := standing.stage } standing.wakes k
        (deeds.flatMap (deedEffects c) ++ standing.effects c)
  /-- A session begins, and reads. -/
  | began {leftover : Bytes} {r : List Reaction × Progress} (h : c.stage = .starting leftover)
      (hpoll : (Session.begin leftover).poll c.wire = r) :
      Move k c { c with wire := { c.wire with unread := [] }, stage := stageOf r } false
        (counted k.enter r) (shown k c.id c.peer r)
  | read {session : Session} {r : List Reaction × Progress} (h : c.stage = .echoing session)
      (hpoll : session.poll c.wire = r) :
      Move k c { c with wire := { c.wire with unread := [] }, stage := stageOf r } false
        (counted k r) (told k c.id c.peer r)
  | gaveUp (h : c.stage = .abandoned) :
      Move k c { c with stage := .ended } false k [.logged (.upgradeFailed c.peer)]

/-- The move of a connection that is served goes where the poll goes. -/
theorem Move.of_poll {woken : Bool} {k k' : Counters} {connection : Http.Connection}
    {deeds : List Http.Deed} {standing : Http.Standing} {w : Wire}
    (h : Move k c c' woken k' effects) (hstage : c.stage = .requesting connection)
    (hpoll : connection.poll (Service.answer k) c.wire = (deeds, standing, w)) :
    c' = { c with wire := w, stage := standing.stage } ∧ woken = standing.wakes ∧ k' = k ∧
      effects = deeds.flatMap (deedEffects c) ++ standing.effects c := by
  cases h with
  | served hstage' hpoll' =>
    rw [hstage] at hstage'
    cases hstage'
    rw [hpoll] at hpoll'
    cases hpoll'
    exact ⟨rfl, rfl, rfl, rfl⟩
  | idle hstage' =>
    rw [hstage] at hstage'
    rcases hstage' with hstage' | hstage' <;> cases hstage'
  | began hstage' | read hstage' | gaveUp hstage' =>
    rw [hstage] at hstage'
    cases hstage'

/-- Wakes a task, or does not. -/
def wakeIf (s : Server) (woken : Bool) (t : Task) : Server := if woken then s.wake t else s

theorem moves_runConnection {connection : Http.Connection} (h : c.stage = .requesting connection) :
    ∃ f woken, (∀ d, (f d).id = d.id ∧ (f d).cancelled = d.cancelled) ∧
      Move s.counters c (f c) woken s.counters (s.runConnection c connection).2 ∧
      (s.runConnection c connection).1 = (s.update c.id f).wakeIf woken (.advance c.id) := by
  rcases hpoll : connection.poll (Service.answer s.counters) c.wire with ⟨deeds, standing, w⟩
  refine ⟨fun d => { d with wire := w, stage := standing.stage }, standing.wakes,
    fun d => ⟨rfl, rfl⟩, ?_⟩
  have hmove := Move.served h hpoll
  have heffects : (s.runConnection c connection).2 =
      deeds.flatMap (deedEffects c) ++ standing.effects c := by
    simp only [runConnection, hpoll]
    cases standing with
    | waiting | paused | switched => exact (List.append_nil _).symm
    | closed fault => cases fault <;> rfl
    | abandoned fault => rfl
  refine ⟨?_, ?_⟩
  · rw [heffects]
    exact hmove
  · simp only [runConnection, hpoll]
    cases standing with
    | closed fault => cases fault <;> rfl
    | waiting | paused | switched | abandoned => rfl

theorem moves_runSession {session : Session} (h : c.stage = .echoing session) :
    ∃ f k, (∀ d, (f d).id = d.id ∧ (f d).cancelled = d.cancelled) ∧
      Move s.counters c (f c) false k (s.runSession c session).2 ∧
      (s.runSession c session).1 = { s.update c.id f with counters := k } := by
  rcases hpoll : session.poll c.wire with ⟨reactions, progress⟩
  refine ⟨fun d => { d with
    wire := { c.wire with unread := [] }, stage := stageOf (reactions, progress) },
    counted s.counters (reactions, progress), fun d => ⟨rfl, rfl⟩, ?_⟩
  have hmove := Move.read (k := s.counters) h hpoll
  cases progress with
  | waiting t =>
    rw [runSession_of_waiting hpoll]
    rw [told, List.append_nil] at hmove
    exact ⟨hmove, rfl⟩
  | ended o =>
    rw [runSession_of_ended hpoll]
    exact ⟨hmove, rfl⟩

theorem moves_startSession {leftover : Bytes} (h : c.stage = .starting leftover) :
    ∃ f k, (∀ d, (f d).id = d.id ∧ (f d).cancelled = d.cancelled) ∧
      Move s.counters c (f c) false k (s.startSession c leftover).2 ∧
      (s.startSession c leftover).1 = { s.update c.id f with counters := k } := by
  rcases hpoll : (Session.begin leftover).poll c.wire with ⟨reactions, progress⟩
  refine ⟨fun d => { d with
    wire := { c.wire with unread := [] }, stage := stageOf (reactions, progress) },
    counted s.counters.enter (reactions, progress), fun d => ⟨rfl, rfl⟩, ?_⟩
  have hmove := Move.began (k := s.counters) h hpoll
  cases progress with
  | waiting t =>
    rw [startSession_of_waiting hpoll]
    rw [shown, told, List.append_nil] at hmove
    exact ⟨hmove, rfl⟩
  | ended o =>
    rw [startSession_of_ended hpoll]
    exact ⟨hmove, rfl⟩

/-- The task of a connection that is not cancelled makes a move of it, and does nothing else. -/
theorem moves_advance (hc : s.find? id = some c) (hcancelled : c.cancelled = false) :
    ∃ f woken k, (∀ d, (f d).id = d.id ∧ (f d).cancelled = d.cancelled) ∧
      Move s.counters c (f c) woken k (s.advance id).2 ∧
      (s.advance id).1 =
        ({ s.update id f with counters := k } : Server).wakeIf woken (.advance id) := by
  obtain rfl : c.id = id := id_of_find? hc
  have hidle : s.update c.id (fun d => d) = s := by simp [update]
  rw [advance, hc]
  dsimp only
  rw [hcancelled, if_neg Bool.false_ne_true]
  cases hstage : c.stage with
  | arriving =>
    refine ⟨fun d => d, false, s.counters, fun d => ⟨rfl, rfl⟩, .idle (Or.inl hstage), ?_⟩
    rw [hidle]
    rfl
  | ended =>
    refine ⟨fun d => d, false, s.counters, fun d => ⟨rfl, rfl⟩, .idle (Or.inr hstage), ?_⟩
    rw [hidle]
    rfl
  | requesting connection =>
    obtain ⟨f, woken, hf, hmove, hresult⟩ := moves_runConnection (s := s) hstage
    exact ⟨f, woken, s.counters, hf, hmove, hresult⟩
  | starting leftover =>
    obtain ⟨f, k, hf, hmove, hresult⟩ := moves_startSession (s := s) hstage
    exact ⟨f, false, k, hf, hmove, hresult⟩
  | echoing session =>
    obtain ⟨f, k, hf, hmove, hresult⟩ := moves_runSession (s := s) hstage
    exact ⟨f, false, k, hf, hmove, hresult⟩
  | abandoned =>
    exact ⟨fun d => { d with stage := .ended }, false, s.counters, fun d => ⟨rfl, rfl⟩,
      .gaveUp hstage, rfl⟩

/-! ## What an action does -/

/-- What an action does to a server that listens, before it runs. -/
inductive Happens (s : Server) : Server → Prop where
  /-- The action cannot be done. -/
  | nothing : Happens s s
  | came {id : String} (peer : SocketAddress) (hid : s.find? id = none) :
      Happens s (s.connect id peer)
  | failed : Happens s
      (({ s with arrivals := s.arrivals ++ [.failure .tooManyOpenFiles] } : Server).wake .accept)
  /-- Bytes are sent, or the client goes. -/
  | touched {id : String} {c : Client} (hc : s.find? id = some c) (w : Wire) :
      Happens s (s.touch { c with wire := w })

theorem happens_acted (hmode : s.mode = .http) (a : Action) : s.Happens (s.acted a) := by
  have honLive : ∀ id (f : Client → Wire), s.act a = s.onLive id (fun c => { c with wire := f c }) →
      s.Happens (s.acted a) := by
    intro id f hact
    rw [acted, hact, onLive]
    cases hlive : s.live? id with
    | none => exact .nothing
    | some c => exact .touched (Option.filter_eq_some_iff.1 hlive).1 (f c)
  cases a with
  | connect id peer =>
    rw [acted, act]
    cases hid : s.find? id with
    | none => exact .came peer hid
    | some c => exact .nothing
  | send id bytes => exact honLive id (fun c => c.wire.send bytes) rfl
  | finish id => exact honLive id (fun c => { c.wire with state := .finished }) rfl
  | vanish id => exact honLive id (fun c => { c.wire with state := .vanished }) rfl
  | reset id => exact honLive id (fun c => { c.wire with state := .reset }) rfl
  | abort id =>
    rw [acted, act, hmode, onLive]
    cases s.live? id with
    | none => exact .nothing
    | some c => exact .nothing
  | failAccept =>
    have hact : s.act .failAccept = .ok (({ s with
        arrivals := s.arrivals ++ [.failure .tooManyOpenFiles] } : Server).wake .accept) := by
      rw [act]
      split
      · rename_i h
        rw [hmode] at h
        cases h
      · rfl
    rw [acted_of_ok hact]
    exact .failed

/-! ## What there is besides connections -/

@[simp] theorem arrivals_wake (s : Server) (t : Task) : (s.wake t).arrivals = s.arrivals := by
  rw [wake]
  split <;> rfl

@[simp] theorem arrivals_touch (s : Server) (c : Client) : (s.touch c).arrivals = s.arrivals := by
  rw [touch]
  split
  · rfl
  · rfl
  · exact arrivals_wake _ _

theorem connect_of_http (h : s.mode = .http) (id : String) (peer : SocketAddress) :
    s.connect id peer =
      wake { s with
        clients := s.clients ++ [⟨id, peer, .fresh, .arriving, false⟩]
        arrivals := s.arrivals ++ [.client id] } .accept := by
  rw [connect, h]

theorem find?_connect_of_http (hmode : s.mode = .http) (hid : s.find? id = none)
    (peer : SocketAddress) (other : String) :
    (s.connect id peer).find? other =
      if other = id then some ⟨id, peer, .fresh, .arriving, false⟩ else s.find? other := by
  rw [connect_of_http hmode, find?_wake, find?]
  dsimp only
  rw [List.find?_append]
  split
  · rename_i heq
    subst heq
    rw [find?] at hid
    rw [hid]
    simp
  · rename_i hne
    cases h : s.clients.find? fun d => d.id == other with
    | some d =>
      rw [find?, h]
      rfl
    | none =>
      rw [find?, h]
      simp [Ne.symm hne]

/-! ## The invariant -/

/-- What holds of every server that listens, at every moment. -/
structure Listening (s : Server) : Prop where
  mode : s.mode = .http
  nodup : s.ids.Nodup
  kept : ∀ c ∈ s.clients, c.cancelled = false
  /-- Nothing has been done with what has come in. -/
  arriving : ∀ id, .client id ∈ s.arrivals → ∃ c, s.find? id = some c ∧ c.stage = .arriving
  woken : s.arrivals ≠ [] → .accept ∈ s.ready

theorem listening_empty : Listening (empty .http) := by
  constructor
  · rfl
  · exact List.nodup_nil
  · exact fun c hc => nomatch hc
  · exact fun id hid => nomatch hid
  · exact fun h => absurd rfl h

theorem Listening.happens (h : Listening s) (hs : s.Happens s') : Listening s' := by
  cases hs with
  | nothing => exact h
  | failed =>
    refine ⟨by simpa using h.mode, ?_, by simpa using h.kept, ?_, ?_⟩
    · rw [ids_wake]
      exact h.nodup
    · intro id hid
      simp only [arrivals_wake, List.mem_append, List.mem_singleton, reduceCtorEq,
        or_false] at hid
      rw [find?_wake]
      exact h.arriving id hid
    · exact fun _ => mem_ready_wake_iff.2 (Or.inl rfl)
  | came peer hid =>
    rename_i id
    have hfind := find?_connect_of_http h.mode hid peer
    refine ⟨?_, ?_, ?_, ?_, ?_⟩
    · rw [connect_of_http h.mode, mode_wake]
      exact h.mode
    · rw [connect_of_http h.mode, ids_wake]
      show ((s.clients ++ [(⟨id, peer, .fresh, .arriving, false⟩ : Client)]).map (·.id)).Nodup
      rw [List.map_append]
      refine List.nodup_append.2 ⟨h.nodup, List.nodup_singleton _, fun a ha b hb hab => ?_⟩
      rw [hab, List.mem_singleton.1 hb] at ha
      exact find?_eq_none_iff.1 hid ha
    · intro c hc
      rw [connect_of_http h.mode, clients_wake] at hc
      rcases List.mem_append.1 hc with hc | hc
      · exact h.kept c hc
      · rw [List.mem_singleton.1 hc]
    · intro other hother
      rw [connect_of_http h.mode, arrivals_wake] at hother
      rw [hfind]
      by_cases heq : other = id
      · exact ⟨_, if_pos heq, rfl⟩
      · rw [if_neg heq]
        rcases List.mem_append.1 hother with hother | hother
        · exact h.arriving other hother
        · exact absurd (Arrival.client.inj (List.mem_singleton.1 hother)) heq
    · intro _
      rw [connect_of_http h.mode]
      exact mem_ready_wake_iff.2 (Or.inl rfl)
  | touched hc w =>
    rename_i id c
    refine ⟨by simpa using h.mode, ?_, ?_, ?_, ?_⟩
    · rw [ids_touch]
      exact h.nodup
    · intro d hd
      rw [clients_touch, update] at hd
      obtain ⟨e, he, rfl⟩ := List.mem_map.1 hd
      split
      · exact h.kept c (mem_of_find? hc)
      · exact h.kept e he
    · intro other hother
      rw [arrivals_touch] at hother
      obtain ⟨d, hd, hstage⟩ := h.arriving other hother
      rw [find?_touch, hd]
      by_cases heq : other = c.id
      · rw [heq, id_of_find? hc, hc] at hd
        cases hd
        exact ⟨{ c with wire := w }, by simp [heq], hstage⟩
      · exact ⟨d, by simp [heq], hstage⟩
    · intro harrivals
      rw [arrivals_touch] at harrivals
      exact mem_ready_touch_of_mem (h.woken harrivals)

/-! ## The tasks keep it -/

@[simp] theorem mode_update (s : Server) (id : String) (f : Client → Client) :
    (s.update id f).mode = s.mode := rfl

@[simp] theorem arrivals_update (s : Server) (id : String) (f : Client → Client) :
    (s.update id f).arrivals = s.arrivals := rfl

theorem ready_wake_congr (h : s.ready = s'.ready) (t : Task) :
    (s.wake t).ready = (s'.wake t).ready := by
  rw [wake, wake, h]
  split
  · exact h
  · rfl

/-- What the task of the connection `c` leaves behind: the connection has changed, and perhaps the
task is woken again. -/
structure Advanced (s : Server) (rest : List Task) (c : Client) (r : Server × List Effect) :
    Prop where
  mode : r.1.mode = s.mode
  arrivals : r.1.arrivals = s.arrivals
  woken : ∀ t ∈ rest, t ∈ r.1.ready
  change : ∃ f woken, (∀ d, (f d).id = d.id ∧ (f d).cancelled = d.cancelled) ∧
    Move s.counters c (f c) woken r.1.counters r.2 ∧
    r.1.clients = (s.update c.id f).clients ∧
    r.1.ready = (({ s with ready := rest } : Server).wakeIf woken (.advance c.id)).ready

/-- The task of a connection leaves it advanced. -/
theorem advanced_run (hc : s.find? id = some c) (hcancelled : c.cancelled = false)
    (rest : List Task) :
    Advanced s rest c (Server.run { s with ready := rest } (.advance id)) := by
  obtain rfl : c.id = id := id_of_find? hc
  obtain ⟨f, woken, k, hf, hmove, hresult⟩ :=
    moves_advance (s := { s with ready := rest }) hc hcancelled
  have hrun : Server.run { s with ready := rest } (.advance c.id) =
      ({ s with ready := rest } : Server).advance c.id := rfl
  rw [hrun]
  cases woken with
  | false =>
    have hresult' : (({ s with ready := rest } : Server).advance c.id).1 =
        { ({ s with ready := rest } : Server).update c.id f with counters := k } := hresult
    refine ⟨?_, ?_, ?_, f, false, hf, ?_, ?_, ?_⟩
    · rw [hresult']
      rfl
    · rw [hresult']
      rfl
    · rw [hresult']
      exact fun t ht => ht
    · rw [hresult']
      exact hmove
    · rw [hresult']
      rfl
    · rw [hresult']
      rfl
  | true =>
    have hresult' : (({ s with ready := rest } : Server).advance c.id).1 =
        ({ ({ s with ready := rest } : Server).update c.id f with
          counters := k } : Server).wake (.advance c.id) := hresult
    refine ⟨?_, ?_, ?_, f, true, hf, ?_, ?_, ?_⟩
    · rw [hresult', mode_wake]
      rfl
    · rw [hresult', arrivals_wake]
      rfl
    · rw [hresult']
      exact fun t ht => mem_ready_wake_iff.2 (Or.inr ht)
    · rw [hresult', counters_wake]
      exact hmove
    · rw [hresult', clients_wake]
      rfl
    · have hready : ({ ({ s with ready := rest } : Server).update c.id f with
          counters := k } : Server).ready = ({ s with ready := rest } : Server).ready := rfl
      rw [hresult']
      exact ready_wake_congr hready _

theorem run_unknown (hc : s.find? id = none) (rest : List Task) :
    Server.run { s with ready := rest } (.advance id) = ({ s with ready := rest }, []) := by
  show ({ s with ready := rest } : Server).advance id = _
  rw [advance, show ({ s with ready := rest } : Server).find? id = none from hc]

/-- The listener takes an arrival: the connection is served from now on. -/
theorem take_client (hc : s.find? id = some c) :
    s.take (.client id) =
      ((s.update id fun d => { d with stage := .requesting .fresh }).wake (.advance id),
        [.logged (.connected c.peer)]) := by
  rw [take, hc]

theorem take_unknown (hc : s.find? id = none) : s.take (.client id) = (s, []) := by
  rw [take, hc]

theorem cancelled_update {f : Client → Client} (hf : ∀ d, (f d).cancelled = d.cancelled)
    (h : ∀ c ∈ s.clients, c.cancelled = false) :
    ∀ c ∈ (s.update id f).clients, c.cancelled = false := by
  intro c hc
  rw [update] at hc
  obtain ⟨d, hd, rfl⟩ := List.mem_map.1 hc
  split
  · exact (hf d).trans (h d hd)
  · exact h d hd

/-- Whatever the listener takes, the server listens on. -/
theorem each_take_keeps (arrivals : List Arrival) (s : Server) :
    (each take s arrivals).1.mode = s.mode ∧ (each take s arrivals).1.ids = s.ids ∧
      (each take s arrivals).1.arrivals = s.arrivals ∧
      (each take s arrivals).1.counters = s.counters ∧
      ((∀ c ∈ s.clients, c.cancelled = false) →
        ∀ c ∈ (each take s arrivals).1.clients, c.cancelled = false) := by
  induction arrivals generalizing s with
  | nil => exact ⟨rfl, rfl, rfl, rfl, fun h => h⟩
  | cons a rest ih =>
    rw [each_cons]
    cases a with
    | failure cause => exact ih s
    | client id =>
      cases hc : s.find? id with
      | none =>
        rw [take_unknown hc]
        exact ih s
      | some c =>
        rw [take_client hc]
        obtain ⟨hmode, hids, harrivals, hcounters, hkept⟩ :=
          ih ((s.update id fun d => { d with stage := .requesting .fresh }).wake (.advance id))
        refine ⟨?_, ?_, ?_, ?_, fun h => hkept ?_⟩
        · rw [hmode, mode_wake, mode_update]
        · rw [hids, ids_wake]
          exact ids_update fun d hd => hd
        · rw [harrivals, arrivals_wake, arrivals_update]
        · rw [hcounters, counters_wake]
          rfl
        · rw [clients_wake]
          exact cancelled_update (fun d => rfl) h

/-- What was not served is served from the start; the listener changes nothing else about a
connection. -/
theorem map_each_take {β : Type} (f : Client → β)
    (hf : ∀ c, c.stage = .arriving ∨ c.stage = .requesting .fresh →
      f { c with stage := .requesting .fresh } = f c)
    (arrivals : List Arrival) {s : Server} (hnodup : s.ids.Nodup)
    (harriving : ∀ id, .client id ∈ arrivals → ∀ c, s.find? id = some c →
      c.stage = .arriving ∨ c.stage = .requesting .fresh) :
    (each take s arrivals).1.clients.map f = s.clients.map f := by
  induction arrivals generalizing s with
  | nil => rfl
  | cons a rest ih =>
    have hrest : ∀ id, .client id ∈ rest → ∀ c, s.find? id = some c →
        c.stage = .arriving ∨ c.stage = .requesting .fresh :=
      fun id hid => harriving id (List.mem_cons_of_mem _ hid)
    rw [each_cons]
    cases a with
    | failure cause => exact ih hnodup hrest
    | client id =>
      cases hc : s.find? id with
      | none =>
        rw [take_unknown hc]
        exact ih hnodup hrest
      | some c =>
        have hids : ∀ d : Client, d.id = id → ({ d with stage := .requesting .fresh } : Client).id =
            id := fun d hd => hd
        rw [take_client hc]
        refine (ih (by rw [ids_wake, ids_update hids]; exact hnodup) ?_).trans ?_
        · intro other hother d hd
          rw [find?_wake, find?_update hids] at hd
          cases hfind : s.find? other with
          | none =>
            rw [hfind] at hd
            cases hd
          | some e =>
            rw [hfind] at hd
            cases hd
            split
            · exact Or.inr rfl
            · exact hrest other hother e hfind
        · obtain ⟨front, back, hclients, hupdate⟩ := exists_update_eq hnodup hc
          have hsame := hf c (harriving id List.mem_cons_self c hc)
          rw [clients_wake, hupdate, hclients, List.map_append, List.map_append, List.map_cons,
            List.map_cons, hsame]

/-- What the listener takes has not been served. -/
theorem Listening.arriving_stage (h : Listening s) :
    ∀ id, .client id ∈ s.arrivals → ∀ c, s.find? id = some c →
      c.stage = .arriving ∨ c.stage = .requesting .fresh := by
  intro id hid c hc
  obtain ⟨d, hd, hstage⟩ := h.arriving id hid
  rw [hc] at hd
  cases hd
  exact Or.inl hstage

theorem Listening.find?_cancelled (h : Listening s) (hc : s.find? id = some c) :
    c.cancelled = false := h.kept c (mem_of_find? hc)

/-- A move of one connection leaves the arrivals as they are. -/
theorem Move.arriving {woken : Bool} {k k' : Counters} (h : Move k c c' woken k' effects)
    (hstage : c.stage = .arriving) : c'.stage = .arriving := by
  cases h with
  | idle => exact hstage
  | served h' | began h' | read h' | gaveUp h' =>
    rw [hstage] at h'
    cases h'

theorem Listening.run (h : Listening s) {t : Task} {rest : List Task} (hready : s.ready = t :: rest) :
    Listening (Server.run { s with ready := rest } t).1 := by
  cases t with
  | accept =>
    obtain ⟨hmode, hids, harrivals, _, hkept⟩ :=
      each_take_keeps s.arrivals { s with ready := rest, arrivals := [] }
    constructor
    · exact hmode.trans h.mode
    · show (each take _ _).1.ids.Nodup
      rw [hids]
      exact h.nodup
    · exact hkept h.kept
    · intro id hid
      rw [show (Server.run { s with ready := rest } .accept).1.arrivals = [] from harrivals] at hid
      cases hid
    · exact fun hne => absurd harrivals hne
  | advance id =>
    have hwoken : s.arrivals ≠ [] → .accept ∈ rest := by
      intro hne
      have hmem := h.woken hne
      rw [hready] at hmem
      rcases List.mem_cons.1 hmem with heq | hmem
      · cases heq
      · exact hmem
    cases hc : s.find? id with
    | none =>
      rw [run_unknown hc]
      exact ⟨h.mode, h.nodup, h.kept, h.arriving, hwoken⟩
    | some c =>
      obtain ⟨hmode, harrivals, hrest, f, woken, hf, hmove, hclients, _⟩ :=
        advanced_run hc (h.find?_cancelled hc) rest
      obtain rfl : c.id = id := id_of_find? hc
      have hids : ∀ d, d.id = c.id → (f d).id = c.id := fun d hd => ((hf d).1).trans hd
      constructor
      · exact hmode.trans h.mode
      · rw [ids, hclients]
        show (s.update c.id f).ids.Nodup
        rw [ids_update hids]
        exact h.nodup
      · rw [hclients]
        exact cancelled_update (fun d => (hf d).2) h.kept
      · intro other hother
        rw [harrivals] at hother
        obtain ⟨d, hd, hstage⟩ := h.arriving other hother
        rw [find?, hclients]
        show ∃ e, (s.update c.id f).find? other = some e ∧ _
        by_cases heq : other = c.id
        · rw [heq, hc] at hd
          cases hd
          rw [heq, find?_update_self hids hc]
          exact ⟨f c, rfl, hmove.arriving hstage⟩
        · rw [find?_update_of_ne hids heq]
          exact ⟨d, hd, hstage⟩
      · intro hne
        rw [harrivals] at hne
        exact hrest _ (hwoken hne)

end Server

end WebSocketEcho
