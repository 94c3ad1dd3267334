import WebSocketEcho.Proofs.Server.Draining
import WebSocketEcho.Proofs.Server.Isolation

/-!
# What every server keeps

What holds of a server of either kind, with or without cancelled sessions.  `occurs_acted` says what
an action does, `turned_run` what the task of a connection does and leaves behind, and `Sound` is
kept by both: no task is in the queue twice, and where a session is to begin or has something to
read, its task is in the queue.
-/

namespace WebSocketEcho

namespace Client

/-- A connection as it comes in. -/
def newcomer (mode : Mode) (id : String) (peer : SocketAddress) : Client :=
  match mode with
  | .sessions => .fresh id peer
  | .http => ⟨id, peer, .fresh, .arriving, false⟩

theorem id_newcomer (mode : Mode) (id : String) (peer : SocketAddress) :
    (newcomer mode id peer).id = id := by
  cases mode <;> rfl

theorem cancelled_newcomer (mode : Mode) (id : String) (peer : SocketAddress) :
    (newcomer mode id peer).cancelled = false := by
  cases mode <;> rfl

/-- A session is to begin on the connection, or to be stopped, or has something to read. -/
def IsStirred (c : Client) : Prop :=
  match c.stage with
  | .starting _ => True
  | .echoing _ => c.cancelled = true ∨ c.wire ≠ .fresh
  | .arriving | .requesting _ | .abandoned | .ended => False

theorem stage_of_isStirred {c : Client} (h : c.IsStirred) :
    c.stage ≠ .arriving ∧ c.stage ≠ .ended := by
  unfold IsStirred at h
  constructor <;> intro hstage <;> rw [hstage] at h <;> exact h

end Client

namespace Server

variable {s s' : Server} {id : String} {c c' : Client} {k k' : Counters} {woken : Bool}
  {effects : List Effect}

/-! ## What an action does -/

/-- What an action does to a server, before it runs. -/
inductive Occurs (s : Server) (a : Action) : Server → Prop where
  /-- The action cannot be done. -/
  | nothing : Occurs s a s
  | came {id : String} (peer : SocketAddress) (ha : a.target? = some id)
      (hid : s.find? id = none) : Occurs s a (s.connect id peer)
  | failed (ha : a.target? = none) : Occurs s a
      (({ s with arrivals := s.arrivals ++ [.failure .tooManyOpenFiles] } : Server).wake .accept)
  /-- Bytes are sent, or the client goes, or its session is to be stopped. -/
  | touched {id : String} {c : Client} (ha : a.target? = some id) (hc : s.find? id = some c)
      (w : Wire) (cancelled : Bool)
      (habort : cancelled = c.cancelled ∨ cancelled = true ∧ s.mode = .sessions ∧ a = .abort id) :
      Occurs s a (s.touch { c with wire := w, cancelled })

theorem occurs_acted (s : Server) (a : Action) : s.Occurs a (s.acted a) := by
  have honLive : ∀ id (f : Client → Client), a.target? = some id → s.act a = s.onLive id f →
      (∀ c, ∃ w cancelled, f c = { c with wire := w, cancelled } ∧
        (cancelled = c.cancelled ∨ cancelled = true ∧ s.mode = .sessions ∧ a = .abort id)) →
      s.Occurs a (s.acted a) := by
    intro id f ha hact hf
    cases hlive : s.live? id with
    | none =>
      rw [acted, hact, onLive, hlive]
      exact .nothing
    | some c =>
      obtain ⟨w, cancelled, hfc, habort⟩ := hf c
      rw [acted, hact, onLive, hlive]
      dsimp only
      rw [hfc]
      exact .touched ha (find?_of_live? hlive) w cancelled habort
  cases a with
  | connect id peer =>
    rw [acted, act]
    cases hid : s.find? id with
    | none => exact .came peer rfl hid
    | some c => exact .nothing
  | send id bytes => exact honLive id _ rfl rfl fun c => ⟨_, _, rfl, Or.inl rfl⟩
  | finish id | vanish id | reset id =>
    exact honLive id _ rfl rfl fun c => ⟨_, _, rfl, Or.inl rfl⟩
  | abort id =>
    cases hmode : s.mode with
    | sessions =>
      have hact : s.act (.abort id) = s.onLive id fun c => { c with cancelled := true } := by
        rw [act, hmode]
      exact honLive id _ rfl hact fun c => ⟨c.wire, true, rfl, Or.inr ⟨rfl, hmode, rfl⟩⟩
    | http =>
      rw [acted, act, hmode, onLive]
      cases s.live? id <;> exact .nothing
  | failAccept =>
    cases hact : s.act .failAccept with
    | error p =>
      rw [acted_of_error hact]
      exact .nothing
    | ok s' =>
      rw [acted_of_ok hact]
      rw [act] at hact
      split at hact
      · cases hact
      · cases hact
        exact .failed rfl

theorem find?_connect_newcomer (hid : s.find? id = none) (peer : SocketAddress) (other : String) :
    (s.connect id peer).find? other =
      if other = id then some (.newcomer s.mode id peer) else s.find? other := by
  cases hmode : s.mode with
  | sessions => exact find?_connect hmode hid peer other
  | http => exact find?_connect_of_http hmode hid peer other

theorem clients_connect (s : Server) (id : String) (peer : SocketAddress) :
    (s.connect id peer).clients = s.clients ++ [.newcomer s.mode id peer] := by
  cases hmode : s.mode with
  | sessions =>
    rw [connect_of_sessions hmode, clients_wake]
    rfl
  | http =>
    rw [connect_of_http hmode, clients_wake]
    rfl

theorem counters_connect (s : Server) (id : String) (peer : SocketAddress) :
    (s.connect id peer).counters = s.counters := by
  cases hmode : s.mode with
  | sessions => rw [connect_of_sessions hmode, counters_wake]
  | http => rw [connect_of_http hmode, counters_wake]

theorem mode_connect (s : Server) (id : String) (peer : SocketAddress) :
    (s.connect id peer).mode = s.mode := by
  cases hmode : s.mode with
  | sessions => rw [connect_of_sessions hmode, mode_wake, hmode]
  | http => rw [connect_of_http hmode, mode_wake, hmode]

/-- A new connection wakes one task, its own if a session is to begin on it. -/
theorem ready_connect (s : Server) (id : String) (peer : SocketAddress) :
    ∃ (s₁ : Server) (t : Task), s.connect id peer = s₁.wake t ∧ s₁.ready = s.ready ∧
      ((Client.newcomer s.mode id peer).IsStirred → t = .advance id) := by
  cases hmode : s.mode with
  | sessions => exact ⟨_, _, connect_of_sessions hmode id peer, rfl, fun _ => rfl⟩
  | http => exact ⟨_, _, connect_of_http hmode id peer, rfl, fun h => h.elim⟩

/-- Nothing is counted before the server runs. -/
theorem Occurs.counters_eq {a : Action} (h : s.Occurs a s') : s'.counters = s.counters := by
  cases h with
  | nothing => rfl
  | came peer => exact counters_connect s _ peer
  | failed => exact counters_wake _ _
  | touched _ _ w => exact counters_touch s _

theorem Occurs.mode_eq {a : Action} (h : s.Occurs a s') : s'.mode = s.mode := by
  cases h with
  | nothing => rfl
  | came peer => exact mode_connect s _ peer
  | failed => exact mode_wake _ _
  | touched _ _ w => exact mode_touch s _

/-- What is done on other connections leaves a connection as it is, and in the queue and at the
listener if it was there. -/
theorem Occurs.others {a : Action} (h : s.Occurs a s') (ha : a.target? ≠ some id) :
    s'.find? id = s.find? id ∧ (∀ t ∈ s.ready, t ∈ s'.ready) ∧
      ∀ arrival ∈ s.arrivals, arrival ∈ s'.arrivals := by
  cases h with
  | nothing => exact ⟨rfl, fun _ h => h, fun _ h => h⟩
  | @came other peer ha' hid =>
    have hne : id ≠ other := by
      rintro rfl
      exact ha ha'
    obtain ⟨s₁, t, hconnect, hready, _⟩ := s.ready_connect other peer
    refine ⟨?_, fun u hu => ?_, fun arrival harrival => ?_⟩
    · rw [find?_connect_newcomer hid, if_neg hne]
    · rw [hconnect]
      exact mem_ready_wake_iff.2 (Or.inr (hready ▸ hu))
    · cases hmode : s.mode with
      | sessions =>
        rw [connect_of_sessions hmode, arrivals_wake]
        exact harrival
      | http =>
        rw [connect_of_http hmode, arrivals_wake]
        exact List.mem_append_left _ harrival
  | failed =>
    refine ⟨find?_wake _ _ id, fun t ht => mem_ready_wake_iff.2 (Or.inr ht), fun arrival h => ?_⟩
    rw [arrivals_wake]
    exact List.mem_append_left _ h
  | @touched other c ha' hc w cancelled =>
    have hne : id ≠ c.id := by
      rw [id_of_find? hc]
      rintro rfl
      exact ha ha'
    refine ⟨?_, fun t ht => mem_ready_touch_of_mem ht, fun arrival h => ?_⟩
    · rw [find?_touch]
      simp [hne]
    · rw [arrivals_touch]
      exact h

/-! ## What a task does -/

/-- What the task of a connection can do, also to one whose session was cancelled. -/
inductive Turned (k : Counters) (c : Client) : Client → Bool → Counters → List Effect → Prop where
  | moved {c' : Client} {woken : Bool} {k' : Counters} {effects : List Effect}
      (hcancelled : c.cancelled = false) (h : Move k c c' woken k' effects) :
      Turned k c c' woken k' effects
  /-- The session is over. -/
  | rested (hcancelled : c.cancelled = true) (h : c.stage = .ended) : Turned k c c false k []
  | stopped {session : Session} (hcancelled : c.cancelled = true) (h : c.stage = .echoing session) :
      Turned k c { c with stage := .ended } false k.leave [.passed (.left c.id), .closed c.id]
  /-- The session has not begun, and never will. -/
  | dropped (hcancelled : c.cancelled = true) (h : c.isEchoing = false) (h' : c.stage ≠ .ended) :
      Turned k c { c with stage := .ended } false k [.closed c.id]

/-- The task of a connection gives it a turn, and does nothing else. -/
theorem turned_advance (hc : s.find? id = some c) :
    ∃ f woken k, (∀ d, (f d).id = d.id) ∧
      Turned s.counters c (f c) woken k (s.advance id).2 ∧
      (s.advance id).1 =
        ({ s.update id f with counters := k } : Server).wakeIf woken (.advance id) := by
  obtain rfl : c.id = id := id_of_find? hc
  cases hcancelled : c.cancelled with
  | false =>
    obtain ⟨f, woken, k, hf, hmove, hresult⟩ := moves_advance hc hcancelled
    exact ⟨f, woken, k, fun d => (hf d).1, .moved hcancelled hmove, hresult⟩
  | true =>
    have hidle : s.update c.id (fun d => d) = s := by simp [update]
    have hcancel : s.advance c.id = s.cancel c := by
      rw [advance, hc]
      dsimp only
      rw [if_pos hcancelled]
    rw [hcancel, cancel]
    cases hstage : c.stage with
    | ended =>
      refine ⟨fun d => d, false, s.counters, fun d => rfl, .rested hcancelled hstage, ?_⟩
      rw [hidle]
      rfl
    | echoing session =>
      exact ⟨fun d => { d with stage := .ended }, false, s.counters.leave, fun d => rfl,
        .stopped hcancelled hstage, rfl⟩
    | arriving | requesting | starting | abandoned =>
      refine ⟨fun d => { d with stage := .ended }, false, s.counters, fun d => rfl,
        .dropped hcancelled ?_ ?_, rfl⟩
      · rw [Client.isEchoing, hstage]
      · rw [hstage]
        exact Stage.noConfusion

/-- A connection that was not cancelled moves. -/
theorem Turned.move (h : Turned k c c' woken k' effects) (hcancelled : c.cancelled = false) :
    Move k c c' woken k' effects := by
  cases h with
  | moved _ h => exact h
  | rested h | stopped h | dropped h =>
    rw [hcancelled] at h
    cases h

theorem Turned.cancelled_eq (h : Turned k c c' woken k' effects) : c'.cancelled = c.cancelled := by
  cases h with
  | moved _ h => cases h <;> rfl
  | rested | stopped | dropped => rfl

/-- The task of a session is not woken by itself. -/
theorem Turned.not_woken (h : Turned k c c' woken k' effects) (hsession : c.IsSession) :
    woken = false := by
  cases h with
  | moved _ h =>
    cases h with
    | idle | began | read | gaveUp => rfl
    | served hstage => simp [Client.IsSession, hstage] at hsession
  | rested | stopped | dropped => rfl

theorem Turned.isSession (h : Turned k c c' woken k' effects) (hsession : c.IsSession) :
    c'.IsSession := by
  cases h with
  | moved _ h =>
    cases h with
    | idle => exact hsession
    | served hstage | gaveUp hstage => simp [Client.IsSession, hstage] at hsession
    | began | read =>
      rename_i r _ _
      obtain ⟨reactions, progress⟩ := r
      cases progress <;> trivial
  | rested => exact hsession
  | stopped | dropped => trivial

/-- A session that has had its turn waits for more. -/
theorem not_isStirred_of_poll {session : Session} {w : Wire} {r : List Reaction × Progress}
    (hcancelled : c.cancelled = false) (hpoll : session.poll w = r) :
    ¬ ({ c with wire := { w with unread := [] }, stage := stageOf r } : Client).IsStirred := by
  obtain ⟨reactions, progress⟩ := r
  cases progress with
  | ended o => exact fun h => h
  | waiting t =>
    have hpresent : w.state = .present := Session.state_of_poll_waiting hpoll
    rintro (h | h)
    · rw [hcancelled] at h
      cases h
    · exact h (by rw [hpresent]; rfl)

/-- A connection that is stirred behind its turn is woken. -/
theorem Turned.woken_of_isStirred (h : Turned k c c' woken k' effects) (hstirred : c'.IsStirred) :
    woken = true := by
  cases h with
  | moved hcancelled h =>
    cases h with
    | idle hstage =>
      unfold Client.IsStirred at hstirred
      rcases hstage with hstage | hstage <;> rw [hstage] at hstirred <;> exact hstirred.elim
    | served hstage hpoll =>
      rename_i standing _
      cases standing with
      | switched leftover => rfl
      | paused d => rfl
      | abandoned fault => rfl
      | waiting | closed => exact hstirred.elim
    | began _ hpoll => exact absurd hstirred (not_isStirred_of_poll hcancelled hpoll)
    | read _ hpoll => exact absurd hstirred (not_isStirred_of_poll hcancelled hpoll)
    | gaveUp => exact hstirred.elim
  | rested _ hstage =>
    unfold Client.IsStirred at hstirred
    rw [hstage] at hstirred
    exact hstirred.elim
  | stopped | dropped => exact hstirred.elim

/-- A turn leaves what has not been taken by the listener where it is. -/
theorem Turned.arriving (h : Turned k c c' woken k' effects) (hcancelled : c.cancelled = false)
    (hstage : c.stage = .arriving) : c'.stage = .arriving :=
  (h.move hcancelled).arriving hstage

/-! ### What is counted -/

theorem counters_wakeIf (s : Server) (woken : Bool) (t : Task) :
    (s.wakeIf woken t).counters = s.counters := by
  cases woken with
  | false => rfl
  | true => exact counters_wake s t

theorem passages_deeds (c : Client) (deeds : List Http.Deed) :
    passages (deeds.flatMap (deedEffects c)) = [] := by
  induction deeds with
  | nil => rfl
  | cons d rest ih =>
    rw [List.flatMap_cons, passages_append, ih]
    cases d with
    | write bytes => rfl
    | handle r =>
      rw [deedEffects, List.append_nil, passages_logged]
      cases Service.refusal? r <;> rfl

theorem passages_standing (c : Client) (standing : Http.Standing) :
    passages (standing.effects c) = [] := by
  cases standing with
  | closed fault => cases fault <;> rfl
  | waiting | paused | switched | abandoned => rfl

/-- A reading passes out who ends in it. -/
theorem passages_told (k : Counters) (id : String) (peer : SocketAddress)
    (r : List Reaction × Progress) :
    passages (told k id peer r) =
      match r.2 with
      | .waiting _ => []
      | .ended _ => [.left id] := by
  obtain ⟨reactions, progress⟩ := r
  rw [told, passages_append, passages_reactions]
  cases progress <;> rfl

theorem foldl_passages_told (k : Counters) (id : String) (peer : SocketAddress)
    (r : List Reaction × Progress) :
    (passages (told k id peer r)).foldl Passage.count k = counted k r := by
  rw [passages_told]
  obtain ⟨reactions, progress⟩ := r
  cases progress <;> rfl

/-- The counters follow the passages of a turn. -/
theorem Turned.counters_eq (h : Turned k c c' woken k' effects) :
    k' = (passages effects).foldl Passage.count k := by
  cases h with
  | moved _ h =>
    cases h with
    | idle => rfl
    | served => rw [passages_append, passages_deeds, passages_standing]; rfl
    | began =>
      rw [shown, passages_passed, passages_logged, List.foldl_cons]
      exact (foldl_passages_told k.enter c.id c.peer _).symm
    | read => exact (foldl_passages_told k c.id c.peer _).symm
    | gaveUp => rfl
  | rested | stopped | dropped => rfl

theorem passages_take (arrivals : List Arrival) (s : Server) :
    passages (each take s arrivals).2 = [] := by
  refine List.filterMap_eq_nil_iff.2 fun e he => ?_
  have howner := owner?_of_mem_accept he
  cases e with
  | passed p => cases howner
  | wrote | closed | logged => rfl

/-- The counters follow the passages of a task. -/
theorem counters_run (s : Server) (t : Task) :
    (s.run t).1.counters = (passages (s.run t).2).foldl Passage.count s.counters := by
  cases t with
  | accept =>
    show (each take _ s.arrivals).1.counters = (passages (each take _ s.arrivals).2).foldl _ _
    rw [passages_take]
    exact (each_take_keeps s.arrivals { s with arrivals := [] }).2.2.2.1
  | advance id =>
    show (s.advance id).1.counters = (passages (s.advance id).2).foldl _ _
    cases hc : s.find? id with
    | none =>
      rw [advance, hc]
      rfl
    | some c =>
      obtain ⟨f, woken, k, _, hturned, hresult⟩ := turned_advance hc
      rw [hresult, counters_wakeIf]
      exact hturned.counters_eq

/-! ## The invariant -/

/-- What holds of every server at every moment of a run. -/
structure Sound (s : Server) : Prop where
  nodup : s.ids.Nodup
  queue : s.ready.Nodup
  uncancelled : s.mode = .http → ∀ id c, s.find? id = some c → c.cancelled = false
  /-- Nothing has been done with what has come in at the listener. -/
  arriving : ∀ id, .client id ∈ s.arrivals →
    s.mode = .http ∧ ∃ c, s.find? id = some c ∧ c.stage = .arriving
  stirred : ∀ id c, s.find? id = some c → c.IsStirred → .advance id ∈ s.ready

theorem sound_empty (mode : Mode) : Sound (empty mode) where
  nodup := List.nodup_nil
  queue := List.nodup_nil
  uncancelled := fun _ _ _ h => by cases h
  arriving := fun _ h => by cases h
  stirred := fun _ _ h => by cases h

theorem Sound.connect (h : Sound s) (hid : s.find? id = none) (peer : SocketAddress) :
    Sound (s.connect id peer) := by
  have hfind := find?_connect_newcomer hid peer
  obtain ⟨s₁, t, hconnect, hready, hwoken⟩ := s.ready_connect id peer
  constructor
  · rw [ids, clients_connect, List.map_append]
    refine List.nodup_append.2 ⟨h.nodup, List.nodup_singleton _, fun a ha b hb hab => ?_⟩
    have hb : b = id := (List.mem_singleton.1 hb).trans (Client.id_newcomer s.mode id peer)
    rw [hab, hb] at ha
    exact find?_eq_none_iff.1 hid ha
  · rw [hconnect]
    exact nodup_ready_wake (by rw [hready]; exact h.queue) t
  · intro hmode other c hc
    rw [mode_connect] at hmode
    rw [hfind] at hc
    split at hc
    · cases hc
      exact Client.cancelled_newcomer _ _ _
    · exact h.uncancelled hmode other c hc
  · intro other hother
    rw [mode_connect, hfind]
    cases hmode : s.mode with
    | sessions =>
      rw [connect_of_sessions hmode, arrivals_wake] at hother
      have hhttp := (h.arriving other hother).1
      rw [hmode] at hhttp
      cases hhttp
    | http =>
      refine ⟨rfl, ?_⟩
      rw [connect_of_http hmode, arrivals_wake] at hother
      by_cases heq : other = id
      · exact ⟨_, if_pos heq, rfl⟩
      · rw [if_neg heq]
        rcases List.mem_append.1 hother with hother | hother
        · exact (h.arriving other hother).2
        · exact absurd (Arrival.client.inj (List.mem_singleton.1 hother)) heq
  · intro other c hc hstirred
    rw [hfind] at hc
    rw [hconnect]
    refine mem_ready_wake_iff.2 ?_
    split at hc
    · rename_i heq
      cases hc
      rw [heq]
      exact Or.inl (hwoken hstirred).symm
    · rw [hready]
      exact Or.inr (h.stirred other c hc hstirred)

theorem Sound.touch (h : Sound s) (hc : s.find? id = some c) (w : Wire) {cancelled : Bool}
    (habort : cancelled = c.cancelled ∨ s.mode = .sessions) :
    Sound (s.touch { c with wire := w, cancelled }) := by
  obtain rfl : c.id = id := id_of_find? hc
  have hfind : ∀ other, (s.touch { c with wire := w, cancelled }).find? other =
      if other = c.id then some { c with wire := w, cancelled } else s.find? other := by
    intro other
    rw [find?_touch]
    split
    · rename_i heq
      rw [heq, hc]
      rfl
    · cases s.find? other <;> rfl
  constructor
  · rw [ids_touch]
    exact h.nodup
  · exact nodup_ready_touch h.queue _
  · intro hmode other d hd
    rw [mode_touch] at hmode
    rw [hfind] at hd
    split at hd
    · cases hd
      rcases habort with habort | habort
      · exact habort.trans (h.uncancelled hmode c.id c hc)
      · rw [hmode] at habort
        cases habort
    · exact h.uncancelled hmode other d hd
  · intro other hother
    rw [arrivals_touch] at hother
    obtain ⟨hmode, d, hd, hstage⟩ := h.arriving other hother
    rw [mode_touch, hfind]
    refine ⟨hmode, ?_⟩
    by_cases heq : other = c.id
    · rw [heq, hc] at hd
      cases hd
      exact ⟨_, if_pos heq, hstage⟩
    · exact ⟨d, (if_neg heq).trans hd, hstage⟩
  · intro other d hd hstirred
    rw [hfind] at hd
    split at hd
    · rename_i heq
      cases hd
      obtain ⟨harriving, hended⟩ := Client.stage_of_isStirred hstirred
      rw [heq]
      exact mem_ready_touch_iff.2 (Or.inr ⟨rfl, harriving, hended⟩)
    · exact mem_ready_touch_of_mem (h.stirred other d hd hstirred)

theorem Sound.acted (h : Sound s) (a : Action) : Sound (s.acted a) := by
  have hoccurs := s.occurs_acted a
  generalize s.acted a = s' at hoccurs
  cases hoccurs with
  | nothing => exact h
  | came peer _ hid => exact h.connect hid peer
  | failed =>
    constructor
    · rw [ids_wake]
      exact h.nodup
    · refine nodup_ready_wake ?_ _
      exact h.queue
    · intro hmode id c hc
      rw [mode_wake] at hmode
      rw [find?_wake] at hc
      exact h.uncancelled hmode id c hc
    · intro id hid
      simp only [arrivals_wake, List.mem_append, List.mem_singleton, reduceCtorEq,
        or_false] at hid
      rw [mode_wake, find?_wake]
      exact h.arriving id hid
    · intro id c hc hstirred
      rw [find?_wake] at hc
      exact mem_ready_wake_iff.2 (Or.inr (h.stirred id c hc hstirred))
  | touched _ hc w cancelled habort => exact h.touch hc w (habort.imp_right fun h => h.2.1)

/-! ### The listener -/

/-- What the listener does to one connection that it takes. -/
theorem find?_take (s : Server) (a : Arrival) (other : String) :
    (s.take a).1.find? other =
      (s.find? other).map fun c =>
        if a = .client other then { c with stage := .requesting .fresh } else c := by
  cases a with
  | failure cause => simp [take]
  | client id =>
    cases hc : s.find? id with
    | none =>
      rw [take_unknown hc]
      by_cases heq : other = id
      · rw [heq, hc]
        rfl
      · have hne : (Arrival.client id) ≠ .client other := fun h => heq (Arrival.client.inj h).symm
        simp [hne]
    | some c =>
      rw [take_client hc, find?_wake]
      refine (find?_update (f := fun d => { d with stage := .requesting .fresh })
        (fun d hd => hd) other).trans ?_
      congr 1
      funext d
      by_cases heq : other = id
      · rw [if_pos heq, if_pos (by rw [heq])]
      · rw [if_neg heq, if_neg fun h => heq (Arrival.client.inj h).symm]

/-- The listener changes the connections that it takes, and no others. -/
theorem find?_each_take (arrivals : List Arrival) (s : Server) (other : String) :
    (each take s arrivals).1.find? other =
      (s.find? other).map fun c =>
        if .client other ∈ arrivals then { c with stage := .requesting .fresh } else c := by
  induction arrivals generalizing s with
  | nil => simp [each]
  | cons a rest ih =>
    rw [each_cons, ih, find?_take, Option.map_map]
    congr 1
    funext c
    simp only [Function.comp_apply, List.mem_cons, eq_comm (a := a)]
    by_cases hfirst : Arrival.client other = a
    · rw [if_pos hfirst, if_pos (Or.inl hfirst)]
      split <;> rfl
    · rw [if_neg hfirst]
      simp [hfirst]

/-- The listener wakes those that it takes, each once. -/
theorem ready_each_take (arrivals : List Arrival) {s : Server} (hqueue : s.ready.Nodup) :
    (each take s arrivals).1.ready.Nodup ∧ (∀ t ∈ s.ready, t ∈ (each take s arrivals).1.ready) ∧
      ∀ other, .client other ∉ arrivals → .advance other ∈ (each take s arrivals).1.ready →
        .advance other ∈ s.ready := by
  induction arrivals generalizing s with
  | nil => exact ⟨hqueue, fun t ht => ht, fun other _ h => h⟩
  | cons a rest ih =>
    rw [each_cons]
    have htaken : (s.take a).1.ready.Nodup ∧ (∀ t ∈ s.ready, t ∈ (s.take a).1.ready) ∧
        ∀ other, .client other ≠ a → .advance other ∈ (s.take a).1.ready →
          .advance other ∈ s.ready := by
      cases a with
      | failure cause => exact ⟨hqueue, fun t ht => ht, fun other _ h => h⟩
      | client id =>
        cases hc : s.find? id with
        | none =>
          rw [take_unknown hc]
          exact ⟨hqueue, fun t ht => ht, fun other _ h => h⟩
        | some c =>
          rw [take_client hc]
          refine ⟨nodup_ready_wake (s := s.update id fun d => { d with
            stage := .requesting .fresh }) hqueue _,
            fun t ht => mem_ready_wake_iff.2 (Or.inr ht), ?_⟩
          intro other hne hmem
          rcases mem_ready_wake_iff.1 hmem with heq | hmem
          · exact absurd (congrArg Arrival.client (Task.advance.inj heq)) hne
          · exact hmem
    obtain ⟨hnodup, hkeep, honly⟩ := htaken
    obtain ⟨hnodup', hkeep', honly'⟩ := ih hnodup
    refine ⟨hnodup', fun t ht => hkeep' t (hkeep t ht), fun other hother hmem => ?_⟩
    exact honly other (fun heq => hother (heq ▸ List.mem_cons_self))
      (honly' other (fun h => hother (List.mem_cons_of_mem _ h)) hmem)

/-- The listener wakes every connection that it takes. -/
theorem mem_ready_each_take {arrivals : List Arrival} (hin : .client id ∈ arrivals)
    (hqueue : s.ready.Nodup) (hc : s.find? id = some c) :
    .advance id ∈ (each take s arrivals).1.ready := by
  induction arrivals generalizing s c with
  | nil => cases hin
  | cons a rest ih =>
    have hnodup : (s.take a).1.ready.Nodup := (ready_each_take [a] hqueue).1
    rw [each_cons]
    rcases List.mem_cons.1 hin with rfl | hin
    · refine (ready_each_take rest hnodup).2.1 _ ?_
      rw [take_client hc]
      exact mem_ready_wake_iff.2 (Or.inl rfl)
    · obtain ⟨d, hd⟩ : ∃ d, (s.take a).1.find? id = some d := by
        rw [find?_take, hc]
        exact ⟨_, rfl⟩
      exact ih hin hnodup hd

/-! ### Tasks -/

/-- What the turn of the connection `c` leaves behind: it has become `c'`, and perhaps its task is
woken again. -/
structure Leaves (s : Server) (rest : List Task) (c c' : Client) (woken : Bool) (s' : Server) :
    Prop where
  mode : s'.mode = s.mode
  arrivals : s'.arrivals = s.arrivals
  clients : ∃ f : Client → Client, (∀ d, (f d).id = d.id) ∧ f c = c' ∧
    s'.clients = (s.update c.id f).clients
  ready : s'.ready = (({ s with ready := rest } : Server).wakeIf woken (.advance c.id)).ready

theorem turned_run (hc : s.find? id = some c) (rest : List Task) :
    ∃ c' woken, Turned s.counters c c' woken
        (Server.run { s with ready := rest } (.advance id)).1.counters
        (Server.run { s with ready := rest } (.advance id)).2 ∧
      Leaves s rest c c' woken (Server.run { s with ready := rest } (.advance id)).1 := by
  obtain rfl : c.id = id := id_of_find? hc
  obtain ⟨f, woken, k, hf, hturned, hresult⟩ := turned_advance (s := { s with ready := rest }) hc
  have hrun : Server.run { s with ready := rest } (.advance c.id) =
      ({ s with ready := rest } : Server).advance c.id := rfl
  rw [hrun]
  refine ⟨f c, woken, ?_, ?_⟩
  · rw [hresult]
    rw [counters_wakeIf]
    exact hturned
  · rw [hresult]
    cases woken with
    | false => exact ⟨rfl, rfl, ⟨f, hf, rfl, rfl⟩, rfl⟩
    | true =>
      have hready : ({ ({ s with ready := rest } : Server).update c.id f with
          counters := k } : Server).ready = ({ s with ready := rest } : Server).ready := rfl
      exact ⟨mode_wake _ _, arrivals_wake _ _, ⟨f, hf, rfl, clients_wake _ _⟩,
        ready_wake_congr hready _⟩

section Leaves

variable {rest : List Task}

theorem Leaves.ids_eq (h : Leaves s rest c c' woken s') : s'.ids = s.ids := by
  obtain ⟨f, hf, _, hclients⟩ := h.clients
  rw [ids, hclients]
  exact ids_update fun d hd => (hf d).trans hd

theorem Leaves.find?_eq (h : Leaves s rest c c' woken s') (hc : s.find? id = some c)
    (other : String) : s'.find? other = if other = id then some c' else s.find? other := by
  obtain rfl : c.id = id := id_of_find? hc
  obtain ⟨f, hf, rfl, hclients⟩ := h.clients
  rw [find?, hclients]
  exact find?_update_of_find? hf hc other

theorem Leaves.mem_ready_iff (h : Leaves s rest c c' woken s') {t : Task} :
    t ∈ s'.ready ↔ t ∈ rest ∨ woken = true ∧ t = .advance c.id := by
  rw [h.ready]
  cases woken with
  | false => simp [wakeIf]
  | true =>
    show t ∈ (({ s with ready := rest } : Server).wake _).ready ↔ _
    rw [mem_ready_wake_iff]
    simp only [true_and]
    exact or_comm

theorem Leaves.nodup_ready (h : Leaves s rest c c' woken s') (hrest : rest.Nodup) :
    s'.ready.Nodup := by
  rw [h.ready]
  cases woken with
  | false => exact hrest
  | true => exact nodup_ready_wake (s := { s with ready := rest }) hrest _

end Leaves

/-- The task that is run is not in the queue any more, and all others still are. -/
theorem Sound.queue_cons (h : Sound s) {t : Task} {rest : List Task}
    (hready : s.ready = t :: rest) :
    t ∉ rest ∧ rest.Nodup ∧ ∀ u ∈ s.ready, u ≠ t → u ∈ rest := by
  have hqueue := h.queue
  rw [hready, List.nodup_cons] at hqueue
  refine ⟨hqueue.1, hqueue.2, fun u hu hne => ?_⟩
  rw [hready] at hu
  exact (List.mem_cons.1 hu).resolve_left hne

theorem Sound.accept (h : Sound s) {rest : List Task} (hready : s.ready = .accept :: rest) :
    Sound (Server.run { s with ready := rest } .accept).1 := by
  show Sound (each take { s with ready := rest, arrivals := [] } s.arrivals).1
  obtain ⟨_, hrest, hothers⟩ := h.queue_cons hready
  have hfind := find?_each_take s.arrivals { s with ready := rest, arrivals := [] }
  obtain ⟨hnodup, hkeep, _⟩ := ready_each_take (s := { s with ready := rest, arrivals := [] })
    s.arrivals hrest
  obtain ⟨hmode, hids, harrivals, _⟩ :=
    each_take_keeps s.arrivals { s with ready := rest, arrivals := [] }
  constructor
  · rw [hids]
    exact h.nodup
  · exact hnodup
  · intro hhttp id c hc
    rw [hfind] at hc
    obtain ⟨d, hd, rfl⟩ := Option.map_eq_some_iff.1 hc
    have hd' := h.uncancelled (hmode.symm.trans hhttp) id d hd
    split <;> exact hd'
  · intro id hid
    rw [harrivals] at hid
    cases hid
  · intro id c hc hstirred
    rw [hfind] at hc
    obtain ⟨d, hd, rfl⟩ := Option.map_eq_some_iff.1 hc
    split at hstirred
    · exact hstirred.elim
    · exact hkeep _ (hothers _ (h.stirred id d hd hstirred) Task.noConfusion)

theorem Sound.leaves (h : Sound s) {rest : List Task} (hready : s.ready = .advance id :: rest)
    (hc : s.find? id = some c) (hturned : Turned k c c' woken k' effects)
    (hleaves : Leaves s rest c c' woken s') : Sound s' := by
  obtain rfl : c.id = id := id_of_find? hc
  obtain ⟨_, hrest, hothers⟩ := h.queue_cons hready
  have hfind := hleaves.find?_eq hc
  constructor
  · rw [hleaves.ids_eq]
    exact h.nodup
  · exact hleaves.nodup_ready hrest
  · intro hhttp other d hd
    have hkept := h.uncancelled (hleaves.mode.symm.trans hhttp)
    rw [hfind] at hd
    split at hd
    · cases hd
      exact hturned.cancelled_eq.trans (hkept c.id c hc)
    · exact hkept other d hd
  · intro other hother
    rw [hleaves.arrivals] at hother
    obtain ⟨hhttp, d, hd, hstage⟩ := h.arriving other hother
    refine ⟨hleaves.mode.trans hhttp, ?_⟩
    rw [hfind]
    by_cases heq : other = c.id
    · rw [heq, hc] at hd
      cases hd
      exact ⟨_, if_pos heq, hturned.arriving (h.uncancelled hhttp c.id c hc) hstage⟩
    · exact ⟨d, (if_neg heq).trans hd, hstage⟩
  · intro other d hd hstirred
    rw [hfind] at hd
    refine hleaves.mem_ready_iff.2 ?_
    split at hd
    · rename_i heq
      cases hd
      exact Or.inr ⟨hturned.woken_of_isStirred hstirred, by rw [heq]⟩
    · rename_i hne
      refine Or.inl (hothers _ (h.stirred other d hd hstirred) fun heq => ?_)
      exact hne (Task.advance.inj heq)

theorem Sound.run (h : Sound s) {t : Task} {rest : List Task} (hready : s.ready = t :: rest) :
    Sound (Server.run { s with ready := rest } t).1 := by
  cases t with
  | accept => exact h.accept hready
  | advance id =>
    cases hc : s.find? id with
    | none =>
      obtain ⟨_, hrest, hothers⟩ := h.queue_cons hready
      rw [run_unknown hc]
      refine ⟨h.nodup, hrest, h.uncancelled, h.arriving, fun other c hc' hstirred => ?_⟩
      refine hothers _ (h.stirred other c hc' hstirred) fun heq => ?_
      rw [Task.advance.inj heq] at hc'
      cases hc.symm.trans hc'
    | some c =>
      obtain ⟨c', woken, hturned, hleaves⟩ := turned_run hc rest
      exact h.leaves hready hc hturned hleaves

end Server

end WebSocketEcho
