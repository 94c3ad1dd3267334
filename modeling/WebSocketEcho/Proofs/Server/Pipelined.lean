import WebSocketEcho.Proofs.Http.Pipelining
import WebSocketEcho.Proofs.Server.HandOver
import WebSocketEcho.Proofs.Server.Moments
import WebSocketEcho.Proofs.Server.OpenSessions

/-!
# Every request of a row is answered

A client that sends inquiries one behind the other, in pieces cut anywhere, is answered each of
them once and in their order, whatever other clients do meanwhile, and its connection stays open
(`pipelined_answered`).

`Served` says which requests the effects so far have answered, and `Attends` how the server stands
to the client: what it has not answered is what is on the way or still to be sent.  Actions and
tasks of others leave both as they are, and the client's own task answers what has come whole.
-/

namespace WebSocketEcho.Server

open Http (Inquiry Expects Received Rests readResponse readResponses)

variable {s s' : Server} {id : String} {peer : SocketAddress} {c : Client} {k : Counters}
  {requests : List Inquiry} {answered : List (Inquiry × Counters)} {todo : List Action}
  {effects : List Effect} {past : List Stint}

/-! ## What has been answered -/

/-- The effects of a run in which these requests of a client were answered, each for the counters
that the log told at that moment, and nothing else was done on its connection. -/
inductive Served (id : String) : List (Inquiry × Counters) → List Effect → Prop where
  | nothing : Served id [] []
  | elsewhere {answered : List (Inquiry × Counters)} {effects : List Effect} {e : Effect}
      (h : Served id answered effects) (howner : e.owner? ≠ some id) :
      Served id answered (effects ++ [e])
  | answer {answered : List (Inquiry × Counters)} {effects : List Effect} (q : Inquiry)
      {k : Counters} (h : Served id answered effects)
      (hk : (logged effects).foldl Log.Event.count .zero = k) :
      Served id (answered ++ [(q, k)]) (effects ++ [.wrote id (q.response k).bytes])

/-- The bytes of answers. -/
def answerBytes (answered : List (Inquiry × Counters)) : Bytes :=
  answered.flatMap fun a => (a.1.response a.2).bytes

theorem Served.append_elsewhere (h : Served id answered effects) {more : List Effect}
    (hmore : ∀ e ∈ more, e.owner? ≠ some id) : Served id answered (effects ++ more) := by
  induction more generalizing effects with
  | nil =>
    rw [List.append_nil]
    exact h
  | cons e rest ih =>
    obtain ⟨he, hrest⟩ := List.forall_mem_cons.1 hmore
    rw [← List.singleton_append, ← List.append_assoc]
    exact ih (h.elsewhere he) hrest

/-- One answer, with the lines of its request. -/
theorem Served.append_deeds (h : Served id answered effects)
    (hk : (logged effects).foldl Log.Event.count .zero = k) (hid : c.id = id) (q : Inquiry) :
    Served id (answered ++ [(q, k)]) (effects ++ (q.deeds k).flatMap (deedEffects c)) ∧
      (logged (effects ++ (q.deeds k).flatMap (deedEffects c))).foldl Log.Event.count .zero =
        k := by
  have hlines : ∀ e ∈ deedEffects c (.handle q.parsed.request), e.owner? ≠ some id := by
    intro e he
    rw [deedEffects] at he
    rcases List.mem_cons.1 he with rfl | he
    · intro howner
      cases howner
    · obtain ⟨why, _, rfl⟩ := List.mem_map.1 he
      intro howner
      cases howner
  have hquiet : ∀ deeds : List Http.Deed,
      (logged (effects ++ deeds.flatMap (deedEffects c))).foldl Log.Event.count .zero = k := by
    intro deeds
    rw [logged_append, List.foldl_append, hk]
    exact Log.foldl_count_of_quiet (quiet_deeds c deeds) k
  have hasked := hquiet [.handle q.parsed.request]
  rw [List.flatMap_singleton] at hasked
  have hanswered := (h.append_elsewhere hlines).answer q hasked
  refine ⟨?_, hquiet _⟩
  rw [List.append_assoc] at hanswered
  rw [← hid] at hanswered ⊢
  exact hanswered

/-- Answers in a row. -/
theorem Served.append_answers (h : Served id answered effects)
    (hk : (logged effects).foldl Log.Event.count .zero = k) (hid : c.id = id)
    (more : List Inquiry) :
    Served id (answered ++ more.map fun q => (q, k))
      (effects ++ (more.flatMap (·.deeds k)).flatMap (deedEffects c)) := by
  induction more generalizing answered effects with
  | nil =>
    rw [List.map_nil, List.flatMap_nil, List.flatMap_nil, List.append_nil, List.append_nil]
    exact h
  | cons q rest ih =>
    obtain ⟨hfirst, hk'⟩ := h.append_deeds hk hid q
    have hrest := ih hfirst hk'
    rw [List.append_assoc, List.append_assoc] at hrest
    rw [List.flatMap_cons, List.flatMap_append]
    exact hrest

/-- What was written on the connection is the answers. -/
theorem Served.bytesOn_eq (h : Served id answered effects) :
    bytesOn id effects = answerBytes answered := by
  induction h with
  | nothing => rfl
  | @elsewhere answered effects e _ howner ih =>
    have hnone : bytesOn id [e] = [] := by
      cases e with
      | wrote other bytes =>
        have hne : other ≠ id := fun heq => howner (congrArg some heq)
        simp [bytesOn, hne, Bytes.join_eq_flatten]
      | closed | logged | passed => rfl
    rw [bytesOn_append, hnone, List.append_nil, ih]
  | answer q _ _ ih =>
    rw [bytesOn_append, ih, answerBytes, answerBytes, List.flatMap_append, List.flatMap_singleton]
    simp [bytesOn, Bytes.join_eq_flatten]

theorem Served.not_closed (h : Served id answered effects) : .closed id ∉ effects := by
  induction h with
  | nothing => exact List.not_mem_nil
  | elsewhere _ howner ih =>
    intro hmem
    rcases List.mem_append.1 hmem with hmem | hmem
    · exact ih hmem
    · rw [← List.mem_singleton.1 hmem] at howner
      exact howner rfl
  | answer q _ _ ih =>
    intro hmem
    rcases List.mem_append.1 hmem with hmem | hmem
    · exact ih hmem
    · cases List.mem_singleton.1 hmem

/-- The moment of an answer: those before it have been written, and the log tells its counters. -/
theorem Served.exists_moment (h : Served id answered effects)
    {before after : List (Inquiry × Counters)} {q : Inquiry}
    (hsplit : answered = before ++ (q, k) :: after) :
    ∃ front back, effects = front ++ .wrote id (q.response k).bytes :: back ∧
      bytesOn id front = answerBytes before ∧
      (logged front).foldl Log.Event.count .zero = k := by
  induction h generalizing after with
  | nothing => simp at hsplit
  | @elsewhere _ _ e _ _ ih =>
    obtain ⟨front, back, rfl, hbytes, hk⟩ := ih hsplit
    exact ⟨front, back ++ [e], by simp, hbytes, hk⟩
  | @answer answered effects last k' h hk ih =>
    rcases List.eq_nil_or_concat after with rfl | ⟨rest, final, rfl⟩
    · obtain ⟨rfl, hlast⟩ := List.append_inj' hsplit rfl
      cases hlast
      exact ⟨effects, [], rfl, h.bytesOn_eq, hk⟩
    · have hsplit' : answered ++ [(last, k')] = (before ++ (q, k) :: rest) ++ [final] := by
        simpa using hsplit
      obtain ⟨front, back, rfl, hbytes, hk⟩ := ih (List.append_inj' hsplit' rfl).1
      exact ⟨front, back ++ [.wrote id (last.response k').bytes], by simp, hbytes, hk⟩

/-! ## How the server stands to the client -/

/-- How a server that listens stands to a client that sends these requests in pieces; `todo` is what
the client is still to do. -/
inductive Attends (id : String) (peer : SocketAddress) (requests : List Inquiry) :
    List Action → Server → List Effect → Prop where
  | absent {s : Server} {effects : List Effect} {pieces : List Bytes} (hc : s.find? id = none)
      (hpieces : pieces.flatten = requests.flatMap (·.head)) (hserved : Served id [] effects) :
      Attends id peer requests (.connect id peer :: pieces.map (.send id)) s effects
  /-- The listener has not taken the client yet. -/
  | arriving {s : Server} {effects : List Effect} {pieces : List Bytes} {sent : Bytes}
      (hc : s.find? id = some ⟨id, peer, ⟨sent, .present⟩, .arriving, false⟩)
      (harrivals : .client id ∈ s.arrivals)
      (hsent : sent ++ pieces.flatten = requests.flatMap (·.head))
      (hserved : Served id [] effects) :
      Attends id peer requests (pieces.map (.send id)) s effects
  /-- The first requests have been answered, and the others are expected. -/
  | requesting {s : Server} {effects : List Effect} {pieces : List Bytes} {w : Wire}
      {connection : Http.Connection} {answered : List (Inquiry × Counters)} {rest : List Inquiry}
      (hc : s.find? id = some ⟨id, peer, w, .requesting connection, false⟩)
      (hrequests : requests = answered.map (·.1) ++ rest)
      (hexpects : Expects rest connection.phase (connection.inlet w) pieces.flatten)
      (hwoken : .advance id ∈ s.ready ∨ Rests rest (connection.inlet w))
      (hserved : Served id answered effects) :
      Attends id peer requests (pieces.map (.send id)) s effects

/-! ### Actions -/

theorem eq_of_map_send {a b : List Bytes} (h : a.map (Action.send id) = b.map (.send id)) :
    a = b :=
  List.map_injective_iff.2 (fun _ _ h => (Action.send.inj h).2) h

/-- Sending puts the next piece on the wire. -/
theorem Attends.send {piece : Bytes} {pieces : List Bytes}
    (h : Attends id peer requests ((piece :: pieces).map (.send id)) s effects) :
    Attends id peer requests (pieces.map (.send id)) (s.acted (.send id piece)) effects := by
  generalize htodo : (piece :: pieces).map (Action.send id) = todo at h
  cases h with
  | absent => cases htodo
  | @arriving _ _ pieces' sent hc harrivals hsent hserved =>
    obtain rfl := eq_of_map_send htodo
    rw [acted_send hc rfl]
    refine .arriving (find?_touch_self hc rfl) ?_ ?_ hserved
    · rw [arrivals_touch]
      exact harrivals
    · rw [List.append_assoc]
      exact hsent
  | @requesting _ _ pieces' w connection answered rest hc hrequests hexpects hwoken hserved =>
    obtain rfl := eq_of_map_send htodo
    rw [acted_send hc hexpects.present]
    refine .requesting (find?_touch_self hc rfl) hrequests ⟨rfl, ?_, hexpects.phase⟩ (Or.inl ?_)
      hserved
    · have hstream := hexpects.stream
      rw [List.flatten_cons] at hstream
      rw [← hstream]
      simp only [Http.Connection.inlet, List.append_assoc]
    · exact mem_ready_touch_iff.2 (Or.inr ⟨rfl, Stage.noConfusion, Stage.noConfusion⟩)

theorem Attends.connect (hmode : s.mode = .http)
    (h : Attends id peer requests (.connect id peer :: todo) s effects) :
    Attends id peer requests todo (s.acted (.connect id peer)) effects := by
  generalize htodo : Action.connect id peer :: todo = todo' at h
  cases h with
  | @absent _ _ pieces hc hpieces hserved =>
    cases htodo
    have hsent : [] ++ pieces.flatten = requests.flatMap (·.head) := hpieces
    rw [acted_connect hc]
    refine .arriving ?_ ?_ hsent hserved
    · rw [find?_connect_of_http hmode hc, if_pos rfl]
      rfl
    · rw [connect_of_http hmode, arrivals_wake]
      exact List.mem_append_right _ (List.mem_singleton.2 rfl)
  | @arriving _ _ pieces | @requesting _ _ pieces =>
    cases pieces <;> cases htodo

/-- What others do leaves the client as it is. -/
theorem Attends.others {a : Action} (ha : a.target? ≠ some id)
    (h : Attends id peer requests todo s effects) :
    Attends id peer requests todo (s.acted a) effects := by
  obtain ⟨hfind, hready, harrivals⟩ := (s.occurs_acted a).others ha
  cases h with
  | absent hc hpieces hserved => exact .absent (hfind.trans hc) hpieces hserved
  | arriving hc hin hsent hserved =>
    exact .arriving (hfind.trans hc) (harrivals _ hin) hsent hserved
  | requesting hc hrequests hexpects hwoken hserved =>
    exact .requesting (hfind.trans hc) hrequests hexpects (hwoken.imp_left (hready _)) hserved

/-- What the client does next: it connects first, and then it sends. -/
theorem Attends.next {a : Action} (h : Attends id peer requests (a :: todo) s effects) :
    a = .connect id peer ∨
      ∃ (piece : Bytes) (pieces : List Bytes), a = .send id piece ∧
        todo = pieces.map (.send id) := by
  generalize htodo : a :: todo = todo' at h
  cases h with
  | absent =>
    cases htodo
    exact Or.inl rfl
  | @arriving _ _ pieces | @requesting _ _ pieces =>
    cases pieces with
    | nil => cases htodo
    | cons piece pieces =>
      cases htodo
      exact Or.inr ⟨piece, pieces, rfl, rfl⟩

theorem Attends.acted (hmode : s.mode = .http) {a : Action} {later : List Action}
    (h : Attends id peer requests (onlyOn id (a :: later)) s effects) :
    Attends id peer requests (onlyOn id later) (s.acted a) effects := by
  by_cases ha : a.target? = some id
  · rw [onlyOn_cons_self ha] at h
    rcases h.next with rfl | ⟨piece, pieces, rfl, htodo⟩
    · exact h.connect hmode
    · rw [htodo] at h ⊢
      rw [← List.map_cons] at h
      exact h.send
  · rw [onlyOn_cons_of_ne ha] at h
    exact h.others ha

/-! ### Tasks -/

/-- The listener takes the client, if it has come in. -/
theorem Attends.accept (hsound : Sound s) {rest : List Task} (hready : s.ready = .accept :: rest)
    (h : Attends id peer requests todo s effects) :
    Attends id peer requests todo (Server.run { s with ready := rest } .accept).1
      (effects ++ (Server.run { s with ready := rest } .accept).2) := by
  obtain ⟨_, hrest, hothers⟩ := hsound.queue_cons hready
  have helsewhere : ∀ e ∈ (Server.run { s with ready := rest } .accept).2,
      e.owner? ≠ some id := by
    intro e he
    rw [owner?_of_mem_accept (s := { s with ready := rest, arrivals := [] }) he]
    exact fun howner => nomatch howner
  cases h with
  | absent hc hpieces hserved =>
    refine .absent ?_ hpieces (hserved.append_elsewhere helsewhere)
    refine (find?_each_take s.arrivals { s with ready := rest, arrivals := [] } id).trans ?_
    rw [show ({ s with ready := rest, arrivals := [] } : Server).find? id = none from hc]
    rfl
  | @arriving _ _ pieces sent hc harrivals hsent hserved =>
    have hc' : ({ s with ready := rest, arrivals := [] } : Server).find? id = some _ := hc
    have hnone : requests = ([] : List (Inquiry × Counters)).map (·.1) ++ requests := rfl
    have hexpects : Expects requests Http.Connection.fresh.phase
        (Http.Connection.fresh.inlet ⟨sent, .present⟩) pieces.flatten :=
      ⟨rfl, hsent, 0, rfl, fun q _ => List.length_pos_iff.2 q.head_ne_nil⟩
    refine .requesting ?_ hnone hexpects (Or.inl (mem_ready_each_take harrivals hrest hc'))
      (hserved.append_elsewhere helsewhere)
    refine (find?_each_take s.arrivals { s with ready := rest, arrivals := [] } id).trans ?_
    rw [hc', Option.map_some, if_pos harrivals]
  | requesting hc hrequests hexpects hwoken hserved =>
    obtain ⟨hc', hqueue⟩ := hsound.others hready Task.noConfusion hc Stage.noConfusion
    exact .requesting hc' hrequests hexpects (hwoken.imp_left hqueue.2)
      (hserved.append_elsewhere helsewhere)

/-- The task of another connection leaves the client as it is. -/
theorem Attends.advance_other {other : String} {rest : List Task}
    (hready : s.ready = .advance other :: rest) (hne : id ≠ other)
    (h : Attends id peer requests todo s effects) :
    Attends id peer requests todo (Server.run { s with ready := rest } (.advance other)).1
      (effects ++ (Server.run { s with ready := rest } (.advance other)).2) := by
  obtain ⟨hfind, harrivals, hqueue⟩ := run_advance_other hready hne
  have helsewhere : ∀ e ∈ (Server.run { s with ready := rest } (.advance other)).2,
      e.owner? ≠ some id :=
    fun e he howner => hne (concern_advance _ other e he id howner)
  cases h with
  | absent hc hpieces hserved =>
    exact .absent (hfind.trans hc) hpieces (hserved.append_elsewhere helsewhere)
  | arriving hc hin hsent hserved =>
    refine .arriving (hfind.trans hc) ?_ hsent (hserved.append_elsewhere helsewhere)
    rw [harrivals]
    exact hin
  | requesting hc hrequests hexpects hwoken hserved =>
    exact .requesting (hfind.trans hc) hrequests hexpects (hwoken.imp_left hqueue.2)
      (hserved.append_elsewhere helsewhere)

/-- The task of the client answers what has come whole. -/
theorem Attends.advance_self {rest : List Task}
    (hk : (logged effects).foldl Log.Event.count .zero = s.counters)
    (h : Attends id peer requests todo s effects) :
    Attends id peer requests todo (Server.run { s with ready := rest } (.advance id)).1
      (effects ++ (Server.run { s with ready := rest } (.advance id)).2) := by
  cases h with
  | absent hc hpieces hserved =>
    rw [run_unknown hc, List.append_nil]
    exact .absent hc hpieces hserved
  | arriving hc harrivals hsent hserved =>
    obtain ⟨c', woken, hturned, hleaves⟩ := turned_run hc rest
    have hc' := (hleaves.find?_eq hc id).trans (if_pos rfl)
    have hmove := hturned.move rfl
    generalize (Server.run { s with ready := rest } (.advance id)).2 = effects' at hmove ⊢
    generalize (Server.run { s with ready := rest } (.advance id)).1.counters = k' at hmove
    cases hmove with
    | idle =>
      rw [List.append_nil]
      refine .arriving hc' ?_ hsent hserved
      rw [hleaves.arrivals]
      exact harrivals
    | served h | began h | read h | gaveUp h => cases h
  | @requesting _ _ pieces w connection answered unanswered hc hrequests hexpects hwoken hserved =>
    obtain ⟨more, unanswered', standing, d, v, hmore, hpoll, hexpects', hstanding⟩ :=
      Http.poll_of_expects hexpects s.counters
    obtain ⟨c', woken, hturned, hleaves⟩ := turned_run hc rest
    have hc' := (hleaves.find?_eq hc id).trans (if_pos rfl)
    obtain ⟨rfl, rfl, _, heffects⟩ := (hturned.move rfl).of_poll rfl hpoll
    have hserved' := hserved.append_answers (c := ⟨id, peer, w, .requesting connection, false⟩)
      hk rfl more
    have hrequests' : requests =
        (answered ++ more.map fun q => (q, s.counters)).map (·.1) ++ unanswered' := by
      rw [hrequests, hmore]
      simp [Function.comp_def]
    rcases hstanding with rfl | ⟨rfl, hrests⟩
    · rw [heffects, Http.Standing.effects, List.append_nil]
      exact .requesting hc' hrequests' hexpects'
        (Or.inl (hleaves.mem_ready_iff.2 (Or.inr ⟨rfl, rfl⟩))) hserved'
    · rw [heffects, Http.Standing.effects, List.append_nil]
      exact .requesting hc' hrequests' hexpects' (Or.inr hrests) hserved'

/-! ## Runs -/

/-- The invariant of a run, `past` being its tasks so far. -/
structure Attended (id : String) (peer : SocketAddress) (requests : List Inquiry)
    (todo : List Action) (s : Server) (past : List Stint) : Prop where
  sound : Sound s
  tally : Tally s past
  attends : Attends id peer requests todo s (past.flatMap (·.effects))

theorem Attended.run (h : Attended id peer requests todo s past) {t : Task} {rest : List Task}
    (hready : s.ready = t :: rest) :
    Attended id peer requests todo (Server.run { s with ready := rest } t).1
      (past ++ [⟨t, (Server.run { s with ready := rest } t).2⟩]) := by
  refine ⟨h.sound.run hready, h.tally.run hready, ?_⟩
  rw [List.flatMap_append, List.flatMap_singleton]
  cases t with
  | accept => exact h.attends.accept h.sound hready
  | advance other =>
    by_cases heq : id = other
    · subst heq
      exact h.attends.advance_self h.tally.counters.symm
    · exact h.attends.advance_other hready heq

theorem Attended.foldl_acted {actions later : List Action}
    (h : Attended id peer requests (onlyOn id (actions ++ later)) s past) :
    Attended id peer requests (onlyOn id later) (actions.foldl acted s) past := by
  induction actions generalizing s with
  | nil => exact h
  | cons a rest ih =>
    exact ih ⟨h.sound.acted a, h.tally.acted a, h.attends.acted h.tally.listening.mode⟩

theorem Attended.steps {steps : List (List Action)}
    (h : Attended id peer requests (onlyOn id steps.flatten) s past) :
    Attended id peer requests [] (s.steps steps).1 (past ++ s.runStints steps) := by
  induction steps generalizing s past with
  | nil =>
    rw [runStints, List.append_nil]
    exact h
  | cons actions rest ih =>
    rw [List.flatten_cons] at h
    have hstep : Attended id peer requests (onlyOn id rest.flatten) (s.step actions).1
        (past ++ s.stepStints actions) := by
      rw [step_fst]
      exact runReady_induction (P := Attended id peer requests (onlyOn id rest.flatten))
        (fun s past t rest hready h => h.run hready) _ h.foldl_acted
    rw [runStints, ← List.append_assoc]
    exact ih hstep

/-- When everything has been sent and everything waits, all requests have been answered. -/
theorem Attends.served (hready : s.ready = []) (h : Attends id peer requests [] s effects)
    (harrivals : s.arrivals = []) :
    ∃ answered c connection, answered.map (·.1) = requests ∧ Served id answered effects ∧
      s.find? id = some c ∧ c.stage = .requesting connection ∧ c.wire.state = .present := by
  generalize htodo : [] = todo at h
  cases h with
  | absent => cases htodo
  | arriving _ hin =>
    rw [harrivals] at hin
    cases hin
  | @requesting _ _ pieces w connection answered rest hc hrequests hexpects hwoken hserved =>
    cases pieces with
    | cons => cases htodo
    | nil =>
      rw [hready] at hwoken
      have hrests := hwoken.resolve_left List.not_mem_nil
      rw [hexpects.eq_nil hrests, List.append_nil] at hrequests
      exact ⟨answered, _, connection, hrequests.symm, hserved, hc, rfl, hexpects.present⟩

/-! ## Requests in a row -/

/-- What a client that sent these requests has been answered, by the entries of the run: as many
responses as requests, in their order and each as it must be for the counters that come with it. -/
structure AnsweredInOrder (id : String) (requests : List Inquiry) (entries : List Entry)
    (answers : List (Counters × Received)) : Prop where
  read : readResponses (entries.flatMap (·.output id)) = some (answers.map (·.2))
  right : List.Forall₂ (fun q a => q.Answered a.1 a.2) requests answers
  /-- The counters are those that the log told when the response was written, right behind the ones
  before it. -/
  current : ∀ before k r after, answers = before ++ (k, r) :: after →
    ∃ front bytes back, entries.flatMap (·.effects) = front ++ .wrote id bytes :: back ∧
      readResponse bytes = .done r [] ∧ readResponses (bytesOn id front) = some (before.map (·.2)) ∧
      (logged front).foldl Log.Event.count .zero = k
  /-- The server has not closed the connection. -/
  kept : ∀ e ∈ entries, id ∉ e.closed

theorem Served.answeredInOrder {entries : List Entry}
    (h : Served id answered (entries.flatMap (·.effects))) :
    AnsweredInOrder id (answered.map (·.1)) entries
      (answered.map fun a => (a.2, (a.1.response a.2).received)) := by
  constructor
  · rw [flatMap_output, Entry.output_eq, Entry.joined, h.bytesOn_eq, answerBytes,
      Http.readResponses_answers]
    simp only [List.map_map, Function.comp_def]
  · rw [List.forall₂_map_left_iff, List.forall₂_map_right_iff, List.forall₂_same]
    exact fun a _ => a.1.answered a.2
  · intro before k r after hsplit
    obtain ⟨first, others, rfl, rfl, hothers⟩ := List.map_eq_append_iff.1 hsplit
    obtain ⟨⟨q, k'⟩, rest, rfl, hlast, _⟩ := List.map_eq_cons_iff.1 hothers
    obtain ⟨rfl, rfl⟩ := Prod.mk.inj hlast
    obtain ⟨front, back, heffects, hbytes, hk⟩ := h.exists_moment rfl
    refine ⟨front, _, back, heffects, ?_, ?_, hk⟩
    · have hread := q.readResponse_bytes k' []
      rw [List.append_nil] at hread
      exact hread
    · rw [hbytes, answerBytes, Http.readResponses_answers]
      simp only [List.map_map, Function.comp_def]
  · exact fun e he hclosed => h.not_closed (List.mem_flatMap.2 ⟨e, he, mem_closed_iff.1 hclosed⟩)

/-- A client that sends requests in a row, cut into pieces anywhere and spread over any steps, is
answered each of them once and in order, whatever other clients do, and its connection waits for
more. -/
theorem pipelined_answered {pieces : List Bytes} {steps : List (List Action)}
    (hpieces : pieces.flatten = requests.flatMap (·.head))
    (hsteps : onlyOn id steps.flatten = .connect id peer :: pieces.map (.send id)) :
    (∃ answers, AnsweredInOrder id requests (servings steps) answers) ∧
      ∃ c connection, (serving steps).find? id = some c ∧ c.stage = .requesting connection ∧
        c.wire.state = .present := by
  have hstart : Attended id peer requests (onlyOn id steps.flatten) (empty .http) [] := by
    rw [hsteps]
    exact ⟨sound_empty .http, tally_empty, .absent rfl hpieces .nothing⟩
  have hend := hstart.steps
  obtain ⟨_, hready, harrivals⟩ := listening_serving steps
  obtain ⟨answered, c, connection, rfl, hserved, hc, hstage, hpresent⟩ :=
    hend.attends.served hready harrivals
  rw [List.nil_append, flatMap_runStints] at hserved
  exact ⟨⟨_, hserved.answeredInOrder⟩, c, connection, hc, hstage, hpresent⟩

/-- A request for the status page, with a query. -/
def pageRequest : Inquiry where
  head := Bytes.ofText "GET /?all HTTP/1.1\r\nHost: a\r\n\r\n"
  parsed :=
    { request :=
        { method := Bytes.ofText "GET"
          target := ⟨none, none, Bytes.ofText "/", some (Bytes.ofText "all")⟩
          version := .http11
          headers := [.ofText "Host" "a"] }
      keepAlive := true
      body := .sized 0
      bodyWaits := false
      retains := true }
  spelled := by decide +kernel
  size := by decide +kernel
  method := rfl
  version := rfl
  bodiless := rfl
  stays := by decide +kernel
  refused := fun hpath => absurd hpath (by decide +kernel)

/-- A handshake for another version of the protocol. -/
def otherVersion : Inquiry where
  head := Bytes.ofText ("GET /ws HTTP/1.1\r\nConnection: Upgrade\r\nUpgrade: websocket\r\n" ++
    "Sec-WebSocket-Version: 8\r\n\r\n")
  parsed :=
    { request :=
        { method := Bytes.ofText "GET"
          target := ⟨none, none, Bytes.ofText "/ws", none⟩
          version := .http11
          headers := [.ofText "Connection" "Upgrade", .ofText "Upgrade" "websocket",
            .ofText "Sec-WebSocket-Version" "8"] }
      keepAlive := true
      body := .sized 0
      bodyWaits := false
      retains := true }
  spelled := by decide +kernel
  size := by decide +kernel
  method := rfl
  version := rfl
  bodiless := rfl
  stays := by decide +kernel
  refused := fun _ => ⟨.unsupportedVersion, by decide +kernel⟩

/-- Three requests in two pieces, with the cut in the second one. -/
def threeRequests : List Bytes :=
  [pageRequest.head ++ otherVersion.head.take 20, otherVersion.head.drop 20 ++ pageRequest.head]

/-- Between the pieces another client opens a session. -/
def threeRequestsAroundSession : List (List Action) :=
  [.connect "a" loopback :: (threeRequests.take 1).map (.send "a"),
    [.connect "b" loopback, .send "b" sampleHead], (threeRequests.drop 1).map (.send "a")]

theorem threeRequestsAroundSession_answered :
    threeRequests.flatten = [pageRequest, otherVersion, pageRequest].flatMap (·.head) ∧
      onlyOn "a" threeRequestsAroundSession.flatten =
        .connect "a" loopback :: threeRequests.map (.send "a") ∧
      (∃ answers, AnsweredInOrder "a" [pageRequest, otherVersion, pageRequest]
        (servings threeRequestsAroundSession) answers ∧ answers.length = 3) ∧
      (servings threeRequestsAroundSession).flatMap (·.output "a") =
        Bytes.ofText ("HTTP/1.1 200 OK\r\ncontent-length: 20\r\n\r\n" ++
          "\x7b\"max\":0,\"active\":0\x7d" ++
          "HTTP/1.1 426 Upgrade Required\r\nsec-websocket-version: 13\r\n" ++
          "content-length: 16\r\n\r\nUpgrade Required" ++
          "HTTP/1.1 200 OK\r\ncontent-length: 20\r\n\r\n" ++
          "\x7b\"max\":1,\"active\":1\x7d") := by
  have hpieces : threeRequests.flatten =
      [pageRequest, otherVersion, pageRequest].flatMap (·.head) := by decide +kernel
  have hsteps : onlyOn "a" threeRequestsAroundSession.flatten =
      .connect "a" loopback :: threeRequests.map (.send "a") := by decide +kernel
  obtain ⟨⟨answers, hanswers⟩, _⟩ := pipelined_answered hpieces hsteps
  exact ⟨hpieces, hsteps, ⟨answers, hanswers, hanswers.right.length_eq.symm⟩, by decide +kernel⟩

end WebSocketEcho.Server
