import WebSocketEcho.Proofs.Server.OpenSessions

/-!
# Upgrades

No session opens without an accepted handshake: when the task of a connection opens one, what that
task did last was to take a request with an acceptable handshake and to answer it with the switch of
protocols (`Upgrades.run`).  `Client.isGranted` are the connections that stand between the answer
and the session, and `Granted` is what they have done.

A handshake that is refused is told in one warning and changes nothing else (`refusals_of_poll`).
-/

namespace WebSocketEcho

/-- The last thing that was done is to accept a handshake: a request for the echo endpoint with an
acceptable key was told, and the switch was written. -/
def Granted (id : String) (peer : SocketAddress) (effects : List Effect) : Prop :=
  ∃ front r keepAlive key,
    effects = front ++ [.logged (.requested peer r.method r.target),
      .wrote id (Http.frame r keepAlive
        ⟨.switchingProtocols, (Handshake.switching r.version key).headers, []⟩).bytes] ∧
    Route.ofPath r.target.effectivePath = .echo ∧ Handshake.key r = .ok key

theorem Granted.append_front {id : String} {peer : SocketAddress} {effects : List Effect}
    (h : Granted id peer effects) (more : List Effect) : Granted id peer (more ++ effects) := by
  obtain ⟨front, r, keepAlive, key, rfl, hroute, hkey⟩ := h
  exact ⟨more ++ front, r, keepAlive, key, (List.append_assoc ..).symm, hroute, hkey⟩

/-- The handshake has been accepted and the session has not begun. -/
def Client.isGranted (c : Client) : Bool :=
  match c.stage with
  | .requesting connection => connection.phase.owesSwitch
  | .starting _ => true
  | .arriving | .echoing _ | .abandoned | .ended => false

namespace Service

variable {k : Counters} {r : Http.Request}

/-- A switch is answered to an acceptable handshake only. -/
theorem answer_of_switching (h : (answer k r).status = .switchingProtocols) :
    ∃ key, Route.ofPath r.target.effectivePath = .echo ∧ Handshake.key r = .ok key ∧
      refusal? r = none ∧
      answer k r = ⟨.switchingProtocols, (Handshake.switching r.version key).headers, []⟩ := by
  rw [answer] at h ⊢
  rw [refusal?]
  cases hroute : Route.ofPath r.target.effectivePath with
  | status =>
    rw [hroute] at h
    cases h
  | echo =>
    rw [hroute] at h
    rw [Handshake.answer] at h ⊢
    cases hkey : Handshake.key r with
    | ok key => exact ⟨key, rfl, rfl, rfl, rfl⟩
    | error why =>
      rw [hkey] at h
      cases why <;> cases h

end Service

namespace Http

variable {handler : Request → Answer} {owed owed' : Bool} {deeds tail : List Deed}
  {standing : Standing}

/-- A switch is owed behind a talk because it was owed before and nothing was said, or because the
last request was granted one. -/
theorem Talk.owes_switch (h : Talk handler owed deeds owed') (howed : owed' = true) :
    deeds = [] ∧ owed = true ∨
      ∃ front r keepAlive, deeds = front ++
          [.handle r, .write (frame r keepAlive (handler r)).bytes] ∧
        (handler r).status = .switchingProtocols := by
  induction h with
  | silent => exact Or.inl ⟨rfl, howed⟩
  | answered r keepAlive h ih =>
    rcases ih howed with ⟨rfl, hswitch⟩ | ⟨front, q, keepAlive', rfl, hswitch⟩
    · exact Or.inr ⟨[], r, keepAlive, rfl, by simpa using hswitch⟩
    · exact Or.inr ⟨.handle r :: .write (frame r keepAlive (handler r)).bytes :: front, q,
        keepAlive', rfl, hswitch⟩

/-- A connection that stands before a switch has nothing more to say, and owes it. -/
theorem Ending.owes_switch (h : Ending handler owed tail standing) {c : Client}
    (hgranted : ({ c with stage := standing.stage } : Client).isGranted = true) :
    owed = true ∧ tail = [] ∧ standing.effects c = [] := by
  cases h with
  | waiting d => exact ⟨hgranted, rfl, rfl⟩
  | paused d => exact ⟨hgranted, rfl, rfl⟩
  | switched leftover => exact ⟨rfl, rfl, rfl⟩
  | closed | refused | unanswered | abandoned => cases hgranted

end Http

namespace Server

variable {s s' : Server} {id : String} {c c' : Client} {effects : List Effect}

/-! ## What a task does -/

/-- A connection that is granted the switch in a move, or was before it, was granted it last. -/
theorem Move.granted {woken : Bool} {k k' : Counters} {past : List Effect}
    (h : Move k c c' woken k' effects) (hpast : c.isGranted = true → Granted c.id c.peer past)
    (hgranted : c'.isGranted = true) : Granted c.id c.peer (past ++ effects) := by
  cases h with
  | idle =>
    rw [List.append_nil]
    exact hpast hgranted
  | served hstage hpoll =>
    obtain ⟨talk, tail, owed, rfl, htalk, hend⟩ := Http.talk_poll hpoll
    obtain ⟨rfl, rfl, heffects⟩ := hend.owes_switch hgranted
    rw [heffects, List.append_nil, List.append_nil]
    rcases htalk.owes_switch rfl with ⟨rfl, howed⟩ | ⟨front, r, keepAlive, rfl, hswitch⟩
    · rw [List.flatMap_nil, List.append_nil]
      exact hpast (by rw [Client.isGranted, hstage]; exact howed)
    · obtain ⟨key, hroute, hkey, hrefusal, hanswer⟩ := Service.answer_of_switching hswitch
      rw [hanswer, List.flatMap_append]
      refine Granted.append_front (Granted.append_front ⟨[], r, keepAlive, key, ?_, hroute, hkey⟩
        _) _
      simp [deedEffects, hrefusal]
  | began | read =>
    rename_i r _ _
    obtain ⟨reactions, progress⟩ := r
    cases progress <;> cases hgranted
  | gaveUp => cases hgranted

/-- A session opens only in a move of a connection that was granted it. -/
theorem Move.opened {woken : Bool} {k k' : Counters} (h : Move k c c' woken k' effects)
    {peer : SocketAddress} {active : UInt64}
    (hopened : .logged (.sessionOpened peer active) ∈ effects) :
    c.isGranted = true ∧ peer = c.peer := by
  have hline : .sessionOpened peer active ∈ logged effects :=
    List.mem_filterMap.2 ⟨_, hopened, rfl⟩
  have htold : ∀ k r, .sessionOpened peer active ∉ logged (told k c.id c.peer r) := by
    intro k r hmem
    rw [told, logged_append] at hmem
    rcases List.mem_append.1 hmem with hmem | hmem
    · cases (quiet_reactions c.id r.1 _ hmem).1
    · obtain ⟨reactions, progress⟩ := r
      cases progress <;> simp [logged] at hmem
  cases h with
  | idle => cases hopened
  | served hstage hpoll =>
    rename_i connection deeds standing w
    rw [logged_append] at hline
    rcases List.mem_append.1 hline with hline | hline
    · cases (quiet_deeds c deeds _ hline).1
    · cases (quiet_standing c standing _ hline).1
  | began hstage =>
    refine ⟨by rw [Client.isGranted, hstage], ?_⟩
    rcases List.mem_cons.1 hline with heq | hline
    · cases heq
      rfl
    · exact absurd hline (htold _ _)
  | read => exact absurd hline (htold _ _)
  | gaveUp => simp at hopened

theorem Move.same {woken : Bool} {k k' : Counters} (h : Move k c c' woken k' effects) :
    c'.id = c.id ∧ c'.peer = c.peer := by
  cases h <;> exact ⟨rfl, rfl⟩

/-! ## Runs -/

/-- What holds at every moment of a run: who is granted a session has done nothing since, and every
session that has opened was granted in this way. -/
structure Upgrades (s : Server) (past : List Stint) : Prop where
  granted : ∀ c ∈ s.clients, c.isGranted = true → Granted c.id c.peer (share c.id past)
  opened : ∀ earlier st later, past = earlier ++ st :: later → ∀ peer active,
    .logged (.sessionOpened peer active) ∈ st.effects →
      ∃ id, st.task = .advance id ∧ Granted id peer (share id earlier)

theorem upgrades_empty : Upgrades (empty .http) [] := by
  constructor
  · exact fun c hc => nomatch hc
  · intro earlier st later h
    simp at h

/-- Connections that are the same to an upgrade before and after leave it as it is. -/
theorem Upgrades.of_map {past : List Stint} (h : Upgrades s past)
    (hmap : s'.clients.map (fun c => (c.id, c.peer, c.isGranted)) =
      s.clients.map fun c => (c.id, c.peer, c.isGranted)) :
    Upgrades s' past := by
  refine ⟨fun c hc hgranted => ?_, h.opened⟩
  have hmem : (c.id, c.peer, c.isGranted) ∈ s.clients.map fun c => (c.id, c.peer, c.isGranted) :=
    hmap ▸ List.mem_map.2 ⟨c, hc, rfl⟩
  obtain ⟨d, hd, heq⟩ := List.mem_map.1 hmem
  simp only [Prod.mk.injEq] at heq
  obtain ⟨hid, hpeer, hsame⟩ := heq
  have hpast := h.granted d hd (hsame.trans hgranted)
  rw [hid, hpeer] at hpast
  exact hpast

theorem Upgrades.happens {past : List Stint} (hlistening : Listening s) (h : Upgrades s past)
    (hs : s.Happens s') : Upgrades s' past := by
  cases hs with
  | nothing => exact h
  | came peer hid =>
    refine ⟨fun c hc hgranted => ?_, h.opened⟩
    rw [connect_of_http hlistening.mode, clients_wake] at hc
    rcases List.mem_append.1 hc with hc | hc
    · exact h.granted c hc hgranted
    · rw [List.mem_singleton.1 hc] at hgranted
      cases hgranted
  | failed =>
    refine h.of_map ?_
    rw [clients_wake]
  | touched hc w =>
    rename_i id c
    obtain rfl : c.id = id := id_of_find? hc
    obtain ⟨front, back, hclients, hupdate⟩ := exists_update_eq hlistening.nodup hc
    refine h.of_map ?_
    rw [clients_touch, hupdate, hclients, List.map_append, List.map_append, List.map_cons,
      List.map_cons]
    rfl

/-- Another connection has the same share after a task. -/
theorem share_concat_of_ne {past : List Stint} {t : Task} (h : t ≠ .advance id)
    (effects : List Effect) : share id (past ++ [⟨t, effects⟩]) = share id past := by
  rw [share_append, share_cons_of_ne h]
  exact List.append_nil _

theorem share_concat_self (id : String) (past : List Stint) (effects : List Effect) :
    share id (past ++ [⟨.advance id, effects⟩]) = share id past ++ effects := by
  rw [share_append, share_cons_self]
  exact congrArg (share id past ++ ·) (List.append_nil _)

/-- The first tasks are those of before, or the last one is the new one. -/
theorem split_concat {past earlier later : List Stint} {st new : Stint}
    (h : past ++ [new] = earlier ++ st :: later) :
    (∃ rest, past = earlier ++ st :: rest) ∨ past = earlier ∧ new = st := by
  rcases List.eq_nil_or_concat later with rfl | ⟨rest, last, rfl⟩
  · obtain ⟨hpast, hnew⟩ := List.append_inj' h rfl
    exact Or.inr ⟨hpast, List.singleton_inj.1 hnew⟩
  · have h' : past ++ [new] = (earlier ++ st :: rest) ++ [last] := by simpa using h
    exact Or.inl ⟨rest, (List.append_inj' h' rfl).1⟩

/-- One task further. -/
theorem Upgrades.concat {past : List Stint} (h : Upgrades s past) {new : Stint}
    (hgranted : ∀ c ∈ s'.clients, c.isGranted = true →
      Granted c.id c.peer (share c.id (past ++ [new])))
    (hopened : ∀ peer active, .logged (.sessionOpened peer active) ∈ new.effects →
      ∃ id, new.task = .advance id ∧ Granted id peer (share id past)) :
    Upgrades s' (past ++ [new]) := by
  refine ⟨hgranted, fun earlier st later hsplit peer active hmem => ?_⟩
  rcases split_concat hsplit with ⟨rest, hpast⟩ | ⟨rfl, rfl⟩
  · exact h.opened earlier st rest hpast peer active hmem
  · exact hopened peer active hmem

/-- In a list of connections with different names, a name belongs to one. -/
theorem eq_of_find? (hnodup : s.ids.Nodup) (hc : s.find? id = some c) {d : Client}
    (hd : d ∈ s.clients) (hid : d.id = id) : d = c :=
  List.inj_on_of_nodup_map hnodup hd (mem_of_find? hc) (hid.trans (id_of_find? hc).symm)

theorem Upgrades.run {past : List Stint} (hlistening : Listening s) (h : Upgrades s past)
    {t : Task} {rest : List Task} (hready : s.ready = t :: rest) :
    Upgrades (Server.run { s with ready := rest } t).1
      (past ++ [⟨t, (Server.run { s with ready := rest } t).2⟩]) := by
  cases t with
  | accept =>
    have hsame : ∀ c : Client, c.stage = .arriving ∨ c.stage = .requesting .fresh →
        (c.id, c.peer, ({ c with stage := .requesting .fresh } : Client).isGranted) =
          (c.id, c.peer, c.isGranted) := by
      intro c hstage
      have hnot : c.isGranted = false := by
        rw [Client.isGranted]
        rcases hstage with hstage | hstage <;> rw [hstage]
        rfl
      rw [hnot]
      rfl
    have hmap := map_each_take (fun c => (c.id, c.peer, c.isGranted)) hsame s.arrivals
      (s := { s with ready := rest, arrivals := [] }) hlistening.nodup hlistening.arriving_stage
    refine h.concat (fun c hc hgranted => ?_) fun peer active hmem => ?_
    · rw [share_concat_of_ne (by simp)]
      exact (h.of_map hmap).granted c hc hgranted
    · have hline := quiet_take s.arrivals { s with ready := rest, arrivals := [] }
        (.sessionOpened peer active) (List.mem_filterMap.2 ⟨_, hmem, rfl⟩)
      cases hline.1
  | advance id =>
    cases hc : s.find? id with
    | none =>
      rw [run_unknown hc]
      refine h.concat (fun d hd hgranted => ?_) fun peer active hmem => nomatch hmem
      have hne : d.id ≠ id := by
        rintro rfl
        exact find?_eq_none_iff.1 hc (List.mem_map.2 ⟨d, hd, rfl⟩)
      rw [share_concat_of_ne (by simpa using hne.symm)]
      exact h.granted d hd hgranted
    | some c =>
      obtain ⟨_, _, _, f, woken, _, hmove, hclients, _⟩ :=
        advanced_run hc (hlistening.find?_cancelled hc) rest
      obtain rfl : c.id = id := id_of_find? hc
      have hpast := h.granted c (mem_of_find? hc)
      refine h.concat (fun d hd hgranted => ?_) fun peer active hmem => ?_
      · rw [hclients] at hd
        obtain ⟨e, he, rfl⟩ := List.mem_map.1 hd
        by_cases hid : e.id = c.id
        · rw [eq_of_find? hlistening.nodup hc he hid] at hgranted ⊢
          rw [if_pos (by simp)] at hgranted ⊢
          rw [hmove.same.1, hmove.same.2, share_concat_self]
          exact hmove.granted hpast hgranted
        · rw [if_neg (by simpa using hid)] at hgranted ⊢
          rw [share_concat_of_ne (by simpa using Ne.symm hid)]
          exact h.granted e he hgranted
      · obtain ⟨hgranted, rfl⟩ := hmove.opened hmem
        exact ⟨c.id, rfl, hpast hgranted⟩

/-! ## Refused handshakes -/

/-- The refusals among what happens on a connection, in order. -/
def refusals (deeds : List Http.Deed) : List Handshake.Refusal :=
  deeds.flatMap fun
    | .handle r => (Service.refusal? r).toList
    | .write _ => []

theorem warnings_of_deeds (c : Client) (deeds : List Http.Deed) :
    (logged (deeds.flatMap (deedEffects c))).filter (·.level == .warn) =
      (refusals deeds).map (.handshakeRefused c.peer) := by
  induction deeds with
  | nil => rfl
  | cons d rest ih =>
    rw [List.flatMap_cons, logged_append, List.filter_append, ih]
    cases d with
    | write bytes => rfl
    | handle r =>
      have hfirst : refusals (.handle r :: rest) = (Service.refusal? r).toList ++ refusals rest :=
        List.flatMap_cons
      rw [hfirst, List.map_append, deedEffects]
      cases Service.refusal? r <;> rfl

/-- What a poll leaves behind: one warning for each refused handshake, in order, and the counters
as they were; no session opens. -/
theorem refusals_of_poll (hlistening : Listening s) {connection : Http.Connection}
    {deeds : List Http.Deed} {standing : Http.Standing} {w : Wire} {rest : List Task}
    (hc : s.find? id = some c) (hstage : c.stage = .requesting connection)
    (hpoll : connection.poll (Service.answer s.counters) c.wire = (deeds, standing, w)) :
    (logged (Server.run { s with ready := rest } (.advance id)).2).filter (·.level == .warn) =
        (refusals deeds).map (.handshakeRefused c.peer) ∧
      (∀ e ∈ logged (Server.run { s with ready := rest } (.advance id)).2, e.opens = false) ∧
      (Server.run { s with ready := rest } (.advance id)).1.counters = s.counters := by
  obtain ⟨_, _, _, f, woken, _, hmove, _, _⟩ := advanced_run hc (hlistening.find?_cancelled hc) rest
  obtain ⟨_, _, hcounters, heffects⟩ := hmove.of_poll hstage hpoll
  have hstanding : (logged (standing.effects c)).filter (·.level == .warn) = [] := by
    cases standing with
    | waiting | paused | switched | abandoned => rfl
    | closed fault => cases fault <;> rfl
  rw [heffects, logged_append, List.filter_append, warnings_of_deeds, hstanding, List.append_nil]
  refine ⟨rfl, fun e he => ?_, hcounters⟩
  rcases List.mem_append.1 he with he | he
  · exact (quiet_deeds c deeds e he).1
  · exact (quiet_standing c standing e he).1

end Server

end WebSocketEcho
