import WebSocketEcho.Proofs.Server.Moments

/-!
# The life of a session

What the task of a connection has done up to any moment of a run, as far as the session on it is
concerned.  `Client.Lived` has one case for each way that a session can stand: it has not begun, it
runs and has read so much, it has ended by itself, or it was cancelled.  A turn goes from one case
to the next (`Turned.lived`), so the share of every connection is one of these lives at every moment
(`chronicle_amid`).

Nothing is said about effects that are not of a session: what an HTTP connection does before it is
handed over stands in front of its session.
-/

namespace WebSocketEcho

/-- The effects by which a session begins, ends, and is told. -/
def Effect.isOfSession : Effect → Bool
  | .passed _ => true
  | .logged (.sessionOpened _ _) | .logged (.closeReceived _) | .logged (.sessionEnded _ _)
  | .logged (.sessionClosed _ _) => true
  | .logged _ | .wrote _ _ | .closed _ => false

/-- No session shows in these effects. -/
def Sessionless (effects : List Effect) : Prop := ∀ e ∈ effects, e.isOfSession = false

theorem sessionless_nil : Sessionless [] := fun _ h => nomatch h

theorem sessionless_append {a b : List Effect} :
    Sessionless (a ++ b) ↔ Sessionless a ∧ Sessionless b := List.forall_mem_append

theorem sessionless_cons {e : Effect} {effects : List Effect} :
    Sessionless (e :: effects) ↔ e.isOfSession = false ∧ Sessionless effects := List.forall_mem_cons

theorem Sessionless.passages {effects : List Effect} (h : Sessionless effects) :
    passages effects = [] := by
  refine List.filterMap_eq_nil_iff.2 fun e he => ?_
  have hapart := h e he
  cases e with
  | passed p => cases hapart
  | wrote | closed | logged => rfl

namespace Client

open Server

/-- How the session on a connection has lived, by what its task has done. -/
inductive Lived (c : Client) : List Effect → Prop where
  /-- No session has begun. -/
  | unborn {front : List Effect} (h : c.isEchoing = false) (hfront : Sessionless front) :
      Lived c front
  /-- The session has read `read` and waits. -/
  | running {front : List Effect} {t : Session} {read : Bytes} {reactions : List Reaction}
      (k : Counters) (h : c.stage = .echoing t) (hfront : Sessionless front)
      (hfeed : (Session.begin []).feed read = (reactions, .waiting t)) :
      Lived c (front ++ shown k c.id c.peer (reactions, .waiting t))
  /-- Its last reading has ended the session. -/
  | parted {front : List Effect} {t : Session} {read : Bytes} {reactions more : List Reaction}
      {w : Wire} {o : Outcome} (k k' : Counters) (h : c.stage = .ended)
      (hfront : Sessionless front)
      (hfeed : (Session.begin []).feed read = (reactions, .waiting t))
      (hpoll : t.poll w = (more, .ended o)) :
      Lived c (front ++ shown k c.id c.peer (reactions, .waiting t) ++
        told k' c.id c.peer (more, .ended o))
  | cancelled {front : List Effect} {t : Session} {read : Bytes} {reactions : List Reaction}
      (k : Counters) (h : c.stage = .ended) (hcancelled : c.cancelled = true)
      (hfront : Sessionless front)
      (hfeed : (Session.begin []).feed read = (reactions, .waiting t)) :
      Lived c (front ++ shown k c.id c.peer (reactions, .waiting t) ++
        [.passed (.left c.id), .closed c.id])

section Lived

variable {c : Client} {effects : List Effect}

/-- What a connection has shown on which no session has run. -/
theorem Lived.sessionless (h : c.Lived effects) (hecho : c.isEchoing = false)
    (hended : c.stage ≠ .ended) : Sessionless effects := by
  cases h with
  | unborn _ hfront => exact hfront
  | running _ hstage =>
    rw [Client.isEchoing, hstage] at hecho
    cases hecho
  | parted _ _ hstage => exact absurd hstage hended
  | cancelled _ hstage => exact absurd hstage hended

/-- What a running session has shown. -/
theorem Lived.of_echoing (h : c.Lived effects) {t : Session} (hstage : c.stage = .echoing t) :
    ∃ front read reactions k, Sessionless front ∧
      (Session.begin []).feed read = (reactions, .waiting t) ∧
      effects = front ++ shown k c.id c.peer (reactions, .waiting t) := by
  cases h with
  | unborn hecho =>
    rw [Client.isEchoing, hstage] at hecho
    cases hecho
  | running k hstage' hfront hfeed =>
    cases hstage.symm.trans hstage'
    exact ⟨_, _, _, k, hfront, hfeed, rfl⟩
  | parted _ _ hstage' =>
    rw [hstage] at hstage'
    cases hstage'
  | cancelled _ hstage' =>
    rw [hstage] at hstage'
    cases hstage'

/-- A life does not depend on what waits on the wire. -/
theorem Lived.congr {past : List Effect} (h : c.Lived past) (w : Wire) {cancelled : Bool}
    (hcancelled : c.cancelled = true → cancelled = true) :
    ({ c with wire := w, cancelled } : Client).Lived past := by
  cases h with
  | unborn hecho hfront => exact .unborn hecho hfront
  | running k hstage hfront hfeed => exact .running k hstage hfront hfeed
  | parted k k' hstage hfront hfeed hpoll => exact .parted k k' hstage hfront hfeed hpoll
  | cancelled k hstage hstopped hfront hfeed =>
    exact .cancelled k hstage (hcancelled hstopped) hfront hfeed

end Lived

end Client

namespace Session

/-- A session that has been handed some bytes reads them first. -/
theorem poll_begin (leftover : Bytes) (w : Wire) :
    (begin leftover).poll w = (begin []).poll { w with unread := leftover ++ w.unread } := by
  have hfeed : (begin leftover).feed w.unread = (begin []).feed (leftover ++ w.unread) := rfl
  rw [poll, poll, hfeed]

theorem feed_nil : (begin []).feed [] = ([], .waiting (begin [])) := by
  rw [feed]
  exact consume_of_incomplete rfl

/-- A session that goes on waiting has read everything. -/
theorem feed_of_poll_waiting {s t : Session} {w : Wire} {reactions : List Reaction}
    (h : s.poll w = (reactions, .waiting t)) : s.feed w.unread = (reactions, .waiting t) := by
  rw [poll, state_of_poll_waiting h] at h
  exact h

/-- A session that has waited goes on where it was. -/
theorem feed_append_of_waiting {s t : Session} {read more : Bytes} {a : List Reaction}
    {r : List Reaction × Progress} (h : s.feed read = (a, .waiting t)) (h' : t.feed more = r) :
    s.feed (read ++ more) = before a r := by
  rw [feed_append, h, ← h']
  rfl

/-- A session that waits has read everything that there is. -/
theorem feed_nil_of_feed {t : Session} {read : Bytes} {reactions : List Reaction}
    (h : (begin []).feed read = (reactions, .waiting t)) : t.feed [] = ([], .waiting t) := by
  have hall := feed_append_of_waiting h (rfl : t.feed [] = t.feed [])
  rw [List.append_nil, h] at hall
  refine Prod.ext ?_ (congrArg Prod.snd hall).symm
  exact List.self_eq_append_right.1 (congrArg Prod.fst hall)

end Session

namespace Server

variable {s s' : Server} {id : String} {c c' : Client} {k k' : Counters} {woken : Bool}
  {effects : List Effect}

/-! ## What a turn does to a life -/

theorem sessionless_deeds (c : Client) (deeds : List Http.Deed) :
    Sessionless (deeds.flatMap (deedEffects c)) := by
  induction deeds with
  | nil => exact sessionless_nil
  | cons d rest ih =>
    refine sessionless_append.2 ⟨?_, ih⟩
    cases d with
    | write bytes => exact sessionless_cons.2 ⟨rfl, sessionless_nil⟩
    | handle r =>
      refine sessionless_cons.2 ⟨rfl, ?_⟩
      cases Service.refusal? r with
      | none => exact sessionless_nil
      | some why => exact sessionless_cons.2 ⟨rfl, sessionless_nil⟩

theorem sessionless_standing (c : Client) (standing : Http.Standing) :
    Sessionless (standing.effects c) := by
  have hclosed : Sessionless [.closed c.id] := sessionless_cons.2 ⟨rfl, sessionless_nil⟩
  cases standing with
  | waiting | paused | switched => exact sessionless_nil
  | closed fault =>
    cases fault with
    | none => exact hclosed
    | some fault => exact sessionless_cons.2 ⟨rfl, hclosed⟩
  | abandoned fault => exact sessionless_cons.2 ⟨rfl, hclosed⟩

/-- A reading of a session that has read before. -/
theorem lived_read {front : List Effect} {t : Session} {read : Bytes} {reactions : List Reaction}
    {r : List Reaction × Progress} {j : Counters} (hfront : Sessionless front)
    (hfeed : (Session.begin []).feed read = (reactions, .waiting t)) (hpoll : t.poll c.wire = r) :
    ({ c with wire := { c.wire with unread := [] }, stage := stageOf r } : Client).Lived
      (front ++ shown j c.id c.peer (reactions, .waiting t) ++ told k c.id c.peer r) := by
  obtain ⟨more, progress⟩ := r
  cases progress with
  | ended o => exact .parted j k rfl hfront hfeed hpoll
  | waiting t' =>
    have hall := Session.feed_append_of_waiting hfeed (Session.feed_of_poll_waiting hpoll)
    have hshown : shown j c.id c.peer (reactions, .waiting t) ++
        told k c.id c.peer (more, .waiting t') =
          shown j c.id c.peer (reactions ++ more, .waiting t') := by
      simp [shown, told]
    rw [List.append_assoc, hshown]
    exact .running j rfl hfront hall

/-- The first reading of a session. -/
theorem lived_began {front : List Effect} {leftover : Bytes} {r : List Reaction × Progress}
    (hfront : Sessionless front) (hpoll : (Session.begin leftover).poll c.wire = r) :
    ({ c with wire := { c.wire with unread := [] }, stage := stageOf r } : Client).Lived
      (front ++ shown k c.id c.peer r) := by
  have hshown : shown k c.id c.peer r =
      shown k c.id c.peer ([], .waiting (.begin [])) ++ told k.enter c.id c.peer r := rfl
  rw [Session.poll_begin] at hpoll
  have hlived := lived_read (c := { c with wire := { c.wire with
    unread := leftover ++ c.wire.unread } }) (k := k.enter) (j := k) hfront Session.feed_nil hpoll
  rw [hshown, ← List.append_assoc]
  exact hlived

/-- A turn takes a life to its next stand. -/
theorem Turned.lived {past : List Effect} (h : Turned k c c' woken k' effects)
    (hlived : c.Lived past) : c'.Lived (past ++ effects) := by
  cases h with
  | moved _ hmove =>
    cases hmove with
    | idle =>
      rw [List.append_nil]
      exact hlived
    | served hstage hpoll =>
      rename_i standing _
      have hfront := hlived.sessionless (by rw [Client.isEchoing, hstage]) (by rw [hstage]; simp)
      refine .unborn ?_ (sessionless_append.2 ⟨hfront, sessionless_append.2
        ⟨sessionless_deeds c _, sessionless_standing c standing⟩⟩)
      cases standing <;> rfl
    | began hstage hpoll =>
      exact lived_began
        (hlived.sessionless (by rw [Client.isEchoing, hstage]) (by rw [hstage]; simp)) hpoll
    | read hstage hpoll =>
      obtain ⟨front, read, reactions, j, hfront, hfeed, rfl⟩ := hlived.of_echoing hstage
      exact lived_read hfront hfeed hpoll
    | gaveUp hstage =>
      have hfront := hlived.sessionless (by rw [Client.isEchoing, hstage]) (by rw [hstage]; simp)
      exact .unborn rfl (sessionless_append.2
        ⟨hfront, sessionless_cons.2 ⟨rfl, sessionless_nil⟩⟩)
  | rested =>
    rw [List.append_nil]
    exact hlived
  | stopped hcancelled hstage =>
    obtain ⟨front, read, reactions, j, hfront, hfeed, rfl⟩ := hlived.of_echoing hstage
    exact .cancelled j rfl hcancelled hfront hfeed
  | dropped _ hecho hended =>
    exact .unborn rfl (sessionless_append.2
      ⟨hlived.sessionless hecho hended, sessionless_cons.2 ⟨rfl, sessionless_nil⟩⟩)

/-! ## Runs -/

/-- What holds at every moment of a run, `past` being its tasks so far. -/
structure Chronicle (s : Server) (past : List Stint) : Prop where
  sound : Sound s
  counters : s.counters = (passages (past.flatMap (·.effects))).foldl Passage.count .zero
  lived : ∀ id c, s.find? id = some c → c.Lived (share id past)
  unknown : ∀ id, s.find? id = none → share id past = []

theorem chronicle_empty (mode : Mode) : Chronicle (empty mode) [] where
  sound := sound_empty mode
  counters := rfl
  lived := fun _ _ h => by cases h
  unknown := fun _ _ => rfl

theorem Chronicle.acted {past : List Stint} (h : Chronicle s past) (a : Action) :
    Chronicle (s.acted a) past := by
  have hsound := h.sound.acted a
  have hoccurs := s.occurs_acted a
  generalize s.acted a = s' at hsound hoccurs
  refine ⟨hsound, hoccurs.counters_eq.trans h.counters, ?_, ?_⟩
  · intro id c hc
    cases hoccurs with
    | nothing => exact h.lived id c hc
    | came peer _ hid =>
      rw [find?_connect_newcomer hid] at hc
      split at hc
      · rename_i heq
        cases hc
        rw [heq, h.unknown _ hid]
        refine .unborn ?_ sessionless_nil
        cases s.mode <;> rfl
      · exact h.lived id c hc
    | failed =>
      rw [find?_wake] at hc
      exact h.lived id c hc
    | @touched other d _ hd w cancelled habort =>
      rw [find?_touch] at hc
      obtain ⟨e, he, rfl⟩ := Option.map_eq_some_iff.1 hc
      obtain rfl : d.id = other := id_of_find? hd
      split
      · rename_i heq
        rw [heq]
        refine (h.lived d.id d hd).congr w fun hcancelled => ?_
        rcases habort with habort | habort
        · exact habort.trans hcancelled
        · exact habort.1
      · exact h.lived id e he
  · intro id hid
    cases hoccurs with
    | nothing => exact h.unknown id hid
    | came peer _ hid' =>
      rw [find?_connect_newcomer hid'] at hid
      split at hid
      · cases hid
      · exact h.unknown id hid
    | failed =>
      rw [find?_wake] at hid
      exact h.unknown id hid
    | touched _ hd w cancelled habort =>
      rw [find?_touch] at hid
      exact h.unknown id (Option.map_eq_none_iff.1 hid)

theorem Chronicle.run {past : List Stint} (h : Chronicle s past) {t : Task} {rest : List Task}
    (hready : s.ready = t :: rest) :
    Chronicle (Server.run { s with ready := rest } t).1
      (past ++ [⟨t, (Server.run { s with ready := rest } t).2⟩]) := by
  have hcounters : (Server.run { s with ready := rest } t).1.counters =
      (passages ((past ++ [(⟨t, (Server.run { s with ready := rest } t).2⟩ : Stint)]).flatMap
        (·.effects))).foldl Passage.count .zero := by
    rw [List.flatMap_append, List.flatMap_singleton, passages_append, List.foldl_append,
      ← h.counters]
    exact counters_run { s with ready := rest } t
  refine ⟨h.sound.run hready, hcounters, ?_, ?_⟩
  · intro id c hc
    rw [share_append]
    cases t with
    | accept =>
      rw [share_cons_of_ne Task.noConfusion]
      rw [show share id [] = [] from rfl, List.append_nil]
      replace hc := (find?_each_take s.arrivals
        { s with ready := rest, arrivals := [] } id).symm.trans hc
      obtain ⟨d, hd, rfl⟩ := Option.map_eq_some_iff.1 hc
      replace hd : s.find? id = some d := hd
      split
      · rename_i hin
        obtain ⟨_, e, he, hstage⟩ := h.sound.arriving id hin
        cases hd.symm.trans he
        exact .unborn rfl ((h.lived id d hd).sessionless (by rw [Client.isEchoing, hstage])
          (by rw [hstage]; simp))
      · exact h.lived id d hd
    | advance other =>
      cases hd : s.find? other with
      | none =>
        rw [run_unknown hd] at hc ⊢
        have hne : Task.advance other ≠ .advance id := by
          intro heq
          rw [Task.advance.inj heq] at hd
          cases hd.symm.trans hc
        rw [share_cons_of_ne hne, show share id [] = [] from rfl, List.append_nil]
        exact h.lived id c hc
      | some d =>
        obtain ⟨d', woken, hturned, hleaves⟩ := turned_run hd rest
        rw [hleaves.find?_eq hd] at hc
        split at hc
        · rename_i heq
          cases hc
          rw [heq, share_cons_self, show share other [] = [] from rfl, List.append_nil]
          exact hturned.lived (h.lived other d hd)
        · rename_i hne
          have hne' : Task.advance other ≠ .advance id := fun heq =>
            hne (Task.advance.inj heq).symm
          rw [share_cons_of_ne hne', show share id [] = [] from rfl, List.append_nil]
          exact h.lived id c hc
  · intro id hid
    rw [share_append]
    have hnone : s.find? id = none := by
      cases t with
      | accept =>
        replace hid := (find?_each_take s.arrivals
          { s with ready := rest, arrivals := [] } id).symm.trans hid
        exact Option.map_eq_none_iff.1 hid
      | advance other =>
        cases hd : s.find? other with
        | none =>
          rw [run_unknown hd] at hid
          exact hid
        | some d =>
          obtain ⟨d', woken, _, hleaves⟩ := turned_run hd rest
          rw [hleaves.find?_eq hd] at hid
          split at hid
          · cases hid
          · exact hid
    rw [h.unknown id hnone, List.nil_append]
    by_cases hother : t = .advance id
    · rw [hother, run_unknown hnone, share_cons_self]
      rfl
    · exact share_cons_of_ne hother _ _

/-- At every moment the share of every connection is the life of its session. -/
theorem chronicle_amid (mode : Mode) (earlier : List (List Action)) (actions : List Action)
    (n : Nat) : Chronicle (amid mode earlier actions n) (stintsTo mode earlier actions n) :=
  amid_induction mode (chronicle_empty mode) (fun _ _ a h => h.acted a)
    (fun _ _ _ _ hready h => h.run hready) earlier actions n

end Server

end WebSocketEcho
