import Mathlib.Data.List.Flatten
import WebSocketEcho.Proofs.Server.Departures
import WebSocketEcho.Proofs.Server.Notices
import WebSocketEcho.Proofs.Server.OpenSessions

/-!
# The log of the sessions

As long as no session is cancelled, the lines of sessions that open and close are a trace of the
counters: each shows the number that it leads to.  `Log.Follows` is this with the counters
themselves, whatever their size; every task follows it.  Together with `Log.Leads`, which counts
without looking at the numbers shown, it becomes `Log.Traces`, where the numbers are those of the
open sessions.

What one session logs is read off its life (`Client.Lived`): it opens, it notes at most one close
frame, and it ends and closes.

`sessions_traced` brings both together with the reader of `Log.recount`, so that the counters after
each step are told by the texts of the log.
-/

namespace WebSocketEcho

namespace Log

/-- A line that neither begins nor ends a session. -/
def Event.isNeutral : Event → Bool
  | .sessionOpened _ _ | .sessionEnded _ _ | .sessionClosed _ _ => false
  | _ => true

/-- From `n` open sessions the lines lead to `m`, and each that opens or closes a session shows the
number behind it.  A session closes in the line behind the one that tells how it has ended. -/
inductive Traces : Nat → List Event → Nat → Prop where
  | nil (n : Nat) : Traces n [] n
  | opened (peer : SocketAddress) {active : UInt64} {n m : Nat} {rest : List Event}
      (hactive : active.toNat = n + 1) (h : Traces (n + 1) rest m) :
      Traces n (.sessionOpened peer active :: rest) m
  | closed (peer : SocketAddress) (o : Outcome) {active : UInt64} {n m : Nat} {rest : List Event}
      (hactive : active.toNat = n) (h : Traces n rest m) :
      Traces (n + 1) (.sessionEnded peer o :: .sessionClosed peer active :: rest) m
  | other {e : Event} (hneutral : e.isNeutral = true) {n m : Nat} {rest : List Event}
      (h : Traces n rest m) : Traces n (e :: rest) m

/-- The lines lead from these counters to those, and show them. -/
inductive Follows : Counters → List Event → Counters → Prop where
  | nil (k : Counters) : Follows k [] k
  | opened (peer : SocketAddress) {k k' : Counters} {rest : List Event}
      (h : Follows k.enter rest k') :
      Follows k (.sessionOpened peer k.enter.active :: rest) k'
  | closed (peer : SocketAddress) (o : Outcome) {k k' : Counters} {rest : List Event}
      (h : Follows k.leave rest k') :
      Follows k (.sessionEnded peer o :: .sessionClosed peer k.leave.active :: rest) k'
  | other {e : Event} (hneutral : e.isNeutral = true) {k k' : Counters} {rest : List Event}
      (h : Follows k rest k') : Follows k (e :: rest) k'

section Follows

variable {k k' k'' : Counters} {a b log : List Event} {e : Event} {n m : Nat}

theorem Follows.append (h : Follows k a k') (h' : Follows k' b k'') : Follows k (a ++ b) k'' := by
  induction h with
  | nil => exact h'
  | opened peer _ ih => exact .opened peer (ih h')
  | closed peer o _ ih => exact .closed peer o (ih h')
  | other hneutral _ ih => exact .other hneutral (ih h')

theorem follows_of_neutral (h : ∀ e ∈ log, e.isNeutral = true) (k : Counters) :
    Follows k log k := by
  induction log with
  | nil => exact .nil k
  | cons e rest ih =>
    exact .other (h e List.mem_cons_self) (ih fun d hd => h d (List.mem_cons_of_mem e hd))

/-- The number shown and the greatest before it are the counters of a session that opens. -/
theorem recount_enter (k : Counters) :
    Notice.recount k (.opened k.enter.active.toNat) = k.enter := by
  rw [Notice.recount, UInt64.ofNat_toNat]
  rfl

theorem recount_leave (k : Counters) :
    Notice.recount k (.closed k.leave.active.toNat) = k.leave := by
  rw [Notice.recount, UInt64.ofNat_toNat]
  rfl

/-- Counters that the lines follow are told by them. -/
theorem Follows.recount (h : Follows k log k') :
    (log.filterMap Event.notice?).foldl Notice.recount k = k' := by
  induction h with
  | nil => rfl
  | @opened peer k _ _ _ ih =>
    rw [List.filterMap_cons_some (by rfl), List.foldl_cons, recount_enter]
    exact ih
  | @closed peer o k _ _ _ ih =>
    rw [List.filterMap_cons_none (by rfl), List.filterMap_cons_some (by rfl), List.foldl_cons,
      recount_leave]
    exact ih
  | @other e hneutral k _ _ _ ih =>
    have hnone : e.notice? = none := by
      cases e with
      | sessionOpened | sessionClosed => cases hneutral
      | _ => rfl
    rw [List.filterMap_cons_none hnone]
    exact ih

/-- The number shown is that of the open sessions, as long as 64 bits are enough for it. -/
theorem Follows.traces (h : Follows k log k') (hleads : Leads n log m) (hk : k.active.toNat = n)
    (hroom : ∀ p j, p <+: log → Leads n p j → j < 2 ^ 64) : Traces n log m := by
  induction h generalizing n with
  | nil =>
    cases hleads
    exact .nil _
  | @opened peer k _ rest _ ih =>
    cases hleads with
    | other hquiet => cases hquiet.1
    | opened _ _ hleads =>
      have hone : n + 1 < 2 ^ 64 :=
        hroom [.sessionOpened peer k.enter.active] (n + 1)
          (List.cons_prefix_cons.2 ⟨rfl, List.nil_prefix⟩) (.opened _ _ (.nil _))
      have hactive : k.enter.active.toNat = n + 1 := by
        rw [← hk]
        exact Counters.toNat_saturatingSucc (by omega)
      refine .opened peer hactive (ih hleads hactive fun p j hp hj => ?_)
      exact hroom _ j (List.cons_prefix_cons.2 ⟨rfl, hp⟩) (.opened _ _ hj)
  | @closed peer o k _ rest _ ih =>
    cases hleads with
    | other hquiet hleads =>
      cases hleads with
      | other hquiet' => cases hquiet'.2
      | closed _ _ hleads =>
        rename_i n
        have hactive : k.leave.active.toNat = n := by
          have hpred := Counters.toNat_saturatingPred k.active
          rw [hk] at hpred
          exact hpred
        refine .closed peer o hactive (ih hleads hactive fun p j hp hj => ?_)
        exact hroom _ j (List.cons_prefix_cons.2 ⟨rfl, List.cons_prefix_cons.2 ⟨rfl, hp⟩⟩)
          (.other hquiet (.closed _ _ hj))
  | @other e hneutral k _ rest _ ih =>
    cases hleads with
    | opened | closed => cases hneutral
    | other hquiet hleads =>
      refine .other hneutral (ih hleads hk fun p j hp hj => ?_)
      exact hroom _ j (List.cons_prefix_cons.2 ⟨rfl, hp⟩) (.other hquiet hj)

end Follows

end Log

namespace Server

variable {s s' : Server} {id : String} {c c' : Client} {k k' : Counters} {effects : List Effect}

/-! ## What a task logs -/

theorem neutral_of_sessionless (h : Sessionless effects) :
    ∀ e ∈ logged effects, e.isNeutral = true := by
  intro e he
  obtain ⟨effect, heffect, hlogged⟩ := List.mem_filterMap.1 he
  cases effect with
  | logged event =>
    cases hlogged
    have hapart := h _ heffect
    cases e with
    | sessionOpened | sessionEnded | sessionClosed => cases hapart
    | _ => rfl
  | wrote | closed | passed => cases hlogged

theorem sessionless_take (arrivals : List Arrival) (s : Server) :
    Sessionless (each take s arrivals).2 := by
  intro e he
  rcases logged_of_mem_accept he with ⟨peer, rfl⟩ | ⟨cause, rfl⟩ <;> rfl

theorem neutral_reactions (id : String) (reactions : List Reaction) :
    ∀ e ∈ logged (reactions.map (reactionEffect id)), e.isNeutral = true := by
  intro e he
  obtain ⟨effect, heffect, hlogged⟩ := List.mem_filterMap.1 he
  obtain ⟨reaction, _, rfl⟩ := List.mem_map.1 heffect
  cases reaction with
  | send r => cases hlogged
  | note farewell =>
    cases hlogged
    rfl

/-- The counters after a reading are those that its lines show. -/
theorem follows_told (k : Counters) (id : String) (peer : SocketAddress)
    (r : List Reaction × Progress) :
    Log.Follows k (logged (told k id peer r)) (counted k r) := by
  obtain ⟨reactions, progress⟩ := r
  rw [told, logged_append]
  refine (Log.follows_of_neutral (neutral_reactions id reactions) k).append ?_
  cases progress with
  | waiting t => exact .nil k
  | ended o => exact .closed peer o (.nil k.leave)

theorem Move.follows {woken : Bool} (h : Move k c c' woken k' effects) :
    Log.Follows k (logged effects) k' := by
  cases h with
  | idle => exact .nil k
  | served =>
    refine Log.follows_of_neutral (neutral_of_sessionless ?_) k
    exact sessionless_append.2 ⟨sessionless_deeds c _, sessionless_standing c _⟩
  | began => exact .opened c.peer (follows_told k.enter c.id c.peer _)
  | read => exact follows_told k c.id c.peer _
  | gaveUp => exact .other rfl (.nil k)

/-- What a task logs leads to the counters behind it. -/
theorem follows_run (hkept : ∀ id c, s.find? id = some c → c.cancelled = false) (t : Task)
    (rest : List Task) :
    Log.Follows s.counters (logged (Server.run { s with ready := rest } t).2)
      (Server.run { s with ready := rest } t).1.counters := by
  cases t with
  | accept =>
    have hcounters := (each_take_keeps s.arrivals
      { s with ready := rest, arrivals := [] }).2.2.2.1
    show Log.Follows s.counters (logged (each take _ s.arrivals).2)
      (each take { s with ready := rest, arrivals := [] } s.arrivals).1.counters
    rw [hcounters]
    exact Log.follows_of_neutral (neutral_of_sessionless (sessionless_take _ _)) s.counters
  | advance id =>
    cases hc : s.find? id with
    | none =>
      rw [run_unknown hc]
      exact .nil s.counters
    | some c =>
      obtain ⟨c', woken, hturned, _⟩ := turned_run hc rest
      exact (hturned.move (hkept id c hc)).follows

/-! ## What a session logs -/

/-- The lines of the session on a connection. -/
def sessionLines (id : String) (past : List Stint) : List Log.Event :=
  logged ((share id past).filter Effect.isOfSession)

end Server

/-- The close frame that a reaction notes. -/
def Reaction.note? : Reaction → Option (Option Farewell)
  | .note farewell => some farewell
  | .send _ => none

/-- What a session logs on a connection, depending on where it stands. -/
inductive Client.Logs (c : Client) : List Log.Event → Prop where
  /-- No session has begun. -/
  | unopened (h : c.isEchoing = false) : c.Logs []
  | running (opened : UInt64) (h : c.isEchoing = true) : c.Logs [.sessionOpened c.peer opened]
  | closed (opened closed : UInt64) (noted : List (Option Farewell)) (o : Outcome)
      (h : c.stage = .ended) (hnoted : noted.length ≤ 1) :
      c.Logs (.sessionOpened c.peer opened :: noted.map .closeReceived ++
        [.sessionEnded c.peer o, .sessionClosed c.peer closed])

namespace Session

theorem notes_of_sends (replies : List Reply) :
    (replies.map Reaction.send).filterMap Reaction.note? = [] := by
  refine List.filterMap_eq_nil_iff.2 fun r hr => ?_
  obtain ⟨reply, _, rfl⟩ := List.mem_map.1 hr
  rfl

/-- A reading notes at most one close frame. -/
theorem notes_of_feed (t : Session) (unread : Bytes) :
    ((t.feed unread).1.filterMap Reaction.note?).length ≤ 1 := by
  have hcomes := comesTo_consume t.gathering t.echoed (t.buffer ++ unread)
  rw [show consume t.gathering t.echoed (t.buffer ++ unread) [] = t.feed unread from rfl] at hcomes
  generalize t.feed unread = r at hcomes
  cases hcomes with
  | waits replies | fails replies =>
    rw [notes_of_sends]
    exact Nat.zero_le 1
  | closes replies farewell =>
    rw [List.filterMap_append, notes_of_sends]
    exact Nat.le_refl 1

theorem notes_of_poll (t : Session) (w : Wire) :
    ((t.poll w).1.filterMap Reaction.note?).length ≤ 1 := by
  have hread := t.notes_of_feed w.unread
  rw [poll]
  cases w.state with
  | present | finished => exact hread
  | reset => exact Nat.zero_le 1
  | vanished =>
    dsimp only
    split
    · exact Nat.le_trans
        ((List.takeWhile_sublist _).filterMap Reaction.note?).length_le hread
    · exact hread

end Session

open Server in
theorem logged_reactions (id : String) (reactions : List Reaction) :
    logged ((reactions.map (reactionEffect id)).filter Effect.isOfSession) =
      (reactions.filterMap Reaction.note?).map .closeReceived := by
  induction reactions with
  | nil => rfl
  | cons r rest ih =>
    cases r with
    | send reply => exact ih
    | note farewell => exact congrArg (Log.Event.closeReceived farewell :: ·) ih

theorem filter_sessionless {effects : List Effect} (h : Sessionless effects) :
    effects.filter Effect.isOfSession = [] :=
  List.filter_eq_nil_iff.2 fun e he => by
    rw [h e he]
    exact Bool.false_ne_true

open Server in
/-- The lines of a life, in order. -/
theorem Client.Lived.logs {c : Client} {past : List Effect} (h : c.Lived past)
    (hcancelled : c.cancelled = false) : c.Logs (logged (past.filter Effect.isOfSession)) := by
  have hopened : ∀ {front : List Effect} {t : Session} {read : Bytes} {reactions : List Reaction}
      (k : Counters), Sessionless front →
      (Session.begin []).feed read = (reactions, .waiting t) →
      logged ((front ++ shown k c.id c.peer (reactions, .waiting t)).filter Effect.isOfSession) =
        [.sessionOpened c.peer k.enter.active] := by
    intro front t read reactions k hfront hfeed
    obtain ⟨replies, rfl, _⟩ := Session.replies_of_feed hfeed
    rw [List.filter_append, filter_sessionless hfront, List.nil_append, shown, told,
      List.append_nil]
    show Log.Event.sessionOpened c.peer k.enter.active :: logged _ = _
    rw [logged_reactions, Session.notes_of_sends]
    rfl
  cases h with
  | unborn hecho hfront =>
    rw [filter_sessionless hfront]
    exact .unopened hecho
  | running k hstage hfront hfeed =>
    rw [hopened k hfront hfeed]
    exact .running _ (by rw [Client.isEchoing, hstage])
  | @parted front t read reactions more w o k k' hstage hfront hfeed hpoll =>
    have hnoted : (more.filterMap Reaction.note?).length ≤ 1 := by
      have hnoted := t.notes_of_poll w
      rw [hpoll] at hnoted
      exact hnoted
    rw [List.filter_append, logged_append, hopened k hfront hfeed, told, List.filter_append,
      logged_append, logged_reactions]
    exact .closed _ k'.leave.active _ o hstage hnoted
  | cancelled _ _ h =>
    rw [hcancelled] at h
    cases h

open Server in
/-- Where nothing has been logged of a session, none has begun. -/
theorem Client.Lived.sessionless_of_unopened {c : Client} {past : List Effect} (h : c.Lived past)
    (hnone : logged (past.filter Effect.isOfSession) = []) : Sessionless past := by
  have hopened : ∀ {front rest : List Effect} (k : Counters) (r : List Reaction × Progress),
      logged ((front ++ (shown k c.id c.peer r ++ rest)).filter Effect.isOfSession) ≠ [] := by
    intro front rest k r hnil
    rw [List.filter_append, logged_append] at hnil
    have hback := (List.append_eq_nil_iff.1 hnil).2
    exact absurd hback (List.cons_ne_nil (Log.Event.sessionOpened c.peer k.enter.active) _)
  cases h with
  | unborn _ hfront => exact hfront
  | running k =>
    rw [← List.append_nil (shown _ _ _ _)] at hnone
    exact absurd hnone (hopened k _)
  | parted k | cancelled k =>
    rw [List.append_assoc] at hnone
    exact absurd hnone (hopened k _)

/-- An action that cancels no session. -/
def Action.Spares (mode : Mode) (a : Action) : Prop := mode = .sessions → ∀ id, a ≠ .abort id

namespace Server

variable {s s' : Server} {id : String} {c c' : Client} {k k' : Counters} {effects : List Effect}

/-! ## Runs -/

/-- What holds at every moment of a run without cancelled sessions. -/
structure Recorded (mode : Mode) (s : Server) (past : List Stint) : Prop where
  mode : s.mode = mode
  chronicle : Chronicle s past
  uncancelled : ∀ id c, s.find? id = some c → c.cancelled = false
  leads : Log.Leads 0 (lines past) s.running
  follows : Log.Follows .zero (lines past) s.counters

theorem recorded_empty (mode : Mode) : Recorded mode (empty mode) [] where
  mode := rfl
  chronicle := chronicle_empty mode
  uncancelled := fun _ _ h => by cases h
  leads := .nil 0
  follows := .nil .zero

theorem Recorded.acted {mode : Mode} {past : List Stint} (h : Recorded mode s past) {a : Action}
    (ha : a.Spares mode) : Recorded mode (s.acted a) past := by
  have hoccurs := s.occurs_acted a
  have hchronicle := h.chronicle.acted a
  generalize s.acted a = s' at hoccurs hchronicle
  refine ⟨hoccurs.mode_eq.trans h.mode, hchronicle, ?_, ?_, ?_⟩
  · intro id c hc
    cases hoccurs with
    | nothing => exact h.uncancelled id c hc
    | came peer _ hid =>
      rw [find?_connect_newcomer hid] at hc
      split at hc
      · cases hc
        exact Client.cancelled_newcomer _ _ _
      · exact h.uncancelled id c hc
    | failed =>
      rw [find?_wake] at hc
      exact h.uncancelled id c hc
    | @touched other d _ hd w cancelled habort =>
      rw [find?_touch] at hc
      obtain ⟨e, he, rfl⟩ := Option.map_eq_some_iff.1 hc
      split
      · rcases habort with habort | ⟨_, hmode, habort⟩
        · exact habort.trans (h.uncancelled other d hd)
        · exact absurd habort (ha (h.mode.symm.trans hmode) other)
      · exact h.uncancelled id e he
  · rw [hoccurs.running_eq h.chronicle.sound.nodup]
    exact h.leads
  · rw [hoccurs.counters_eq]
    exact h.follows

theorem Recorded.run {mode : Mode} {past : List Stint} (h : Recorded mode s past) {t : Task}
    {rest : List Task} (hready : s.ready = t :: rest) :
    Recorded mode (Server.run { s with ready := rest } t).1
      (past ++ [⟨t, (Server.run { s with ready := rest } t).2⟩]) := by
  have harriving : ∀ id, .client id ∈ s.arrivals → ∀ c, s.find? id = some c →
      c.stage = .arriving ∨ c.stage = .requesting .fresh := by
    intro id hid c hc
    obtain ⟨_, d, hd, hstage⟩ := h.chronicle.sound.arriving id hid
    cases hc.symm.trans hd
    exact Or.inl hstage
  obtain ⟨hleads, _⟩ := leads_run h.chronicle.sound.nodup harriving h.uncancelled t rest
  have hfollows := follows_run h.uncancelled t rest
  have hkept : (Server.run { s with ready := rest } t).1.mode = s.mode ∧
      ∀ id c, (Server.run { s with ready := rest } t).1.find? id = some c →
        c.cancelled = false := by
    cases t with
    | accept =>
      refine ⟨(each_take_keeps s.arrivals { s with ready := rest, arrivals := [] }).1,
        fun id c hc => ?_⟩
      replace hc := (find?_each_take s.arrivals
        { s with ready := rest, arrivals := [] } id).symm.trans hc
      obtain ⟨d, hd, rfl⟩ := Option.map_eq_some_iff.1 hc
      have hd' := h.uncancelled id d hd
      split <;> exact hd'
    | advance other =>
      cases hd : s.find? other with
      | none =>
        rw [run_unknown hd]
        exact ⟨rfl, h.uncancelled⟩
      | some d =>
        obtain ⟨d', woken, hturned, hleaves⟩ := turned_run hd rest
        refine ⟨hleaves.mode, fun id c hc => ?_⟩
        rw [hleaves.find?_eq hd] at hc
        split at hc
        · cases hc
          exact hturned.cancelled_eq.trans (h.uncancelled other d hd)
        · exact h.uncancelled id c hc
  refine ⟨hkept.1.trans h.mode, h.chronicle.run hready, hkept.2, ?_, ?_⟩
  · rw [lines_concat]
    exact h.leads.append hleads
  · rw [lines_concat]
    exact h.follows.append hfollows

theorem recorded_reached {mode : Mode} {steps : List (List Action)}
    (hspares : ∀ actions ∈ steps, ∀ a ∈ actions, a.Spares mode) :
    Recorded mode (reached mode steps) ((empty mode).runStints steps) := by
  have h := steps_induction_of (P := Recorded mode) (A := Action.Spares mode)
    (fun s past t rest hready h => h.run hready) (fun s past a ha h => h.acted ha)
    (recorded_empty mode) hspares
  rw [List.nil_append] at h
  exact h

/-- Where an entry stands, there stands its step. -/
theorem exists_step_of_entries {steps : List (List Action)} {front back : List Entry}
    {entry : Entry} (h : (s.steps steps).2 = front ++ entry :: back) :
    ∃ earlier actions later, steps = earlier ++ actions :: later ∧
      front = (s.steps earlier).2 ∧ entry = ((s.steps earlier).1.step actions).2 := by
  induction steps generalizing s front with
  | nil => exact absurd h.symm (by simp [Server.steps])
  | cons actions rest ih =>
    rw [steps_cons] at h
    cases front with
    | nil =>
      obtain ⟨rfl, _⟩ := List.cons.inj h
      exact ⟨[], actions, rest, rfl, rfl, rfl⟩
    | cons first front =>
      obtain ⟨rfl, htail⟩ := List.cons.inj h
      obtain ⟨earlier, actions', later, rfl, rfl, rfl⟩ := ih htail
      refine ⟨actions :: earlier, actions', later, rfl, ?_, ?_⟩
      · rw [steps_cons]
      · rw [steps_cons]

/-- The log of a run. -/
def log (mode : Mode) (steps : List (List Action)) : List Log.Event :=
  ((empty mode).steps steps).2.flatMap (·.log)

theorem log_eq (mode : Mode) (steps : List (List Action)) :
    log mode steps = lines ((empty mode).runStints steps) := by
  rw [log, flatMap_log, lines, flatMap_runStints]
  rfl

/-- The lines of one session stand in the log in their order. -/
theorem sessionLines_sublist (id : String) (past : List Stint) :
    (sessionLines id past).Sublist (lines past) := by
  have hshare : (share id past).Sublist (past.flatMap (·.effects)) :=
    (List.filter_sublist (l := past)).flatMap _
  exact (List.filter_sublist.trans hshare).filterMap _

theorem exists_of_mem_runStints {steps : List (List Action)} {st : Stint}
    (h : st ∈ s.runStints steps) : ∃ s' : Server, st.effects = (s'.run st.task).2 := by
  induction steps generalizing s with
  | nil => cases h
  | cons actions rest ih =>
    rcases List.mem_append.1 h with h | h
    · exact exists_of_mem_stints h
    · exact ih h

/-- A line about a session is of the session on some connection. -/
theorem exists_sessionLines {steps : List (List Action)} {e : Log.Event}
    (he : e ∈ lines (s.runStints steps)) (hsession : (Effect.logged e).isOfSession = true) :
    ∃ id, e ∈ sessionLines id (s.runStints steps) := by
  obtain ⟨effect, heffect, hlogged⟩ := List.mem_filterMap.1 he
  cases effect with
  | wrote | closed | passed => cases hlogged
  | logged =>
    cases hlogged
    obtain ⟨st, hst, hin⟩ := List.mem_flatMap.1 heffect
    obtain ⟨s', heffects⟩ := exists_of_mem_runStints hst
    cases htask : st.task with
    | accept =>
      rw [heffects, htask] at hin
      rw [sessionless_take s'.arrivals { s' with arrivals := [] } _ hin] at hsession
      cases hsession
    | advance id =>
      have hshare : Effect.logged e ∈ share id (s.runStints steps) :=
        List.mem_flatMap.2
          ⟨st, List.mem_filter.2 ⟨hst, by rw [htask]; exact beq_self_eq_true _⟩, hin⟩
      exact ⟨id, List.mem_filterMap.2 ⟨_, List.mem_filter.2 ⟨hshare, hsession⟩, rfl⟩⟩

/-- What the log of a run tells of its sessions. -/
structure Traced (mode : Mode) (steps : List (List Action)) : Prop where
  /-- Each session that opens or closes shows how many are open behind it, beginning from none. -/
  trace : Log.Traces 0 (log mode steps) (Log.openCount (log mode steps))
  /-- A connection logs one session, if it comes to that, and none waits to begin. -/
  session : ∀ id c, (reached mode steps).find? id = some c →
    (∀ leftover, c.stage ≠ .starting leftover) ∧
      c.Logs (sessionLines id ((empty mode).runStints steps))
  /-- On a server of sessions each connection has one. -/
  begun : mode = .sessions → ∀ id c, (reached mode steps).find? id = some c →
    sessionLines id ((empty mode).runStints steps) ≠ []
  /-- Each line about a session is one of these, in their order. -/
  owned : ∀ e ∈ log mode steps, (Effect.logged e).isOfSession = true → ∃ id c,
    (reached mode steps).find? id = some c ∧ e ∈ sessionLines id ((empty mode).runStints steps)
  order : ∀ id, (sessionLines id ((empty mode).runStints steps)).Sublist (log mode steps)
  /-- After each step the counters are those that the texts up to there tell. -/
  recovered : ∀ front entry back, ((empty mode).steps steps).2 = front ++ entry :: back →
    entry.counters = Log.recount (((front ++ [entry]).flatMap (·.log)).map (·.line))

/-- The texts of a run without cancelled sessions tell its counters. -/
theorem counters_recount {mode : Mode} {steps : List (List Action)}
    (hspares : ∀ actions ∈ steps, ∀ a ∈ actions, a.Spares mode) :
    (reached mode steps).counters = Log.recount ((log mode steps).map (·.line)) := by
  have hnotices : (fun e : Log.Event => Log.notice? e.line) = Log.Event.notice? :=
    funext Log.notice?_line
  rw [Log.recount, List.filterMap_map, Function.comp_def, hnotices, log_eq]
  exact (recorded_reached hspares).follows.recount.symm

/-- On a server of sessions each connection logs that its session opens. -/
theorem sessionLines_ne_nil {steps : List (List Action)}
    (h : Recorded .sessions (reached .sessions steps) ((empty .sessions).runStints steps))
    (hc : (reached .sessions steps).find? id = some c)
    (hstarted : ∀ leftover, c.stage ≠ .starting leftover) :
    sessionLines id ((empty .sessions).runStints steps) ≠ [] := by
  intro hnone
  have hpassages : passagesOf id (history steps) = [] := by
    have hapart := (h.chronicle.lived id c hc).sessionless_of_unopened hnone
    rw [history, entries, ← flatMap_runStints, passagesOf_share, hapart.passages]
    rfl
  have haccounted := (kept_after steps).1.accounted id c hc
  rw [hpassages, Client.Accounted] at haccounted
  cases hstage : c.stage with
  | starting leftover => exact hstarted leftover hstage
  | echoing | arriving | requesting | abandoned =>
    rw [hstage] at haccounted
    cases haccounted
  | ended =>
    rw [hstage] at haccounted
    rcases haccounted with haccounted | ⟨_, hcancelled⟩
    · cases haccounted
    · rw [h.uncancelled id c hc] at hcancelled
      cases hcancelled

/-- The log is an exact trace of the counters, and of each session, whatever the clients do, as long
as no session is cancelled. -/
theorem sessions_traced {mode : Mode} {steps : List (List Action)}
    (hspares : ∀ actions ∈ steps, ∀ a ∈ actions, a.Spares mode)
    (hroom : ∀ p, p <+: log mode steps → Log.openCount p < 2 ^ 64) : Traced mode steps := by
  have h := recorded_reached hspares
  have hnever : ∀ id c, (reached mode steps).find? id = some c →
      ∀ leftover, c.stage ≠ .starting leftover := by
    intro id c hc leftover hstage
    have hready := h.chronicle.sound.stirred id c hc (by rw [Client.IsStirred, hstage]; trivial)
    rw [ready_reached] at hready
    cases hready
  constructor
  · have hleads := h.leads
    rw [log_eq] at hroom ⊢
    rw [hleads.openCount_eq]
    refine h.follows.traces hleads rfl fun p j hp hj => ?_
    rw [← hj.openCount_eq]
    exact hroom p hp
  · intro id c hc
    exact ⟨hnever id c hc, (h.chronicle.lived id c hc).logs (h.uncancelled id c hc)⟩
  · rintro rfl id c hc
    exact sessionLines_ne_nil h hc (hnever id c hc)
  · intro e he hsession
    rw [log_eq] at he
    obtain ⟨id, hid⟩ := exists_sessionLines he hsession
    cases hc : (reached mode steps).find? id with
    | none =>
      rw [sessionLines, h.chronicle.unknown id hc] at hid
      cases hid
    | some c => exact ⟨id, c, hc, hid⟩
  · intro id
    rw [log_eq]
    exact sessionLines_sublist id _
  · intro front entry back hentries
    obtain ⟨earlier, actions, later, rfl, rfl, rfl⟩ := exists_step_of_entries hentries
    have hprefix : ∀ actions' ∈ earlier ++ [actions], ∀ a ∈ actions', a.Spares mode := by
      intro actions' hactions'
      refine hspares actions' ?_
      rcases List.mem_append.1 hactions' with hin | hin
      · exact List.mem_append_left _ hin
      · rw [List.mem_singleton.1 hin]
        simp
    have hcounters := counters_recount hprefix
    rw [reached_concat, log, steps_append] at hcounters
    exact hcounters

/-- Two sessions end in the step in which a third begins, one of them with a close frame. -/
def threeSessions : List (List Action) :=
  [[.connect "a" loopback, .connect "b" loopback],
    [.send "a" goodbye.bytes, .vanish "b", .connect "c" loopback]]

theorem threeSessions_traced :
    (∀ actions ∈ threeSessions, ∀ a ∈ actions, a.Spares .sessions) ∧
      (∀ p, p <+: log .sessions threeSessions → Log.openCount p < 2 ^ 64) ∧
      Log.Traces 0
        [.sessionOpened loopback 1, .sessionOpened loopback 2,
          .closeReceived (some ⟨⟨1000⟩, [0x6F, 0x6B]⟩), .sessionEnded loopback (.peerClosed 0),
          .sessionClosed loopback 1, .sessionEnded loopback (.failed (.protocol .unfinished)),
          .sessionClosed loopback 0, .sessionOpened loopback 1] 1 ∧
      Log.recount ((log .sessions threeSessions).map (·.line)) = ⟨1, 2⟩ := by
  have hspares : ∀ actions ∈ threeSessions, ∀ a ∈ actions, a.Spares .sessions := by
    intro actions hactions a ha _ id
    rintro rfl
    simp only [threeSessions, List.mem_cons, List.not_mem_nil, or_false] at hactions
    rcases hactions with rfl | rfl <;> simp at ha
  have hlog : log .sessions threeSessions =
      [.sessionOpened loopback 1, .sessionOpened loopback 2,
        .closeReceived (some ⟨⟨1000⟩, [0x6F, 0x6B]⟩), .sessionEnded loopback (.peerClosed 0),
        .sessionClosed loopback 1, .sessionEnded loopback (.failed (.protocol .unfinished)),
        .sessionClosed loopback 0, .sessionOpened loopback 1] := by
    decide +kernel
  have hroom : ∀ p, p <+: log .sessions threeSessions → Log.openCount p < 2 ^ 64 := by
    intro p hp
    have hle := Log.openCount_le_length p
    have hp := hp.length_le
    rw [hlog] at hp
    exact Nat.lt_of_le_of_lt (Nat.le_trans hle hp) (by decide)
  have htraced := sessions_traced hspares hroom
  have htrace := htraced.trace
  rw [hlog] at htrace
  refine ⟨hspares, hroom, htrace, ?_⟩
  obtain ⟨first, last, hentries, hcounters⟩ : ∃ first last : Entry,
      ((empty .sessions).steps threeSessions).2 = [first] ++ [last] ∧
        last.counters = ⟨1, 2⟩ := by
    refine ⟨_, _, rfl, ?_⟩
    decide +kernel
  have hrecount := htraced.recovered [first] last [] hentries
  rw [← hentries] at hrecount
  exact hrecount.symm.trans hcounters

end Server

end WebSocketEcho
