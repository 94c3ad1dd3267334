import WebSocketEcho.Proofs.Http.StatusLine
import WebSocketEcho.Proofs.Report.Rendered
import WebSocketEcho.Proofs.Server.HandOver
import WebSocketEcho.Proofs.Server.Upgrades

/-!
# The status page tells the truth

Whatever the clients of a server that listens do, and at every moment of it: the counters are the
number of open sessions that the log tells and its peak, who asks for the status page is shown these
two numbers as they were when the request was routed, and a refused handshake leaves a warning and
nothing else (`status_page_truthful`).  The body of the page is the report, except that answers to
`HEAD` and `CONNECT` have none (`head_and_connect_without_body`).

`Truthful` takes the effects of a run in pieces, with the counters that the lines of the log make.
A piece is an `Exchange`: the line of a request for the page with the page right behind it, or with
the line that it could not be written, or an effect that has nothing to do with the page.
-/

namespace WebSocketEcho

open Http (Shows)

namespace Service

variable {k : Counters} {r : Http.Request}

/-- The status page is what all paths but one show. -/
theorem status_answer_eq_ok_iff :
    (answer k r).status = .ok ↔ Route.ofPath r.target.effectivePath = .status := by
  rw [answer]
  cases Route.ofPath r.target.effectivePath with
  | status => exact iff_of_true rfl rfl
  | echo =>
    dsimp only
    rw [Handshake.answer]
    cases Handshake.key r with
    | ok key => constructor <;> intro h <;> cases h
    | error why => cases why <;> constructor <;> intro h <;> cases h

theorem answer_of_status (h : Route.ofPath r.target.effectivePath = .status) :
    answer k r = ⟨.ok, [], (Report.ofCounters k).render⟩ ∧ refusal? r = none := by
  rw [answer, refusal?, h]
  exact ⟨rfl, rfl⟩

end Service

/-- A request for the status page. -/
def Log.Event.asksForPage : Log.Event → Bool
  | .requested _ _ target => Route.ofPath target.effectivePath = .status
  | _ => false

/-- An effect that neither asks for the status page nor shows it. -/
def Effect.IsOther : Effect → Prop
  | .wrote _ bytes => ¬ Shows .ok bytes
  | .logged e => e.asksForPage = false
  | .closed _ | .passed _ => True

namespace Server

variable {s s' : Server} {id : String} {c c' : Client} {k : Counters} {effects : List Effect}

/-- What stays together in a run: who asks for the status page is shown it for the counters `k` of
this moment, if it can be written. -/
inductive Exchange (k : Counters) : List Effect → Prop where
  | page (peer : SocketAddress) (id : String) (r : Http.Request) (keepAlive : Bool)
      (hroute : Route.ofPath r.target.effectivePath = .status) :
      Exchange k [.logged (.requested peer r.method r.target),
        .wrote id (Http.frame r keepAlive (Service.answer k r)).bytes]
  | unwritten (peer : SocketAddress) (method : Bytes) (target : Http.Target) :
      Exchange k [.logged (.requested peer method target),
        .logged (.connectionFailed peer .unwritable)]
  | other {e : Effect} (h : e.IsOther) : Exchange k [e]

/-- Effects that consist of exchanges.  The counters are `k` at first and follow the lines. -/
inductive Truthful : Counters → List Effect → Prop where
  | nil (k : Counters) : Truthful k []
  | cons {k : Counters} {exchange rest : List Effect} (hfirst : Exchange k exchange)
      (h : Truthful ((logged exchange).foldl Log.Event.count k) rest) :
      Truthful k (exchange ++ rest)

section Truthful

variable {a b rest : List Effect}

theorem Truthful.append (h : Truthful k a)
    (h' : Truthful ((logged a).foldl Log.Event.count k) b) : Truthful k (a ++ b) := by
  induction h with
  | nil => exact h'
  | cons hfirst _ ih =>
    rw [logged_append, List.foldl_append] at h'
    rw [List.append_assoc]
    exact .cons hfirst (ih h')

theorem Truthful.page (peer : SocketAddress) (id : String) {r : Http.Request} (keepAlive : Bool)
    (hroute : Route.ofPath r.target.effectivePath = .status) (h : Truthful k rest) :
    Truthful k (.logged (.requested peer r.method r.target) ::
      .wrote id (Http.frame r keepAlive (Service.answer k r)).bytes :: rest) :=
  .cons (.page peer id r keepAlive hroute) h

theorem Truthful.unwritten (peer : SocketAddress) (method : Bytes) (target : Http.Target)
    (h : Truthful k rest) :
    Truthful k (.logged (.requested peer method target) ::
      .logged (.connectionFailed peer .unwritable) :: rest) :=
  .cons (.unwritten peer method target) h

theorem Truthful.wrote (id : String) {bytes : Bytes} (hshows : ¬ Shows .ok bytes)
    (h : Truthful k rest) : Truthful k (.wrote id bytes :: rest) :=
  .cons (.other (e := .wrote id bytes) hshows) h

theorem Truthful.line {l : Log.Event} (hother : l.asksForPage = false)
    (h : Truthful (l.count k) rest) : Truthful k (.logged l :: rest) :=
  .cons (.other (e := .logged l) hother) h

theorem Truthful.closed (id : String) (h : Truthful k rest) : Truthful k (.closed id :: rest) :=
  .cons (.other (e := .closed id) trivial) h

theorem Truthful.passed (p : Passage) (h : Truthful k rest) : Truthful k (.passed p :: rest) :=
  .cons (.other (e := .passed p) trivial) h

/-- Every effect belongs to an exchange, with the counters of the lines before that. -/
theorem Truthful.exists_exchange {before after : List Effect} {e : Effect} (h : Truthful k effects)
    (hsplit : effects = before ++ e :: after) :
    ∃ front lead trail rest, before = front ++ lead ∧ after = trail ++ rest ∧
      Exchange ((logged front).foldl Log.Event.count k) (lead ++ e :: trail) := by
  induction h generalizing before with
  | nil => simp at hsplit
  | @cons k exchange effects hfirst h ih =>
    rcases List.append_eq_append_iff.1 hsplit with
      ⟨more, hbefore, heffects⟩ | ⟨back, hexchange, hback⟩
    · obtain ⟨front, lead, trail, rest, rfl, rfl, hin⟩ := ih heffects
      refine ⟨exchange ++ front, lead, trail, rest, ?_, rfl, ?_⟩
      · rw [hbefore, List.append_assoc]
      · rw [logged_append, List.foldl_append]
        exact hin
    · cases back with
      | nil =>
        rw [List.append_nil] at hexchange
        have heffects : effects = [] ++ e :: after := hback.symm
        obtain ⟨front, lead, trail, rest, hnil, rfl, hin⟩ := ih heffects
        obtain ⟨rfl, rfl⟩ := List.append_eq_nil_iff.1 hnil.symm
        refine ⟨exchange, [], trail, rest, ?_, rfl, hin⟩
        rw [hexchange, List.append_nil]
      | cons d trail =>
        cases hback
        exact ⟨[], before, trail, effects, rfl, rfl, hexchange ▸ hfirst⟩

theorem append_cons_eq_pair {lead trail : List Effect} {e x y : Effect}
    (h : lead ++ e :: trail = [x, y]) :
    lead = [] ∧ e = x ∧ trail = [y] ∨ lead = [x] ∧ e = y ∧ trail = [] := by
  rcases List.append_eq_cons_iff.1 h with ⟨rfl, heq⟩ | ⟨front, rfl, heq⟩
  · cases heq
    exact Or.inl ⟨rfl, rfl, rfl⟩
  · obtain ⟨rfl, hlast⟩ | ⟨_, hnil⟩ := List.append_eq_singleton_iff.1 heq.symm
    · cases hlast
      exact Or.inr ⟨rfl, rfl, rfl⟩
    · cases hnil

theorem append_cons_eq_singleton {lead trail : List Effect} {e x : Effect}
    (h : lead ++ e :: trail = [x]) : lead = [] ∧ e = x ∧ trail = [] := by
  obtain ⟨rfl, hlast⟩ | ⟨_, hnil⟩ := List.append_eq_singleton_iff.1 h
  · cases hlast
    exact ⟨rfl, rfl, rfl⟩
  · cases hnil

/-- A status page stands right behind the line of its request. -/
theorem Truthful.exists_request {before after : List Effect} {bytes : Bytes}
    (h : Truthful k effects) (hsplit : effects = before ++ .wrote id bytes :: after)
    (hshows : Shows .ok bytes) :
    ∃ front peer r keepAlive, before = front ++ [.logged (.requested peer r.method r.target)] ∧
      Route.ofPath r.target.effectivePath = .status ∧
      bytes = (Http.frame r keepAlive
        (Service.answer ((logged front).foldl Log.Event.count k) r)).bytes := by
  obtain ⟨front, lead, trail, rest, rfl, rfl, hin⟩ := h.exists_exchange hsplit
  generalize hexchange : lead ++ .wrote id bytes :: trail = exchange at hin
  cases hin with
  | page peer id' r keepAlive hroute =>
    obtain ⟨_, heq, _⟩ | ⟨rfl, heq, _⟩ := append_cons_eq_pair hexchange
    · cases heq
    · cases heq
      exact ⟨front, peer, r, keepAlive, rfl, hroute, rfl⟩
  | unwritten => obtain ⟨_, heq, _⟩ | ⟨_, heq, _⟩ := append_cons_eq_pair hexchange <;> cases heq
  | other hother =>
    obtain ⟨_, rfl, _⟩ := append_cons_eq_singleton hexchange
    exact absurd hshows hother

/-- Right behind the line of a request for the status page stands the page, or that it could not be
written. -/
theorem Truthful.exists_answer {before after : List Effect} {peer : SocketAddress} {method : Bytes}
    {target : Http.Target} (h : Truthful k effects)
    (hsplit : effects = before ++ .logged (.requested peer method target) :: after)
    (hroute : Route.ofPath target.effectivePath = .status) :
    (∃ id bytes rest, after = .wrote id bytes :: rest ∧ Shows .ok bytes) ∨
      ∃ rest, after = .logged (.connectionFailed peer .unwritable) :: rest := by
  obtain ⟨front, lead, trail, rest, rfl, rfl, hin⟩ := h.exists_exchange hsplit
  generalize hexchange : lead ++ .logged (.requested peer method target) :: trail = exchange at hin
  cases hin with
  | page peer' id r keepAlive hroute' =>
    obtain ⟨_, _, rfl⟩ | ⟨_, heq, _⟩ := append_cons_eq_pair hexchange
    · exact Or.inl ⟨id, _, rest, rfl,
        (Http.shows_bytes_iff _ _).2 (Service.status_answer_eq_ok_iff.2 hroute')⟩
    · cases heq
  | unwritten =>
    obtain ⟨_, heq, rfl⟩ | ⟨_, heq, _⟩ := append_cons_eq_pair hexchange
    · cases heq
      exact Or.inr ⟨rest, rfl⟩
    · cases heq
  | other hother =>
    obtain ⟨_, rfl, _⟩ := append_cons_eq_singleton hexchange
    rw [Effect.IsOther, Log.Event.asksForPage, decide_eq_false_iff_not] at hother
    exact absurd hroute hother

end Truthful

/-! ## What a task shows -/

/-- A faulty head is not answered with the status page. -/
theorem ne_ok_of_status? {f : Http.Fault} {status : Http.Status} (h : f.status? = some status) :
    status ≠ .ok := by
  rintro rfl
  cases f <;> cases h

theorem truthful_deeds_cons (c : Client) (r : Http.Request) (keepAlive : Bool) (k : Counters)
    {rest : List Effect} (h : Truthful k rest) :
    Truthful k (deedEffects c (.handle r) ++
      .wrote c.id (Http.frame r keepAlive (Service.answer k r)).bytes :: rest) := by
  rw [deedEffects]
  by_cases hroute : Route.ofPath r.target.effectivePath = .status
  · rw [(Service.answer_of_status (k := k) hroute).2]
    exact .page c.peer c.id keepAlive hroute h
  · have hshows : ¬ Shows .ok (Http.frame r keepAlive (Service.answer k r)).bytes := by
      rw [Http.shows_bytes_iff]
      exact fun hok => hroute (Service.status_answer_eq_ok_iff.1 hok)
    have hother : (Log.Event.requested c.peer r.method r.target).asksForPage = false :=
      decide_eq_false hroute
    cases Service.refusal? r with
    | none => exact .line hother (.wrote c.id hshows h)
    | some why => exact .line hother (.line rfl (.wrote c.id hshows h))

/-- A request whose answer cannot be written. -/
theorem truthful_unwritten (c : Client) (r : Http.Request) :
    Truthful k (deedEffects c (.handle r) ++
      [.logged (.connectionFailed c.peer .unwritable), .closed c.id]) := by
  have hclosed : Truthful k [.closed c.id] := .closed c.id (.nil k)
  rw [deedEffects]
  by_cases hroute : Route.ofPath r.target.effectivePath = .status
  · rw [(Service.answer_of_status (k := k) hroute).2]
    exact .unwritten c.peer r.method r.target hclosed
  · have hother : (Log.Event.requested c.peer r.method r.target).asksForPage = false :=
      decide_eq_false hroute
    cases Service.refusal? r with
    | none => exact .line hother (.line rfl hclosed)
    | some why => exact .line hother (.line rfl (.line rfl hclosed))

/-- Requests with their answers, and what comes behind them. -/
theorem truthful_talk (c : Client) {owed owed' : Bool} {deeds : List Http.Deed}
    (h : Http.Talk (Service.answer k) owed deeds owed') {rest : List Effect}
    (hrest : Truthful k rest) : Truthful k (deeds.flatMap (deedEffects c) ++ rest) := by
  induction h with
  | silent => exact hrest
  | answered r keepAlive _ ih =>
    rw [List.flatMap_cons, List.flatMap_cons, List.append_assoc, List.append_assoc]
    exact truthful_deeds_cons c r keepAlive k ih

theorem truthful_ending (c : Client) {owed : Bool} {tail : List Http.Deed}
    {standing : Http.Standing} (h : Http.Ending (Service.answer k) owed tail standing) :
    Truthful k (tail.flatMap (deedEffects c) ++ standing.effects c) := by
  have hclosed : Truthful k [.closed c.id] := .closed c.id (.nil k)
  cases h with
  | waiting | paused | switched => exact .nil k
  | closed owed fault =>
    cases fault with
    | none => exact hclosed
    | some fault => exact .line rfl hclosed
  | refused version hstatus =>
    refine .wrote c.id ?_ (.line rfl hclosed)
    rw [Http.shows_bytes_iff]
    exact ne_ok_of_status? hstatus
  | unanswered r hswitch | abandoned r hswitch =>
    rw [List.flatMap_singleton]
    exact truthful_unwritten c r

theorem truthful_reactions (id : String) (reactions : List Reaction) {rest : List Effect}
    (h : Truthful k rest) : Truthful k (reactions.map (reactionEffect id) ++ rest) := by
  induction reactions with
  | nil => exact h
  | cons reaction more ih =>
    cases reaction with
    | send r => exact .wrote id (Http.not_shows_reply .ok r) ih
    | note farewell => exact .line rfl ih

theorem truthful_told (id : String) (peer : SocketAddress) (r : List Reaction × Progress) :
    Truthful k (told k id peer r) := by
  obtain ⟨reactions, progress⟩ := r
  refine truthful_reactions id reactions ?_
  cases progress with
  | waiting t => exact .nil k
  | ended o => exact .line rfl (.passed _ (.line rfl (.closed id (.nil _))))

theorem Move.truthful {woken : Bool} {k' : Counters} (h : Move k c c' woken k' effects) :
    Truthful k effects := by
  cases h with
  | idle => exact .nil k
  | served hstage hpoll =>
    obtain ⟨talk, tail, owed, rfl, htalk, hend⟩ := Http.talk_poll hpoll
    rw [List.flatMap_append, List.append_assoc]
    exact truthful_talk c htalk (truthful_ending c hend)
  | began => exact .passed _ (.line rfl (truthful_told c.id c.peer _))
  | read => exact truthful_told c.id c.peer _
  | gaveUp => exact .line rfl (.nil _)

theorem truthful_take (arrivals : List Arrival) (s : Server) (k : Counters) :
    Truthful k (each take s arrivals).2 := by
  induction arrivals generalizing s with
  | nil => exact .nil k
  | cons a rest ih =>
    rw [each_cons]
    cases a with
    | failure cause => exact .line rfl (ih _)
    | client id =>
      cases hc : s.find? id with
      | none =>
        rw [take_unknown hc]
        exact ih s
      | some c =>
        rw [take_client hc]
        exact .line rfl (ih _)

theorem Listening.truthful_run (h : Listening s) (t : Task) (rest : List Task) :
    Truthful s.counters (Server.run { s with ready := rest } t).2 := by
  cases t with
  | accept => exact truthful_take _ _ _
  | advance id =>
    cases hc : s.find? id with
    | none =>
      rw [run_unknown hc]
      exact .nil _
    | some c =>
      obtain ⟨_, _, _, f, woken, _, hmove, _, _⟩ :=
        advanced_run hc (h.find?_cancelled hc) rest
      exact hmove.truthful

/-! ## Runs -/

/-- The server in the middle of a step: after the steps `earlier`, the actions of the next step, and
at most `n` of its tasks. -/
def midway (earlier : List (List Action)) (actions : List Action) (n : Nat) : Server :=
  (runReady n (actions.foldl acted (serving earlier)) []).1

/-- The tasks up to there. -/
def tasksTo (earlier : List (List Action)) (actions : List Action) (n : Nat) : List Stint :=
  (empty .http).runStints earlier ++ stints n (actions.foldl acted (serving earlier))

/-- With enough tasks the step is over. -/
theorem midway_of_work (earlier : List (List Action)) (actions : List Action) :
    midway earlier actions (actions.foldl acted (serving earlier)).work =
        serving (earlier ++ [actions]) ∧
      (tasksTo earlier actions (actions.foldl acted (serving earlier)).work).flatMap (·.effects) =
        (servings (earlier ++ [actions])).flatMap (·.effects) := by
  constructor
  · show _ = ((empty .http).steps (earlier ++ [actions])).1
    rw [steps_append]
    exact (step_fst (serving earlier) actions).symm
  · rw [tasksTo, List.flatMap_append, flatMap_runStints, servings, steps_append,
      List.flatMap_append]
    congr 1
    have hstep := flatMap_stepStints (serving earlier) actions
    rw [stepStints] at hstep
    rw [hstep, steps_cons, List.flatMap_cons]
    exact (List.append_nil _).symm

/-- The invariant of all runs. -/
structure Told (s : Server) (past : List Stint) : Prop where
  tally : Tally s past
  upgrades : Upgrades s past
  truthful : Truthful .zero (past.flatMap (·.effects))

theorem Told.acted {past : List Stint} (h : Told s past) (a : Action) : Told (s.acted a) past :=
  ⟨h.tally.acted a,
    h.upgrades.happens h.tally.listening (happens_acted h.tally.listening.mode a), h.truthful⟩

theorem Told.run {past : List Stint} (h : Told s past) {t : Task} {rest : List Task}
    (hready : s.ready = t :: rest) :
    Told (Server.run { s with ready := rest } t).1
      (past ++ [⟨t, (Server.run { s with ready := rest } t).2⟩]) := by
  refine ⟨h.tally.run hready, h.upgrades.run h.tally.listening hready, ?_⟩
  have hcounters : (logged (past.flatMap (·.effects))).foldl Log.Event.count .zero = s.counters :=
    h.tally.counters.symm
  rw [List.flatMap_append, List.flatMap_singleton]
  refine h.truthful.append ?_
  rw [hcounters]
  exact h.tally.listening.truthful_run t rest

theorem told_midway (earlier : List (List Action)) (actions : List Action) (n : Nat) :
    Told (midway earlier actions n) (tasksTo earlier actions n) := by
  have hrun : ∀ (s : Server) (past : List Stint) (t : Task) (rest : List Task),
      s.ready = t :: rest → Told s past → Told (Server.run { s with ready := rest } t).1
        (past ++ [⟨t, (Server.run { s with ready := rest } t).2⟩]) :=
    fun s past t rest hready h => h.run hready
  have hacted : ∀ (s : Server) (past : List Stint) (a : Action), Told s past →
      Told (s.acted a) past := fun s past a h => h.acted a
  have hempty : Told (empty .http) [] := ⟨tally_empty, upgrades_empty, .nil _⟩
  exact runReady_induction hrun n
    (foldl_acted_induction hacted (steps_induction hrun hacted hempty earlier) actions)

/-! ## The status page -/

/-- A response with the report for the moment when all effects so far were `front`. -/
structure IsStatusPage (front : List Effect) (r : Http.Request) (response : Http.Response)
    (report : Report) : Prop where
  status : response.status = .ok
  active : report.active.toNat = Log.openCount (logged front)
  max : IsPeak Log.openCount (logged front) report.max.toNat
  active_le_max : report.active ≤ report.max
  body : response.body =
    if r.method = Bytes.ofText "HEAD" ∨ r.method = Bytes.ofText "CONNECT" then []
    else Bytes.ofText report.text
  readable : Report.parse (Bytes.ofText report.text) = .ok report

/-- What holds at a moment of a run, `past` being the tasks so far. -/
structure TellsTruth (s : Server) (past : List Stint) : Prop where
  /-- No session closes that is not open, so the number of open sessions is never cut off. -/
  paired : ∀ p, p <+: lines past → p.countP Log.Event.closes ≤ p.countP Log.Event.opens
  active : s.counters.active.toNat = Log.openCount (lines past)
  max : IsPeak Log.openCount (lines past) s.counters.max.toNat
  /-- An answer of status 200 comes right behind its request and shows the counters at it. -/
  pages : ∀ before id bytes after, past.flatMap (·.effects) = before ++ .wrote id bytes :: after →
    Shows .ok bytes → ∃ front peer r response report,
      before = front ++ [.logged (.requested peer r.method r.target)] ∧
      bytes = response.bytes ∧ IsStatusPage front r response report
  /-- Who asks for the status page is answered with status 200, if the answer can be written. -/
  answered : ∀ before peer method target after,
    past.flatMap (·.effects) = before ++ .logged (.requested peer method target) :: after →
    Route.ofPath target.effectivePath = .status →
      (∃ id bytes rest, after = .wrote id bytes :: rest ∧ Shows .ok bytes) ∨
        ∃ rest, after = .logged (.connectionFailed peer .unwritable) :: rest
  /-- A session opens only where a handshake was accepted last. -/
  opened : ∀ earlier st later, past = earlier ++ st :: later → ∀ peer active,
    .logged (.sessionOpened peer active) ∈ st.effects →
      ∃ id, st.task = .advance id ∧ Granted id peer (share id earlier)
  /-- The task that comes next leaves one warning for each handshake that it refuses and opens no
  session, and the counters stay, if it serves a connection. -/
  refused : ∀ id rest c connection deeds standing w, s.ready = .advance id :: rest →
    s.find? id = some c → c.stage = .requesting connection →
    connection.poll (Service.answer s.counters) c.wire = (deeds, standing, w) →
      (logged (Server.run { s with ready := rest } (.advance id)).2).filter (·.level == .warn) =
          (refusals deeds).map (.handshakeRefused c.peer) ∧
        (∀ e ∈ logged (Server.run { s with ready := rest } (.advance id)).2, e.opens = false) ∧
        (Server.run { s with ready := rest } (.advance id)).1.counters = s.counters

theorem body_of_page (r : Http.Request) (keepAlive : Bool) (content : Bytes) :
    (Http.frame r keepAlive ⟨.ok, [], content⟩).body =
      if r.method = Bytes.ofText "HEAD" ∨ r.method = Bytes.ofText "CONNECT" then []
      else content := by
  by_cases hhead : r.method = Bytes.ofText "HEAD"
  · simp [Http.frame, hhead]
  · by_cases hconnect : r.method = Bytes.ofText "CONNECT"
    · simp [Http.frame, Http.opensTunnel, hconnect]
    · simp [Http.frame, Http.opensTunnel, hhead, hconnect]

/-- The page that is answered while the counters follow the lines is the one for their moment. -/
theorem isStatusPage_frame {front : List Effect} {m : Nat} (h : Log.Leads 0 (logged front) m)
    (hroom : ∀ p, p <+: logged front → Log.openCount p < 2 ^ 64) {r : Http.Request}
    (hroute : Route.ofPath r.target.effectivePath = .status) (keepAlive : Bool) :
    ∃ report, IsStatusPage front r (Http.frame r keepAlive
      (Service.answer ((logged front).foldl Log.Event.count .zero) r)) report := by
  obtain ⟨peak, htells, hpeak⟩ := h.tells hroom
  rw [(Service.answer_of_status hroute).1]
  refine ⟨Report.ofCounters ((logged front).foldl Log.Event.count .zero), rfl, htells.active, ?_,
    ?_, ?_, Report.render_eq_ofText _ ▸ Report.parse_render _⟩
  · exact htells.max ▸ hpeak
  · rw [UInt64.le_iff_toNat_le]
    show ((logged front).foldl Log.Event.count .zero).active.toNat ≤
      ((logged front).foldl Log.Event.count .zero).max.toNat
    rw [htells.active, htells.max]
    exact hpeak.le _ List.prefix_rfl
  · rw [← Report.render_eq_ofText]
    exact body_of_page r keepAlive _

/-- At every moment of every run the counters tell what the log tells, the status page shows it, and
refused handshakes change nothing, as long as there are fewer than `2 ^ 64` sessions. -/
theorem status_page_truthful (earlier : List (List Action)) (actions : List Action) (n : Nat)
    (hroom : ∀ p, p <+: lines (tasksTo earlier actions n) → Log.openCount p < 2 ^ 64) :
    TellsTruth (midway earlier actions n) (tasksTo earlier actions n) := by
  have htold := told_midway earlier actions n
  generalize midway earlier actions n = s at htold ⊢
  generalize tasksTo earlier actions n = past at htold hroom ⊢
  have hleads := htold.tally.leads
  obtain ⟨peak, htells, hpeak⟩ := hleads.tells hroom
  rw [← htold.tally.counters] at htells
  constructor
  · rintro p ⟨rest, hp⟩
    rw [← hp] at hleads
    obtain ⟨m, hfront, _⟩ := hleads.split
    exact hfront.closes_le
  · exact htells.active
  · exact htells.max ▸ hpeak
  · intro before id bytes after hsplit hshows
    obtain ⟨front, peer, r, keepAlive, rfl, hroute, rfl⟩ :=
      htold.truthful.exists_request hsplit hshows
    -- The lines before the request are a beginning of all lines.
    obtain ⟨rest, hlines⟩ : ∃ rest, lines past = logged front ++ rest := by
      rw [lines, hsplit, List.append_assoc, logged_append]
      exact ⟨_, rfl⟩
    rw [hlines] at hleads hroom
    obtain ⟨m, hfront, _⟩ := hleads.split
    obtain ⟨report, hpage⟩ := isStatusPage_frame hfront
      (fun p hp => hroom p (hp.trans (List.prefix_append _ _))) hroute keepAlive
    exact ⟨front, peer, r, _, report, rfl, rfl, hpage⟩
  · exact fun before peer method target after hsplit => htold.truthful.exists_answer hsplit
  · exact htold.upgrades.opened
  · intro id rest c connection deeds standing w _ hc hstage hpoll
    exact refusals_of_poll htold.tally.listening hc hstage hpoll

/-- A client whose session has begun. -/
def oneSession : List (List Action) := [[.connect "a" loopback, .send "a" sampleHead]]

/-- Another client, which asks for the status page. -/
def asking : List Action :=
  [.connect "b" loopback, .send "b" (Bytes.ofText "GET / HTTP/1.1\r\n\r\n")]

/-- The page shows the session that runs beside it. -/
theorem pageBesideSession_truthful :
    (∀ p, p <+: lines (tasksTo oneSession asking 2) → Log.openCount p < 2 ^ 64) ∧
      Log.openCount (lines (tasksTo oneSession asking 2)) = 1 ∧
      (share "b" (tasksTo oneSession asking 2)).getLast? =
        some (.wrote "b" (Bytes.ofText ("HTTP/1.1 200 OK\r\ncontent-length: 20\r\n\r\n" ++
          "\x7b\"max\":1,\"active\":1\x7d"))) := by
  -- One evaluation for all three, since each would run the session again.
  obtain ⟨hlength, hactive, hpage⟩ : (lines (tasksTo oneSession asking 2)).length < 10 ∧
      (midway oneSession asking 2).counters.active.toNat = 1 ∧
      (share "b" (tasksTo oneSession asking 2)).getLast? =
        some (.wrote "b" (Bytes.ofText ("HTTP/1.1 200 OK\r\ncontent-length: 20\r\n\r\n" ++
          "\x7b\"max\":1,\"active\":1\x7d"))) := by decide +kernel
  have hroom : ∀ p, p <+: lines (tasksTo oneSession asking 2) → Log.openCount p < 2 ^ 64 := by
    intro p hp
    have hle := Log.openCount_le_length p
    have hp := hp.length_le
    omega
  exact ⟨hroom, (status_page_truthful oneSession asking 2 hroom).active ▸ hactive, hpage⟩

/-! ## Two moments -/

/-- What a client is answered that asks this for the status page first. -/
def pageFor (method : String) : Bytes :=
  (servings [[.connect "a" loopback, .send "a" (Bytes.ofText (method ++ " / HTTP/1.1\r\n\r\n"))]]
    ).flatMap (·.output "a")

/-- The answers to `HEAD` and `CONNECT` have status 200 and do not end in the report. -/
theorem head_and_connect_without_body :
    pageFor "HEAD" = Bytes.ofText "HTTP/1.1 200 OK\r\ncontent-length: 20\r\n\r\n" ∧
      pageFor "CONNECT" = Bytes.ofText "HTTP/1.1 200 OK\r\n\r\n" ∧
      ∀ method ∈ ["HEAD", "CONNECT"], ¬ (Report.ofCounters .zero).render <:+ pageFor method := by
  decide +kernel

end Server

end WebSocketEcho
