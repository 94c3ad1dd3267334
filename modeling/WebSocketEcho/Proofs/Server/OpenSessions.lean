import WebSocketEcho.Proofs.Counters
import WebSocketEcho.Proofs.Server.Soundness

/-!
# Open sessions, told by the log

The log has one line for each session that opens and one for each that closes, so it tells at any
moment how many are open: `Log.openCount`.  On a server that listens the counters are this number
and its peak, in the middle of a step as well as behind it.

`Log.Leads` follows the number line by line; a line that closes a session needs one that is open.
A task leads from the number of connections with a running session before it to the number after it
(`leads_run`), and `Tally` is the invariant of all runs that this gives.
-/

namespace WebSocketEcho

/-! ## What the lines tell -/

namespace Log

/-- The line of a session that opens. -/
def Event.opens : Event → Bool
  | .sessionOpened _ _ => true
  | _ => false

/-- The line of a session that closes. -/
def Event.closes : Event → Bool
  | .sessionClosed _ _ => true
  | _ => false

/-- How many sessions are open: as many as were opened and not closed. -/
def openCount (log : List Event) : Nat := log.countP Event.opens - log.countP Event.closes

theorem openCount_le_length (log : List Event) : openCount log ≤ log.length :=
  Nat.le_trans (Nat.sub_le _ _) List.countP_le_length

/-- What a line does to the counters. -/
def Event.count (c : Counters) : Event → Counters
  | .sessionOpened _ _ => c.enter
  | .sessionClosed _ _ => c.leave
  | _ => c

/-- A line that neither opens nor closes a session. -/
def Event.IsQuiet (e : Event) : Prop := e.opens = false ∧ e.closes = false

/-- From `n` open sessions the lines lead to `m`. -/
inductive Leads : Nat → List Event → Nat → Prop where
  | nil (n : Nat) : Leads n [] n
  | opened (peer : SocketAddress) (active : UInt64) {n m : Nat} {rest : List Event}
      (h : Leads (n + 1) rest m) : Leads n (.sessionOpened peer active :: rest) m
  | closed (peer : SocketAddress) (active : UInt64) {n m : Nat} {rest : List Event}
      (h : Leads n rest m) : Leads (n + 1) (.sessionClosed peer active :: rest) m
  | other {e : Event} (hquiet : e.IsQuiet) {n m : Nat} {rest : List Event} (h : Leads n rest m) :
      Leads n (e :: rest) m

section Leads

variable {n m k : Nat} {a b log : List Event} {e : Event}

theorem Leads.append (h : Leads n a m) (h' : Leads m b k) : Leads n (a ++ b) k := by
  induction h with
  | nil => exact h'
  | opened peer active _ ih => exact .opened peer active (ih h')
  | closed peer active _ ih => exact .closed peer active (ih h')
  | other hquiet _ ih => exact .other hquiet (ih h')

theorem Leads.split (h : Leads n (a ++ b) m) : ∃ k, Leads n a k ∧ Leads k b m := by
  induction a generalizing n with
  | nil => exact ⟨n, .nil n, h⟩
  | cons e rest ih =>
    cases h with
    | opened peer active h =>
      obtain ⟨k, ha, hb⟩ := ih h
      exact ⟨k, .opened peer active ha, hb⟩
    | closed peer active h =>
      obtain ⟨k, ha, hb⟩ := ih h
      exact ⟨k, .closed peer active ha, hb⟩
    | other hquiet h =>
      obtain ⟨k, ha, hb⟩ := ih h
      exact ⟨k, .other hquiet ha, hb⟩

theorem Leads.countP_eq (h : Leads n log m) :
    log.countP Event.opens + n = log.countP Event.closes + m := by
  induction h with
  | nil => rfl
  | opened peer active _ ih =>
    rw [List.countP_cons_of_pos rfl, List.countP_cons_of_neg Bool.false_ne_true]
    omega
  | closed peer active _ ih =>
    rw [List.countP_cons_of_neg Bool.false_ne_true, List.countP_cons_of_pos rfl]
    omega
  | other hquiet _ ih =>
    rw [List.countP_cons_of_neg (by rw [hquiet.1]; exact Bool.false_ne_true),
      List.countP_cons_of_neg (by rw [hquiet.2]; exact Bool.false_ne_true)]
    exact ih

/-- Where the log leads to is the number of open sessions. -/
theorem Leads.openCount_eq (h : Leads 0 log m) : openCount log = m := by
  have hcount := h.countP_eq
  rw [openCount]
  omega

/-- No line closes a session that is not open. -/
theorem Leads.closes_le (h : Leads 0 log m) :
    log.countP Event.closes ≤ log.countP Event.opens := by
  have hcount := h.countP_eq
  omega

/-- Lines that open and close nothing. -/
theorem leads_of_quiet (h : ∀ e ∈ log, e.IsQuiet) (n : Nat) : Leads n log n := by
  induction log with
  | nil => exact .nil n
  | cons e rest ih =>
    exact .other (h e List.mem_cons_self) (ih fun d hd => h d (List.mem_cons_of_mem e hd))

theorem Event.count_of_quiet (h : e.IsQuiet) (c : Counters) : e.count c = c := by
  cases e with
  | sessionOpened => cases h.1
  | sessionClosed => cases h.2
  | _ => rfl

theorem foldl_count_of_quiet (h : ∀ e ∈ log, e.IsQuiet) (c : Counters) :
    log.foldl Event.count c = c := by
  induction log with
  | nil => rfl
  | cons e rest ih =>
    rw [List.foldl_cons, Event.count_of_quiet (h e List.mem_cons_self)]
    exact ih fun d hd => h d (List.mem_cons_of_mem e hd)

/-- One line leads one up, one down, or nowhere. -/
theorem Leads.of_singleton (h : Leads n [e] m) (c : Counters) :
    e.count c = c.enter ∧ m = n + 1 ∨ e.count c = c.leave ∧ m + 1 = n ∨ e.count c = c ∧ m = n := by
  cases h with
  | opened peer active h =>
    cases h
    exact Or.inl ⟨rfl, rfl⟩
  | closed peer active h =>
    cases h
    exact Or.inr (Or.inl ⟨rfl, rfl⟩)
  | other hquiet h =>
    cases h
    exact Or.inr (Or.inr ⟨Event.count_of_quiet hquiet c, rfl⟩)

/-- Counters that follow the lines tell the number of open sessions and its peak. -/
theorem Leads.tells (h : Leads 0 log m) (hroom : ∀ p, p <+: log → openCount p < 2 ^ 64) :
    ∃ peak, (log.foldl Event.count .zero).Tells (openCount log) peak ∧
      IsPeak openCount log peak := by
  refine Counters.tells_of_history (f := openCount) (g := fun p => p.foldl Event.count .zero)
    rfl rfl log ?_ hroom
  intro p e hp
  obtain ⟨rest, rfl⟩ := hp
  obtain ⟨k, hfront, _⟩ := h.split
  obtain ⟨j, hpast, hlast⟩ := hfront.split
  rw [hfront.openCount_eq, hpast.openCount_eq, List.foldl_append]
  exact hlast.of_singleton _

end Leads

end Log

namespace Server

variable {s s' : Server} {id : String} {c c' : Client} {effects : List Effect}

/-- The lines of the log that these tasks have written. -/
def lines (past : List Stint) : List Log.Event := logged (past.flatMap (·.effects))

/-- How many sessions run. -/
def running (s : Server) : Nat := s.clients.countP Client.isEchoing

/-! ## Quiet lines -/

theorem quiet_deeds (c : Client) (deeds : List Http.Deed) :
    ∀ e ∈ logged (deeds.flatMap (deedEffects c)), e.IsQuiet := by
  induction deeds with
  | nil => exact fun e he => nomatch he
  | cons d rest ih =>
    cases d with
    | write bytes => exact ih
    | handle r =>
      rw [List.flatMap_cons, logged_append]
      intro e he
      rcases List.mem_append.1 he with he | he
      · rw [deedEffects] at he
        cases hrefusal : Service.refusal? r with
        | none =>
          rw [hrefusal] at he
          rw [List.mem_singleton.1 he]
          exact ⟨rfl, rfl⟩
        | some why =>
          rw [hrefusal] at he
          rcases List.mem_cons.1 he with rfl | he
          · exact ⟨rfl, rfl⟩
          · rw [List.mem_singleton.1 he]
            exact ⟨rfl, rfl⟩
      · exact ih e he

theorem quiet_standing (c : Client) (standing : Http.Standing) :
    ∀ e ∈ logged (standing.effects c), e.IsQuiet := by
  intro e he
  cases standing with
  | waiting | paused | switched => cases he
  | closed fault =>
    cases fault with
    | none => cases he
    | some fault =>
      rw [List.mem_singleton.1 he]
      exact ⟨rfl, rfl⟩
  | abandoned fault =>
    rw [List.mem_singleton.1 he]
    exact ⟨rfl, rfl⟩

theorem quiet_reactions (id : String) (reactions : List Reaction) :
    ∀ e ∈ logged (reactions.map (reactionEffect id)), e.IsQuiet := by
  intro e he
  obtain ⟨effect, heffect, hlogged⟩ := List.mem_filterMap.1 he
  obtain ⟨reaction, _, rfl⟩ := List.mem_map.1 heffect
  cases reaction with
  | send r => cases hlogged
  | note farewell =>
    cases hlogged
    exact ⟨rfl, rfl⟩

theorem quiet_take (arrivals : List Arrival) (s : Server) :
    ∀ e ∈ logged (each take s arrivals).2, e.IsQuiet := by
  intro e he
  obtain ⟨effect, heffect, hlogged⟩ := List.mem_filterMap.1 he
  rcases logged_of_mem_accept heffect with ⟨peer, rfl⟩ | ⟨cause, rfl⟩ <;> cases hlogged <;>
    exact ⟨rfl, rfl⟩

/-! ## What a task does to the number of sessions -/

/-- The lines of a reading, and of the end of the session if it ends. -/
theorem leads_told (k : Counters) (id : String) (peer : SocketAddress)
    (r : List Reaction × Progress) (n : Nat) :
    Log.Leads (n + 1) (logged (told k id peer r))
        (match r.2 with
          | .waiting _ => n + 1
          | .ended _ => n) ∧
      (logged (told k id peer r)).foldl Log.Event.count k = counted k r := by
  obtain ⟨reactions, progress⟩ := r
  have hquiet := quiet_reactions id reactions
  rw [told, logged_append, List.foldl_append, Log.foldl_count_of_quiet hquiet]
  refine ⟨(Log.leads_of_quiet hquiet (n + 1)).append ?_, ?_⟩
  · cases progress with
    | waiting t => exact .nil _
    | ended o => exact .other ⟨rfl, rfl⟩ (.closed peer _ (.nil n))
  · cases progress <;> rfl

/-- A move leads from the session that ran on the connection before it, if one did, to the one that
runs after it; the counters follow the lines. -/
theorem Move.leads {woken : Bool} {k k' : Counters} (h : Move k c c' woken k' effects) (n : Nat) :
    Log.Leads (n + c.isEchoing.toNat) (logged effects) (n + c'.isEchoing.toNat) ∧
      (logged effects).foldl Log.Event.count k = k' := by
  cases h with
  | idle => exact ⟨.nil _, rfl⟩
  | served hstage hpoll =>
    rename_i connection deeds standing w
    have hbefore : c.isEchoing = false := by rw [Client.isEchoing, hstage]
    have hafter : ({ c with wire := w, stage := standing.stage } : Client).isEchoing = false := by
      cases standing <;> rfl
    have hquiet : ∀ e ∈ logged (deeds.flatMap (deedEffects c) ++ standing.effects c),
        e.IsQuiet := by
      rw [logged_append]
      exact List.forall_mem_append.2 ⟨quiet_deeds c deeds, quiet_standing c standing⟩
    rw [hbefore, hafter]
    exact ⟨Log.leads_of_quiet hquiet _, Log.foldl_count_of_quiet hquiet k⟩
  | began hstage _ =>
    rename_i leftover r _
    have hbefore : c.isEchoing = false := by rw [Client.isEchoing, hstage]
    obtain ⟨hleads, hcount⟩ := leads_told k.enter c.id c.peer r n
    rw [hbefore]
    refine ⟨.opened c.peer k.enter.active ?_, hcount⟩
    obtain ⟨reactions, progress⟩ := r
    cases progress with
    | waiting t => exact hleads
    | ended o => exact hleads
  | read hstage _ =>
    rename_i session r _
    have hbefore : c.isEchoing = true := by rw [Client.isEchoing, hstage]
    obtain ⟨hleads, hcount⟩ := leads_told k c.id c.peer r n
    rw [hbefore]
    refine ⟨?_, hcount⟩
    obtain ⟨reactions, progress⟩ := r
    cases progress with
    | waiting t => exact hleads
    | ended o => exact hleads
  | gaveUp hstage =>
    have hbefore : c.isEchoing = false := by rw [Client.isEchoing, hstage]
    rw [hbefore]
    exact ⟨.other ⟨rfl, rfl⟩ (.nil _), rfl⟩

/-- An update of one connection changes the number at one place. -/
theorem running_update (hnodup : s.ids.Nodup) (hc : s.find? id = some c) (f : Client → Client) :
    ∃ n, s.running = n + c.isEchoing.toNat ∧
      (s.update id f).running = n + (f c).isEchoing.toNat := by
  obtain ⟨front, back, hclients, hupdate⟩ := exists_update_eq hnodup hc
  have hcount : ∀ d : Client, (front ++ d :: back).countP Client.isEchoing =
      front.countP Client.isEchoing + back.countP Client.isEchoing + d.isEchoing.toNat := by
    intro d
    rw [List.countP_append, List.countP_cons, Nat.add_assoc]
    cases d.isEchoing <;> rfl
  refine ⟨front.countP Client.isEchoing + back.countP Client.isEchoing, ?_, ?_⟩
  · rw [running, hclients, hcount]
  · rw [running, hupdate, hcount]

/-- What a task leaves behind: the lines lead from the sessions that ran to those that run, and the
counters follow them. -/
theorem leads_run (hnodup : s.ids.Nodup)
    (harriving : ∀ id, .client id ∈ s.arrivals → ∀ c, s.find? id = some c →
      c.stage = .arriving ∨ c.stage = .requesting .fresh)
    (hkept : ∀ id c, s.find? id = some c → c.cancelled = false) (t : Task) (rest : List Task) :
    Log.Leads s.running (logged (Server.run { s with ready := rest } t).2)
        (Server.run { s with ready := rest } t).1.running ∧
      (logged (Server.run { s with ready := rest } t).2).foldl Log.Event.count s.counters =
        (Server.run { s with ready := rest } t).1.counters := by
  cases t with
  | accept =>
    have hquiet := quiet_take s.arrivals { s with ready := rest, arrivals := [] }
    have hcounters := (each_take_keeps s.arrivals
      { s with ready := rest, arrivals := [] }).2.2.2.1
    have hrunning : (each take { s with ready := rest, arrivals := [] } s.arrivals).1.running =
        s.running := by
      have hmap := map_each_take Client.isEchoing
        (fun c hstage => by
          rcases hstage with hstage | hstage <;> simp [Client.isEchoing, hstage])
        s.arrivals (s := { s with ready := rest, arrivals := [] }) hnodup harriving
      have hcount : ∀ clients : List Client,
          clients.countP Client.isEchoing = (clients.map Client.isEchoing).countP id := by
        intro clients
        rw [List.countP_map]
        rfl
      rw [running, hcount, hmap, ← hcount]
      rfl
    refine ⟨?_, ?_⟩
    · show Log.Leads _ (logged (each take _ s.arrivals).2) (each take _ s.arrivals).1.running
      rw [hrunning]
      exact Log.leads_of_quiet hquiet _
    · exact (Log.foldl_count_of_quiet hquiet _).trans hcounters.symm
  | advance id =>
    cases hc : s.find? id with
    | none =>
      rw [run_unknown hc]
      exact ⟨.nil _, rfl⟩
    | some c =>
      obtain ⟨_, _, _, f, woken, _, hmove, hclients, _⟩ :=
        advanced_run hc (hkept id c hc) rest
      obtain rfl : c.id = id := id_of_find? hc
      obtain ⟨n, hbefore, hafter⟩ := running_update hnodup hc f
      obtain ⟨hleads, hcount⟩ := hmove.leads n
      rw [hbefore, show (Server.run { s with ready := rest } (.advance c.id)).1.running =
        (s.update c.id f).running from congrArg (List.countP Client.isEchoing) hclients, hafter]
      exact ⟨hleads, hcount⟩

/-! ## Runs -/

/-- What holds at every moment of a run, `past` being its tasks so far: the lines tell how many
sessions run, and the counters follow the lines. -/
structure Tally (s : Server) (past : List Stint) : Prop where
  listening : Listening s
  leads : Log.Leads 0 (lines past) s.running
  counters : s.counters = (lines past).foldl Log.Event.count .zero

theorem tally_empty : Tally (empty .http) [] := ⟨listening_empty, .nil 0, rfl⟩

/-- No session begins or ends before the server runs. -/
theorem Occurs.running_eq {a : Action} (h : s.Occurs a s') (hnodup : s.ids.Nodup) :
    s'.running = s.running := by
  cases h with
  | nothing => rfl
  | came peer _ hid =>
    rw [running, clients_connect, List.countP_append]
    cases s.mode <;> rfl
  | failed =>
    rw [running, clients_wake]
    rfl
  | @touched other c _ hc w cancelled =>
    obtain rfl : c.id = other := id_of_find? hc
    obtain ⟨n, hbefore, hafter⟩ :=
      running_update hnodup hc fun _ => { c with wire := w, cancelled }
    have hsame : (s.touch { c with wire := w, cancelled }).running =
        (s.update c.id fun _ => { c with wire := w, cancelled }).running :=
      congrArg (List.countP Client.isEchoing) (clients_touch s { c with wire := w, cancelled })
    rw [hsame, hafter, hbefore]
    rfl

theorem Tally.acted {past : List Stint} (h : Tally s past) (a : Action) :
    Tally (s.acted a) past := by
  have hs := happens_acted h.listening.mode a
  have hoccurs := s.occurs_acted a
  refine ⟨h.listening.happens hs, ?_, ?_⟩
  · rw [hoccurs.running_eq h.listening.nodup]
    exact h.leads
  · rw [hoccurs.counters_eq]
    exact h.counters

theorem lines_concat (past : List Stint) (st : Stint) :
    lines (past ++ [st]) = lines past ++ logged st.effects := by
  simp [lines]

theorem Tally.run {past : List Stint} (h : Tally s past) {t : Task} {rest : List Task}
    (hready : s.ready = t :: rest) :
    Tally (Server.run { s with ready := rest } t).1
      (past ++ [⟨t, (Server.run { s with ready := rest } t).2⟩]) := by
  obtain ⟨hleads, hcount⟩ := leads_run h.listening.nodup h.listening.arriving_stage
    (fun _ _ hc => h.listening.find?_cancelled hc) t rest
  refine ⟨h.listening.run hready, ?_, ?_⟩
  · rw [lines_concat]
    exact h.leads.append hleads
  · rw [lines_concat, List.foldl_append, ← h.counters]
    exact hcount.symm

end Server

end WebSocketEcho
