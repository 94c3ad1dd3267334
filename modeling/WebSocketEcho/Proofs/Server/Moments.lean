import WebSocketEcho.Proofs.Server.Soundness

/-!
# The rest of a step

What is still to come at a moment in the middle of a step.  A session whose task is in the queue has
one turn before the step is over (`Sound.turn`), every other session has none (`Sound.idle`), and
where a session is over nothing happens any more (`Sound.over`).

`amid` is the server at such a moment and `stintsTo` what has been done up to it;
`stints_of_moment` puts the rest of the step and all later steps behind them.
-/

namespace WebSocketEcho.Server

variable {s s' : Server} {id : String} {c c' : Client} {k k' : Counters} {woken : Bool}
  {effects : List Effect}

/-! ## The rest of a step -/

/-- A stint of another task. -/
def IsOthers (id : String) (st : Stint) : Prop := st.task ≠ .advance id

theorem share_of_others {stints : List Stint} (h : ∀ st ∈ stints, IsOthers id st) :
    share id stints = [] := by
  induction stints with
  | nil => rfl
  | cons st rest ih =>
    obtain ⟨t, effects⟩ := st
    rw [share_cons_of_ne (h _ List.mem_cons_self)]
    exact ih fun other hother => h other (List.mem_cons_of_mem _ hother)

/-- The task of another connection leaves this one as it is, and in the queue if it was there. -/
theorem run_advance_other {other : String} {rest : List Task}
    (hready : s.ready = .advance other :: rest) (hne : id ≠ other) :
    (Server.run { s with ready := rest } (.advance other)).1.find? id = s.find? id ∧
      (Server.run { s with ready := rest } (.advance other)).1.arrivals = s.arrivals ∧
      (.advance id ∈ (Server.run { s with ready := rest } (.advance other)).1.ready ↔
        .advance id ∈ s.ready) := by
  have hmem : .advance id ∈ s.ready ↔ .advance id ∈ rest := by
    rw [hready, List.mem_cons]
    exact or_iff_right fun heq => hne (Task.advance.inj heq)
  rw [hmem]
  cases hd : s.find? other with
  | none =>
    rw [run_unknown hd]
    exact ⟨rfl, rfl, Iff.rfl⟩
  | some d =>
    obtain ⟨d', woken, _, hleaves⟩ := turned_run hd rest
    refine ⟨?_, hleaves.arrivals, ?_⟩
    · rw [hleaves.find?_eq hd, if_neg hne]
    · rw [hleaves.mem_ready_iff, id_of_find? hd]
      simp [hne]

/-- Another task leaves a connection that the listener has taken as it is, and in the queue if it
was there. -/
theorem Sound.others (h : Sound s) {t : Task} {rest : List Task} (hready : s.ready = t :: rest)
    (hother : t ≠ .advance id) (hc : s.find? id = some c) (htaken : c.stage ≠ .arriving) :
    (Server.run { s with ready := rest } t).1.find? id = some c ∧
      (.advance id ∈ (Server.run { s with ready := rest } t).1.ready ↔ .advance id ∈ s.ready) := by
  cases t with
  | accept =>
    obtain ⟨_, hrest, _⟩ := h.queue_cons hready
    have hmem : .advance id ∈ s.ready ↔ .advance id ∈ rest := by
      rw [hready, List.mem_cons]
      exact or_iff_right (Ne.symm hother)
    rw [hmem]
    show (each take _ s.arrivals).1.find? id = some c ∧
      (.advance id ∈ (each take _ s.arrivals).1.ready ↔ _)
    have hnot : .client id ∉ s.arrivals := by
      intro hin
      obtain ⟨_, d, hd, hstage⟩ := h.arriving id hin
      cases hc.symm.trans hd
      exact htaken hstage
    obtain ⟨_, hkeep, honly⟩ := ready_each_take (s := { s with ready := rest, arrivals := [] })
      s.arrivals hrest
    refine ⟨?_, honly id hnot, hkeep _⟩
    refine (find?_each_take s.arrivals _ id).trans ?_
    show (s.find? id).map _ = some c
    rw [hc, Option.map_some, if_neg hnot]
  | advance other =>
    have hne : id ≠ other := fun heq => hother (heq ▸ rfl)
    obtain ⟨hfind, _, hqueue⟩ := run_advance_other hready hne
    exact ⟨hfind.trans hc, hqueue⟩

/-- A session whose task is not in the queue stays as it is. -/
theorem Sound.idle (h : Sound s) (hc : s.find? id = some c) (hsession : c.IsSession)
    (hnot : .advance id ∉ s.ready) (n : Nat) :
    (runReady n s []).1.find? id = some c ∧ ∀ st ∈ stints n s, IsOthers id st := by
  induction n generalizing s with
  | zero => exact ⟨hc, fun st hst => by cases hst⟩
  | succ n ih =>
    cases hready : s.ready with
    | nil =>
      rw [runReady_nil _ hready, stints_of_nil _ hready]
      exact ⟨hc, fun st hst => by cases hst⟩
    | cons t rest =>
      have hother : t ≠ .advance id := by
        rintro rfl
        exact hnot (by rw [hready]; exact List.mem_cons_self)
      obtain ⟨hc', hqueue⟩ := h.others hready hother hc hsession.stage_ne
      obtain ⟨hfind, hall⟩ := ih (h.run hready) hc' fun hin => hnot (hqueue.1 hin)
      rw [runReady_cons n hready, stints_cons n hready]
      exact ⟨hfind, List.forall_mem_cons.2 ⟨hother, hall⟩⟩

/-- A session whose task is in the queue has one turn before the queue is empty, with the counters
that the tasks before it have left. -/
theorem Sound.turn (h : Sound s) (hc : s.find? id = some c) (hsession : c.IsSession)
    (hin : .advance id ∈ s.ready) {n : Nat} (hnil : (runReady n s []).1.ready = []) :
    ∃ front c' k effects back,
      stints n s = front ++ ⟨.advance id, effects⟩ :: back ∧
      (∀ st ∈ front ++ back, IsOthers id st) ∧
      Turned ((passages (front.flatMap (·.effects))).foldl Passage.count s.counters) c c' false k
        effects ∧
      (runReady n s []).1.find? id = some c' := by
  induction n generalizing s with
  | zero =>
    rw [show (runReady 0 s []).1 = s from rfl] at hnil
    rw [hnil] at hin
    cases hin
  | succ n ih =>
    cases hready : s.ready with
    | nil =>
      rw [hready] at hin
      cases hin
    | cons t rest =>
      rw [runReady_cons n hready] at hnil
      rw [runReady_cons n hready, stints_cons n hready]
      by_cases hother : t = .advance id
      · rw [hother] at hready hnil ⊢
        obtain ⟨hnot, hrest, _⟩ := h.queue_cons hready
        obtain ⟨c', woken, hturned, hleaves⟩ := turned_run hc rest
        obtain rfl : woken = false := hturned.not_woken hsession
        have hc' := (hleaves.find?_eq hc id).trans (if_pos rfl)
        have hdone : .advance id ∉
            (Server.run { s with ready := rest } (.advance id)).1.ready := by
          rw [hleaves.mem_ready_iff]
          simp [hnot]
        obtain ⟨hfind, hall⟩ :=
          (h.run hready).idle hc' (hturned.isSession hsession) hdone n
        exact ⟨[], c', _, _, _, rfl, hall, hturned, hfind⟩
      · obtain ⟨hc', hqueue⟩ := h.others hready hother hc hsession.stage_ne
        obtain ⟨front, c', k, effects, back, hstints, hall, hturned, hfind⟩ :=
          ih (h.run hready) hc' (hqueue.2 hin) hnil
        refine ⟨⟨t, (Server.run { s with ready := rest } t).2⟩ :: front, c', k, effects, back,
          ?_, ?_, ?_, hfind⟩
        · rw [hstints]
          rfl
        · exact List.forall_mem_cons.2 ⟨hother, hall⟩
        · rw [counters_run] at hturned
          rw [List.flatMap_cons, passages_append, List.foldl_append]
          exact hturned

/-- Nothing happens any more where a session is over. -/
theorem Sound.over (h : Sound s) {t : Task} {rest : List Task} (hready : s.ready = t :: rest)
    (hc : s.find? id = some c) (hstage : c.stage = .ended) :
    (Server.run { s with ready := rest } t).1.find? id = some c ∧
      share id [⟨t, (Server.run { s with ready := rest } t).2⟩] = [] := by
  by_cases hother : t = .advance id
  · subst hother
    obtain ⟨c', woken, hturned, hleaves⟩ := turned_run hc rest
    have hrest : c' = c ∧ (Server.run { s with ready := rest } (.advance id)).2 = [] := by
      generalize (Server.run { s with ready := rest } (.advance id)).2 = effects at hturned
      generalize (Server.run { s with ready := rest } (.advance id)).1.counters = k at hturned
      cases hturned with
      | moved _ hmove =>
        cases hmove with
        | idle => exact ⟨rfl, rfl⟩
        | served h | began h | read h | gaveUp h =>
          rw [hstage] at h
          cases h
      | rested => exact ⟨rfl, rfl⟩
      | stopped _ h =>
        rw [hstage] at h
        cases h
      | dropped _ _ h => exact absurd hstage h
    refine ⟨(hleaves.find?_eq hc id).trans ?_, ?_⟩
    · rw [if_pos rfl, hrest.1]
    · rw [share_cons_self, hrest.2]
      rfl
  · have hsession : c.IsSession := by
      rw [Client.IsSession, hstage]
      trivial
    exact ⟨(h.others hready hother hc hsession.stage_ne).1, share_cons_of_ne hother _ _⟩

/-- What is done on a connection changes only its wire and whether it is to stop. -/
theorem exists_acted (hc : s.find? id = some c) (a : Action) :
    ∃ c', (s.acted a).find? id = some c' ∧ c'.peer = c.peer ∧ c'.stage = c.stage := by
  have hoccurs := s.occurs_acted a
  generalize s.acted a = s' at hoccurs
  cases hoccurs with
  | nothing => exact ⟨c, hc, rfl, rfl⟩
  | came peer _ hid =>
    rw [find?_connect_newcomer hid]
    split
    · rename_i heq
      rw [heq, hid] at hc
      cases hc
    · exact ⟨c, hc, rfl, rfl⟩
  | failed =>
    rw [find?_wake]
    exact ⟨c, hc, rfl, rfl⟩
  | @touched other d _ hd w cancelled =>
    obtain rfl : d.id = other := id_of_find? hd
    rw [find?_touch, hc, Option.map_some]
    split
    · rename_i heq
      rw [heq, hd] at hc
      cases hc
      exact ⟨_, rfl, rfl, rfl⟩
    · exact ⟨c, rfl, rfl, rfl⟩

/-- What is done on a connection does not move its session. -/
theorem exists_stage_acted (hc : s.find? id = some c) (a : Action) :
    ∃ c', (s.acted a).find? id = some c' ∧ c'.stage = c.stage := by
  obtain ⟨c', hc', -, hstage⟩ := exists_acted hc a
  exact ⟨c', hc', hstage⟩

/-- Nothing happens in any step where a session is over. -/
theorem Sound.share_of_over (h : Sound s) (hc : s.find? id = some c) (hstage : c.stage = .ended)
    (later : List (List Action)) : share id (s.runStints later) = [] := by
  have hrun : ∀ (s : Server) (past : List Stint) (t : Task) (rest : List Task),
      s.ready = t :: rest → (Sound s ∧ (∃ c, s.find? id = some c ∧ c.stage = .ended) ∧ share id past = []) →
      Sound (Server.run { s with ready := rest } t).1 ∧
        (∃ c, (Server.run { s with ready := rest } t).1.find? id = some c ∧ c.stage = .ended) ∧
        share id (past ++ [⟨t, (Server.run { s with ready := rest } t).2⟩]) = [] := by
    rintro s past t rest hready ⟨hsound, ⟨c, hc, hstage⟩, hshare⟩
    obtain ⟨hc', hnone⟩ := hsound.over hready hc hstage
    refine ⟨hsound.run hready, ⟨c, hc', hstage⟩, ?_⟩
    rw [share_append, hshare, hnone]
    rfl
  have hacted : ∀ (s : Server) (past : List Stint) (a : Action),
      (Sound s ∧ (∃ c, s.find? id = some c ∧ c.stage = .ended) ∧ share id past = []) →
      Sound (s.acted a) ∧ (∃ c, (s.acted a).find? id = some c ∧ c.stage = .ended) ∧
        share id past = [] := by
    rintro s past a ⟨hsound, ⟨c, hc, hstage⟩, hshare⟩
    obtain ⟨c', hc', hsame⟩ := exists_stage_acted hc a
    exact ⟨hsound.acted a, ⟨c', hc', hsame.trans hstage⟩, hshare⟩
  have hstart : Sound s ∧ (∃ c, s.find? id = some c ∧ c.stage = .ended) ∧ share id [] = [] :=
    ⟨h, ⟨c, hc, hstage⟩, rfl⟩
  exact (steps_induction hrun hacted hstart later).2.2

/-- What is done on the connection of a session that is over wakes nobody. -/
theorem acted_of_over (hc : s.find? id = some c) (hstage : c.stage = .ended) {a : Action}
    (ha : a.target? = some id) :
    (s.acted a).ready = s.ready ∧ (s.acted a).counters = s.counters := by
  have hoccurs := s.occurs_acted a
  refine ⟨?_, hoccurs.counters_eq⟩
  generalize s.acted a = s' at hoccurs
  cases hoccurs with
  | nothing => rfl
  | came peer ha' hid =>
    cases ha.symm.trans ha'
    rw [hid] at hc
    cases hc
  | failed ha' =>
    rw [ha] at ha'
    cases ha'
  | touched ha' hd w cancelled =>
    cases ha.symm.trans ha'
    cases hc.symm.trans hd
    have htouch : s.touch { c with wire := w, cancelled } = s.update c.id fun _ => _ :=
      touch_of_ended hstage
    rw [htouch]
    rfl

/-- Steps that only act on such a connection do nothing. -/
theorem steps_of_over (hc : s.find? id = some c) (hstage : c.stage = .ended) (hready : s.ready = [])
    {later : List (List Action)} (hlater : ∀ actions ∈ later, ∀ a ∈ actions, a.target? = some id) :
    ∀ entry ∈ (s.steps later).2, entry.effects = [] ∧ entry.counters = s.counters := by
  have hacted : ∀ (actions : List Action) (s : Server) (c : Client), s.find? id = some c →
      c.stage = .ended → (∀ a ∈ actions, a.target? = some id) →
      (∃ c', (actions.foldl acted s).find? id = some c' ∧ c'.stage = .ended) ∧
        (actions.foldl acted s).ready = s.ready ∧
        (actions.foldl acted s).counters = s.counters := by
    intro actions
    induction actions with
    | nil => exact fun s c hc hstage _ => ⟨⟨c, hc, hstage⟩, rfl, rfl⟩
    | cons a rest ih =>
      intro s c hc hstage hall
      obtain ⟨hready, hcounters⟩ := acted_of_over hc hstage (hall a List.mem_cons_self)
      obtain ⟨c', hc', hsame⟩ := exists_stage_acted hc a
      obtain ⟨hfound, hready', hcounters'⟩ := ih (s.acted a) c' hc' (hsame.trans hstage)
        fun b hb => hall b (List.mem_cons_of_mem _ hb)
      exact ⟨hfound, hready'.trans hready, hcounters'.trans hcounters⟩
  induction later generalizing s c with
  | nil => exact fun entry hentry => nomatch hentry
  | cons actions rest ih =>
    obtain ⟨⟨c', hc', hstage'⟩, hready', hcounters'⟩ :=
      hacted actions s c hc hstage (hlater actions List.mem_cons_self)
    have hsettle := settle_of_nil (hready'.trans hready)
    have hserver : (s.step actions).1 = actions.foldl acted s := by rw [step_fst, hsettle]
    have heffects : (s.step actions).2.effects = [] := by rw [effects_step, hsettle]
    have hentry : (s.step actions).2.counters = s.counters :=
      (congrArg Server.counters hserver).trans hcounters'
    rw [steps_cons]
    refine List.forall_mem_cons.2 ⟨⟨heffects, hentry⟩, ?_⟩
    rw [hserver, ← hcounters']
    exact ih hc' hstage' (hready'.trans hready) fun other hother =>
      hlater other (List.mem_cons_of_mem _ hother)

/-! ## Moments -/

/-- The server after steps, without connections at first. -/
def reached (mode : Mode) (steps : List (List Action)) : Server := ((empty mode).steps steps).1

/-- The server in the middle of a step: after the steps `earlier`, the actions of the next step and
at most `n` of its tasks. -/
def amid (mode : Mode) (earlier : List (List Action)) (actions : List Action) (n : Nat) : Server :=
  (runReady n ((reached mode earlier).perform actions).1 []).1

/-- The tasks up to there. -/
def stintsTo (mode : Mode) (earlier : List (List Action)) (actions : List Action) (n : Nat) :
    List Stint :=
  (empty mode).runStints earlier ++ stints n ((reached mode earlier).perform actions).1

theorem ready_reached (mode : Mode) (steps : List (List Action)) :
    (reached mode steps).ready = [] := by
  cases mode with
  | sessions => exact (kept_after steps).2
  | http => exact (listening_serving steps).2.1

theorem reached_concat (mode : Mode) (earlier : List (List Action)) (actions : List Action) :
    reached mode (earlier ++ [actions]) = ((reached mode earlier).step actions).1 := by
  rw [reached, steps_append]
  rfl

theorem runReady_add (m n : Nat) (s : Server) :
    (runReady (m + n) s []).1 = (runReady n (runReady m s []).1 []).1 ∧
      stints (m + n) s = stints m s ++ stints n (runReady m s []).1 := by
  induction m generalizing s with
  | zero =>
    rw [Nat.zero_add]
    exact ⟨rfl, rfl⟩
  | succ m ih =>
    cases hready : s.ready with
    | nil =>
      rw [runReady_nil _ hready, runReady_nil _ hready, stints_of_nil _ hready,
        stints_of_nil _ hready, stints_of_nil _ hready, runReady_nil _ hready]
      exact ⟨rfl, rfl⟩
    | cons t rest =>
      obtain ⟨hserver, hstints⟩ := ih (Server.run { s with ready := rest } t).1
      rw [Nat.succ_add, runReady_cons _ hready, runReady_cons _ hready, stints_cons _ hready,
        stints_cons _ hready, hserver, hstints]
      exact ⟨rfl, rfl⟩

theorem runStints_append (s : Server) (a b : List (List Action)) :
    s.runStints (a ++ b) = s.runStints a ++ (s.steps a).1.runStints b := by
  induction a generalizing s with
  | nil => rfl
  | cons actions rest ih =>
    rw [List.cons_append, runStints, ih, runStints, steps_cons, List.append_assoc]

/-- What comes behind a moment of a step: the rest of the step and what comes later. -/
theorem stints_of_moment (mode : Mode) (earlier : List (List Action)) (actions : List Action)
    (m : Nat) :
    ∃ n, (runReady n (amid mode earlier actions m) []).1 = reached mode (earlier ++ [actions]) ∧
      ∀ later, (empty mode).runStints (earlier ++ actions :: later) =
        stintsTo mode earlier actions m ++ stints n (amid mode earlier actions m) ++
          (reached mode (earlier ++ [actions])).runStints later := by
  have hsettled : (runReady ((reached mode earlier).perform actions).1.work
      ((reached mode earlier).perform actions).1 []).1 = reached mode (earlier ++ [actions]) := by
    rw [reached_concat, step_fst, ← perform_fst]
    rfl
  have hrun : ∀ later, (empty mode).runStints (earlier ++ actions :: later) =
      (empty mode).runStints earlier ++
        stints ((reached mode earlier).perform actions).1.work
          ((reached mode earlier).perform actions).1 ++
        (reached mode (earlier ++ [actions])).runStints later := by
    intro later
    rw [runStints_append, runStints, List.append_assoc, reached_concat, stepStints, perform_fst]
    rfl
  obtain hm | hm := Nat.le_total m ((reached mode earlier).perform actions).1.work
  · obtain ⟨n, hn⟩ := Nat.exists_eq_add_of_le hm
    obtain ⟨hserver, hstints⟩ := runReady_add m n ((reached mode earlier).perform actions).1
    rw [hn, hserver] at hsettled
    refine ⟨n, hsettled, fun later => ?_⟩
    rw [hrun, hn, hstints, stintsTo, amid]
    simp only [List.append_assoc]
  · -- The step was over before.
    obtain ⟨n, hn⟩ := Nat.exists_eq_add_of_le hm
    obtain ⟨hserver, hstints⟩ :=
      runReady_add ((reached mode earlier).perform actions).1.work n
        ((reached mode earlier).perform actions).1
    have hready := ready_reached mode (earlier ++ [actions])
    rw [hsettled, runReady_nil _ hready] at hserver
    rw [hsettled, stints_of_nil _ hready, List.append_nil] at hstints
    refine ⟨0, ?_, fun later => ?_⟩
    · rw [amid, hn, hserver, runReady_nil _ hready]
    · rw [hrun, stintsTo, hn, hstints]
      exact congrArg (· ++ _) (List.append_nil _).symm

/-- What actions and tasks keep holds at every moment. -/
theorem amid_induction {P : Server → List Stint → Prop} (mode : Mode) (hempty : P (empty mode) [])
    (hacted : ∀ (s : Server) (past : List Stint) (a : Action), P s past → P (s.acted a) past)
    (hrun : ∀ (s : Server) (past : List Stint) (t : Task) (rest : List Task), s.ready = t :: rest →
      P s past → P (Server.run { s with ready := rest } t).1
        (past ++ [⟨t, (Server.run { s with ready := rest } t).2⟩]))
    (earlier : List (List Action)) (actions : List Action) (n : Nat) :
    P (amid mode earlier actions n) (stintsTo mode earlier actions n) := by
  rw [amid, stintsTo, perform_fst]
  exact runReady_induction hrun n
    (foldl_acted_induction hacted (steps_induction hrun hacted hempty earlier) actions)

theorem sound_amid (mode : Mode) (earlier : List (List Action)) (actions : List Action) (n : Nat) :
    Sound (amid mode earlier actions n) :=
  amid_induction (P := fun s _ => Sound s) mode (sound_empty mode) (fun _ _ a h => h.acted a)
    (fun _ _ _ _ hready h => h.run hready) earlier actions n

theorem sound_reached (mode : Mode) (steps : List (List Action)) : Sound (reached mode steps) :=
  sound_amid mode steps [] 0

end WebSocketEcho.Server
