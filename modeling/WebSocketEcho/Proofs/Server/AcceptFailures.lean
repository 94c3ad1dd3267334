import WebSocketEcho.Proofs.Server.Pipelined

/-!
# Failures to accept

When the listener fails to accept a connection it says so in the log and listens on.  A step with
such a failure and nothing else leaves the server exactly as it was (`step_failing`), whatever its
connections are in the middle of, so a run shows the same with any number of these steps in it
(`acceptFailures_harmless`).

Clients that come later are welcome: `Welcomed` follows a connection from the moment it comes in,
through the other actions of the step and the tasks of other connections, until the listener takes
it and says so.
-/

namespace WebSocketEcho.Server

open Http (Inquiry)

variable {s s' : Server} {id : String} {peer : SocketAddress} {c c' : Client} {k k' : Counters}
  {woken : Bool} {effects : List Effect}

/-! ## A step that fails -/

/-- The listener fails to accept a connection, and nothing else is done. -/
def failing : List Action := [.failAccept]

/-- What such a step shows of a server with these counters. -/
def failingEntry (k : Counters) : Entry := ⟨[.logged (.acceptFailed .tooManyOpenFiles)], [], k⟩

/-- A server on which nothing is to be done is left as it was. -/
theorem step_failing (hmode : s.mode = .http) (hready : s.ready = [])
    (harrivals : s.arrivals = []) : s.step failing = (s, failingEntry s.counters) := by
  obtain ⟨mode, clients, counters, arrivals, ready⟩ := s
  obtain rfl : mode = .http := hmode
  obtain rfl : ready = [] := hready
  obtain rfl : arrivals = [] := harrivals
  let failed : Server := ⟨.http, clients, counters, [.failure .tooManyOpenFiles], [.accept]⟩
  have hsettle : failed.settle =
      (⟨.http, clients, counters, [], []⟩, [.logged (.acceptFailed .tooManyOpenFiles)]) :=
    settle_of_singleton (s := failed) rfl rfl
  show (failed.settle.1, (⟨failed.settle.2, [], failed.settle.1.counters⟩ : Entry)) = _
  rw [hsettle]
  rfl

theorem steps_failing (hmode : s.mode = .http) (hready : s.ready = []) (harrivals : s.arrivals = [])
    (n : Nat) :
    s.steps (List.replicate n failing) = (s, List.replicate n (failingEntry s.counters)) := by
  induction n with
  | zero => rfl
  | succ n ih =>
    rw [List.replicate_succ, List.replicate_succ, steps_cons, step_failing hmode hready harrivals,
      ih]

/-! ## Clients that come in -/

/-- A connection that has come in waits for the listener, or the listener has taken it and has said
so. -/
inductive Welcomed (id : String) (peer : SocketAddress) (s : Server) (effects : List Effect) :
    Prop where
  | waiting {c : Client} (hc : s.find? id = some c) (hpeer : c.peer = peer)
      (hin : .client id ∈ s.arrivals)
  | taken {c : Client} (hc : s.find? id = some c) (hstage : c.stage ≠ .arriving)
      (hlog : .logged (.connected peer) ∈ effects)

theorem arrivals_acted (s : Server) (a : Action) : s.arrivals ⊆ (s.acted a).arrivals := by
  have hoccurs := s.occurs_acted a
  generalize s.acted a = s' at hoccurs
  cases hoccurs with
  | nothing => exact List.Subset.refl _
  | @came id peer =>
    cases hmode : s.mode with
    | sessions =>
      rw [connect_of_sessions hmode, arrivals_wake]
      exact List.Subset.refl _
    | http =>
      rw [connect_of_http hmode, arrivals_wake]
      exact List.subset_append_left _ _
  | failed =>
    rw [arrivals_wake]
    exact List.subset_append_left _ _
  | touched =>
    rw [arrivals_touch]
    exact List.Subset.refl _

theorem Welcomed.acted (h : Welcomed id peer s effects) (a : Action) :
    Welcomed id peer (s.acted a) effects := by
  cases h with
  | waiting hc hpeer hin =>
    obtain ⟨c', hc', hpeer', -⟩ := exists_acted hc a
    exact .waiting hc' (hpeer'.trans hpeer) (arrivals_acted s a hin)
  | taken hc hstage hlog =>
    obtain ⟨c', hc', -, hstage'⟩ := exists_acted hc a
    exact .taken hc' (hstage' ▸ hstage) hlog

/-- The listener says whom it takes. -/
theorem mem_each_take {arrivals : List Arrival} (hin : .client id ∈ arrivals)
    (hc : s.find? id = some c) : .logged (.connected c.peer) ∈ (each take s arrivals).2 := by
  induction arrivals generalizing s c with
  | nil => cases hin
  | cons a rest ih =>
    rw [each_cons]
    rcases List.mem_cons.1 hin with rfl | hin
    · rw [take_client hc]
      exact List.mem_append_left _ (List.mem_singleton.2 rfl)
    · have hc' := find?_take s a id
      rw [hc, Option.map_some] at hc'
      have hlog := ih hin hc'
      refine List.mem_append_right _ ?_
      split at hlog <;> exact hlog

theorem Turned.peer_eq (h : Turned k c c' woken k' effects) : c'.peer = c.peer := by
  cases h with
  | moved _ h => cases h <;> rfl
  | rested | stopped | dropped => rfl

/-- A turn does not bring a connection back to the listener. -/
theorem Turned.taken (h : Turned k c c' woken k' effects) (hstage : c.stage ≠ .arriving) :
    c'.stage ≠ .arriving := by
  cases h with
  | moved _ h =>
    cases h with
    | idle => exact hstage
    | @served _ _ standing => cases standing <;> exact Stage.noConfusion
    | @began _ r | @read _ r =>
      obtain ⟨reactions, progress⟩ := r
      cases progress <;> exact Stage.noConfusion
    | gaveUp => exact Stage.noConfusion
  | rested => exact hstage
  | stopped | dropped => exact Stage.noConfusion

theorem Welcomed.run (h : Welcomed id peer s effects) (hsound : Sound s) {t : Task}
    {rest : List Task} (hready : s.ready = t :: rest) :
    Welcomed id peer (Server.run { s with ready := rest } t).1
      (effects ++ (Server.run { s with ready := rest } t).2) := by
  cases h with
  | @waiting c hc hpeer hin =>
    cases t with
    | accept =>
      have hc' : ({ s with ready := rest, arrivals := [] } : Server).find? id = some c := hc
      have hfind := find?_each_take s.arrivals { s with ready := rest, arrivals := [] } id
      rw [hc', Option.map_some, if_pos hin] at hfind
      exact .taken hfind Stage.noConfusion
        (List.mem_append_right _ (hpeer ▸ mem_each_take hin hc'))
    | advance other =>
      by_cases heq : id = other
      · subst heq
        obtain ⟨c', woken, hturned, hleaves⟩ := turned_run hc rest
        refine .waiting ((hleaves.find?_eq hc id).trans (if_pos rfl))
          (hturned.peer_eq.trans hpeer) ?_
        rw [hleaves.arrivals]
        exact hin
      · obtain ⟨hfind, harrivals, -⟩ := run_advance_other hready heq
        refine .waiting (hfind.trans hc) hpeer ?_
        rw [harrivals]
        exact hin
  | @taken c hc hstage hlog =>
    have hlog' := List.mem_append_left (Server.run { s with ready := rest } t).2 hlog
    by_cases hown : t = .advance id
    · subst hown
      obtain ⟨c', woken, hturned, hleaves⟩ := turned_run hc rest
      exact .taken ((hleaves.find?_eq hc id).trans (if_pos rfl)) (hturned.taken hstage) hlog'
    · exact .taken (hsound.others hready hown hc hstage).1 hstage hlog'

/-- A client that connects is taken by the listener before the step is over. -/
theorem connected_step (hsound : Sound s) (hlistening : Listening s) {before after : List Action}
    (hid : (before.foldl acted s).find? id = none) :
    .connected peer ∈ (s.step (before ++ .connect id peer :: after)).2.log ∧
      ∃ c, (s.step (before ++ .connect id peer :: after)).1.find? id = some c ∧
        c.stage ≠ .arriving := by
  have hmode : (before.foldl acted s).mode = .http := (hlistening.foldl_acted before).mode
  have hsound' : Sound (before.foldl acted s) :=
    @foldl_acted_induction (fun s _ => Sound s) (fun _ _ a h => h.acted a) s [] hsound before
  have hcame : Welcomed id peer ((before.foldl acted s).acted (.connect id peer)) [] := by
    rw [acted_connect hid]
    refine .waiting ((find?_connect_of_http hmode hid peer id).trans (if_pos rfl)) rfl ?_
    rw [connect_of_http hmode, arrivals_wake]
    exact List.mem_append_right _ (List.mem_singleton.2 rfl)
  -- From here on the connection is followed through actions and tasks together with the queue.
  have hacted : Sound ((before ++ .connect id peer :: after).foldl acted s) ∧
      Welcomed id peer ((before ++ .connect id peer :: after).foldl acted s) [] := by
    rw [List.foldl_append]
    exact @foldl_acted_induction (fun s _ => Sound s ∧ Welcomed id peer s [])
      (fun _ _ a h => ⟨h.1.acted a, h.2.acted a⟩) _ [] ⟨hsound'.acted _, hcame⟩ after
  have hsettled : Sound (s.step (before ++ .connect id peer :: after)).1 ∧
      Welcomed id peer (s.step (before ++ .connect id peer :: after)).1
        (s.step (before ++ .connect id peer :: after)).2.effects := by
    rw [step_fst, ← flatMap_stepStints]
    refine @runReady_induction
      (fun s past => Sound s ∧ Welcomed id peer s (past.flatMap (·.effects)))
      (fun s past t rest hready h => ⟨h.1.run hready, ?_⟩) _ _ [] hacted
    rw [List.flatMap_append, List.flatMap_singleton]
    exact h.2.run h.1 hready
  cases hsettled.2 with
  | waiting _ _ hin =>
    rw [step_fst, (hlistening.foldl_acted _).settle.2.2] at hin
    cases hin
  | taken hc hstage hlog =>
    exact ⟨List.mem_filterMap.2 ⟨_, hlog, rfl⟩, _, hc, hstage⟩

/-! ## The result -/

/-- What a step shows in which the listener fails, at these counters: one line of the log. -/
structure OnlyReports (k : Counters) (e : Entry) : Prop where
  output : ∀ id, e.output id = []
  closed : e.closed = []
  problems : e.problems = []
  counters : e.counters = k
  log : e.log.map (·.line) = ["ERROR accept error: Too many open files (os error 24)"]

theorem onlyReports_failingEntry (k : Counters) : OnlyReports k (failingEntry k) := by
  constructor
  · exact fun id => rfl
  · exact List.mergeSort_nil
  · rfl
  · rfl
  · show [(Log.Event.acceptFailed .tooManyOpenFiles).line] = _
    decide +kernel

/-- A run with `n` failures between two of its steps. -/
def withFailures (before : List (List Action)) (n : Nat) (later : List (List Action)) :
    List (List Action) :=
  before ++ List.replicate n failing ++ later

/-- Nothing comes of `n` failures between the steps `before` and `later`. -/
structure Harmless (before : List (List Action)) (n : Nat) (later : List (List Action)) :
    Prop where
  /-- All other steps show what they show without the failures, and these only report. -/
  entries : ∃ first failures second : List Entry,
    first.length = before.length ∧ failures.length = n ∧ second.length = later.length ∧
      servings (before ++ later) = first ++ second ∧
      servings (withFailures before n later) = first ++ failures ++ second ∧
      ∀ e ∈ failures, OnlyReports (serving before).counters e
  /-- The server is the same in the end. -/
  ending : serving (withFailures before n later) = serving (before ++ later)
  /-- A client that connects in the next step, alone or among others, is accepted in it. -/
  accepted : ∀ (front back : List Action) (id : String) (peer : SocketAddress),
    (front.foldl acted (serving (withFailures before n later))).find? id = none →
      .connected peer ∈ ((serving (withFailures before n later)).step
          (front ++ .connect id peer :: back)).2.log ∧
        ∃ c, ((serving (withFailures before n later)).step
            (front ++ .connect id peer :: back)).1.find? id = some c ∧ c.stage ≠ .arriving
  /-- A client that connects and sends requests in a row, at any time, is answered all of them. -/
  answered : ∀ (id : String) (peer : SocketAddress) (pieces : List Bytes)
    (requests : List Inquiry), pieces.flatten = requests.flatMap (·.head) →
      onlyOn id (before ++ later).flatten = .connect id peer :: pieces.map (.send id) →
        ∃ answers, AnsweredInOrder id requests (servings (withFailures before n later)) answers

/-- A failure is no action of any client. -/
theorem onlyOn_withFailures (id : String) (before : List (List Action)) (n : Nat)
    (later : List (List Action)) :
    onlyOn id (withFailures before n later).flatten = onlyOn id (before ++ later).flatten := by
  have hnone : onlyOn id (List.replicate n failing).flatten = [] := by
    rw [onlyOn, List.filter_eq_nil_iff]
    intro a ha
    obtain ⟨actions, hactions, ha⟩ := List.mem_flatten.1 ha
    rw [List.eq_of_mem_replicate hactions] at ha
    rw [List.mem_singleton.1 ha]
    exact Bool.false_ne_true
  rw [onlyOn] at hnone
  rw [withFailures, onlyOn, onlyOn, List.flatten_append, List.flatten_append, List.filter_append,
    List.filter_append, hnone, List.append_nil, List.flatten_append, List.filter_append]

/-- A client that sends requests in a row is answered, whatever happens to the listener. -/
theorem exists_answers {steps : List (List Action)} {pieces : List Bytes} {requests : List Inquiry}
    (hpieces : pieces.flatten = requests.flatMap (·.head))
    (hsteps : onlyOn id steps.flatten = .connect id peer :: pieces.map (.send id)) :
    ∃ answers, AnsweredInOrder id requests (servings steps) answers := by
  have hstart : Attended id peer requests (onlyOn id steps.flatten) (empty .http) [] := by
    rw [hsteps]
    exact ⟨sound_empty .http, tally_empty, .absent rfl hpieces .nothing⟩
  obtain ⟨_, hready, harrivals⟩ := listening_serving steps
  obtain ⟨answered, _, _, rfl, hserved, _⟩ := hstart.steps.attends.served hready harrivals
  rw [List.nil_append, flatMap_runStints] at hserved
  exact ⟨_, hserved.answeredInOrder⟩

/-- Failures of the listener between two steps are reported, and nothing else comes of them. -/
theorem acceptFailures_harmless (before : List (List Action)) (n : Nat)
    (later : List (List Action)) : Harmless before n later := by
  obtain ⟨hlistening, hready, harrivals⟩ := listening_serving before
  have hwithout : (empty .http).steps (before ++ later) =
      (((serving before).steps later).1, servings before ++ ((serving before).steps later).2) :=
    steps_append _ before later
  have hpadded : (empty .http).steps (before ++ List.replicate n failing) =
      (serving before,
        servings before ++ List.replicate n (failingEntry (serving before).counters)) := by
    rw [steps_append]
    show (((serving before).steps (List.replicate n failing)).1,
      servings before ++ ((serving before).steps (List.replicate n failing)).2) = _
    rw [steps_failing hlistening.mode hready harrivals]
  have hfailures : (empty .http).steps (withFailures before n later) =
      (((serving before).steps later).1,
        servings before ++ List.replicate n (failingEntry (serving before).counters) ++
          ((serving before).steps later).2) := by
    rw [withFailures, steps_append, hpadded]
  constructor
  · refine ⟨servings before, List.replicate n (failingEntry (serving before).counters),
      ((serving before).steps later).2, length_steps _ _, List.length_replicate,
      length_steps _ _, congrArg Prod.snd hwithout, congrArg Prod.snd hfailures, ?_⟩
    intro e he
    rw [List.eq_of_mem_replicate he]
    exact onlyReports_failingEntry _
  · exact (congrArg Prod.fst hfailures).trans (congrArg Prod.fst hwithout).symm
  · intro front back id peer hid
    exact connected_step (sound_reached .http _) (listening_serving _).1 hid
  · intro id peer pieces requests hpieces hsteps
    exact exists_answers hpieces ((onlyOn_withFailures id before n later).trans hsteps)

end WebSocketEcho.Server
