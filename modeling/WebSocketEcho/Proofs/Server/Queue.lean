import WebSocketEcho.Server

/-!
# Steps, actions and tasks one at a time

A run of the server is a list of steps, a step is a list of actions and then a queue of tasks.
This module takes each of the three apart: `perform_fst` and `acted` for actions, `runReady_cons`
for tasks, and `steps_append` for steps.  Whatever is kept by one action and by one task is then
kept by a run.
-/

namespace WebSocketEcho.Server

variable {s : Server}

/-! ## Actions -/

/-- The server after an action, before it runs.  One that cannot be done changes nothing. -/
def acted (s : Server) (a : Action) : Server :=
  match s.act a with
  | .ok s' => s'
  | .error _ => s

theorem acted_of_ok {a : Action} {s' : Server} (h : s.act a = .ok s') : s.acted a = s' := by
  rw [acted, h]

theorem acted_of_error {a : Action} {p : Problem} (h : s.act a = .error p) : s.acted a = s := by
  rw [acted, h]

/-- A client under an id that nobody has can connect. -/
theorem acted_connect {id : String} (hid : s.find? id = none) (peer : SocketAddress) :
    s.acted (.connect id peer) = s.connect id peer := by
  refine acted_of_ok ?_
  rw [act, hid]
  rfl

theorem perform_fst (s : Server) (actions : List Action) :
    (s.perform actions).1 = actions.foldl acted s := by
  refine (List.foldl_hom Prod.fst fun x a => ?_).symm
  obtain ⟨s', problems⟩ := x
  rw [acted]
  dsimp only
  cases s'.act a <;> rfl

/-! ## Tasks -/

/-- What was done before stands in front of what is done then. -/
theorem runReady_done (n : Nat) (s : Server) (done : List (List Effect)) :
    runReady n s done = ((runReady n s []).1, done.reverse.flatten ++ (runReady n s []).2) := by
  induction n generalizing s done with
  | zero => simp [runReady]
  | succ n ih =>
    rw [runReady, runReady]
    cases s.ready with
    | nil => simp
    | cons t rest =>
      dsimp only
      rw [ih _ (_ :: done), ih _ [_]]
      simp

theorem runReady_nil (n : Nat) (h : s.ready = []) : runReady n s [] = (s, []) := by
  cases n with
  | zero => rfl
  | succ n =>
    rw [runReady, h]
    rfl

theorem runReady_cons (n : Nat) {t : Task} {rest : List Task} (h : s.ready = t :: rest) :
    runReady (n + 1) s [] =
      ((runReady n (run { s with ready := rest } t).1 []).1,
        (run { s with ready := rest } t).2 ++
          (runReady n (run { s with ready := rest } t).1 []).2) := by
  rw [runReady, h]
  dsimp only
  rw [runReady_done]
  simp

/-- There is work for every task in the queue. -/
theorem length_ready_le_work (s : Server) : s.ready.length ≤ s.work := by
  have hle : ∀ (clients : List Client) (n : Nat),
      n ≤ clients.foldl (fun sum c => sum + clientWork c) n := by
    intro clients
    induction clients with
    | nil => exact fun n => Nat.le_refl n
    | cons c rest ih => exact fun n => Nat.le_trans (Nat.le_add_right _ _) (ih _)
  exact Nat.le_trans (Nat.le_add_right _ _) (hle s.clients _)

/-- A server on which nothing is to be done stays as it is. -/
theorem settle_of_nil (h : s.ready = []) : s.settle = (s, []) := runReady_nil _ h

/-- A single task that wakes no other is all that is run. -/
theorem settle_of_singleton {t : Task} (h : s.ready = [t])
    (hrun : (run { s with ready := [] } t).1.ready = []) :
    s.settle = run { s with ready := [] } t := by
  have hwork := s.length_ready_le_work
  rw [h, List.length_singleton] at hwork
  obtain ⟨n, hn⟩ := Nat.exists_eq_add_of_le' hwork
  rw [settle, hn, runReady_cons n h, runReady_nil n hrun, List.append_nil]

/-! ## Steps -/

theorem step_fst (s : Server) (actions : List Action) :
    (s.step actions).1 = (actions.foldl acted s).settle.1 := by
  rw [← perform_fst]
  rfl

theorem effects_step (s : Server) (actions : List Action) :
    (s.step actions).2.effects = (actions.foldl acted s).settle.2 := by
  rw [← perform_fst]
  rfl

theorem steps_cons (s : Server) (actions : List Action) (rest : List (List Action)) :
    s.steps (actions :: rest) =
      (((s.step actions).1.steps rest).1, (s.step actions).2 :: ((s.step actions).1.steps rest).2) :=
  rfl

theorem steps_append (s : Server) (a b : List (List Action)) :
    s.steps (a ++ b) =
      (((s.steps a).1.steps b).1, (s.steps a).2 ++ ((s.steps a).1.steps b).2) := by
  induction a generalizing s with
  | nil => rfl
  | cons actions rest ih =>
    rw [List.cons_append, steps_cons, ih, steps_cons]
    rfl

/-- Every step has its entry. -/
theorem length_steps (s : Server) (steps : List (List Action)) :
    (s.steps steps).2.length = steps.length := by
  induction steps generalizing s with
  | nil => rfl
  | cons actions rest ih =>
    rw [steps_cons, List.length_cons, ih, List.length_cons]

end WebSocketEcho.Server
