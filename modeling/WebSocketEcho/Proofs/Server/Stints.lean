import WebSocketEcho.Proofs.Server.Queue
import WebSocketEcho.Proofs.Server.Turns

/-!
# Who does what

A run task by task.  A `Stint` is one task with what it did; the stints of a run, one after the
other, show what its entries show (`flatMap_runStints`).  The share of a connection is what its own
task did.  A task writes on, closes and counts no connection but its own (`task_of_mem_run`), so
everything that happens on a connection is in its share (`filterMap_share`).

`steps_induction` is the induction over runs: what one action and one task keep, together with the
stints so far, is kept by any run.
-/

namespace WebSocketEcho

/-- A task with what it did. -/
structure Stint where
  task : Task
  effects : List Effect

/-- What the task of a connection did. -/
def share (id : String) (stints : List Stint) : List Effect :=
  (stints.filter (·.task == .advance id)).flatMap (·.effects)

theorem share_append (id : String) (a b : List Stint) :
    share id (a ++ b) = share id a ++ share id b := by
  simp [share]

theorem share_cons_self (id : String) (effects : List Effect) (rest : List Stint) :
    share id (⟨.advance id, effects⟩ :: rest) = effects ++ share id rest := by
  simp [share]

theorem share_cons_of_ne {id : String} {t : Task} (h : t ≠ .advance id) (effects : List Effect)
    (rest : List Stint) : share id (⟨t, effects⟩ :: rest) = share id rest := by
  simp [share, h]

/-! ## What effects show -/

/-- What is written on a connection. -/
def bytesOn (id : String) (effects : List Effect) : Bytes :=
  Bytes.join (effects.filterMap fun
    | .wrote other bytes => if other == id then some bytes else none
    | _ => none)

/-- The lines of the log. -/
def logged (effects : List Effect) : List Log.Event :=
  effects.filterMap fun
    | .logged event => some event
    | _ => none

theorem Server.Entry.output_eq (e : Server.Entry) (id : String) :
    e.output id = bytesOn id e.effects := rfl

theorem bytesOn_append (id : String) (a b : List Effect) :
    bytesOn id (a ++ b) = bytesOn id a ++ bytesOn id b := by
  simp [bytesOn, Bytes.join_eq_flatten]

@[simp] theorem logged_nil : logged [] = [] := rfl

@[simp] theorem logged_append (a b : List Effect) : logged (a ++ b) = logged a ++ logged b :=
  List.filterMap_append

/-! ## On which connection an effect is -/

/-- The connection that an effect is on.  A line of the log is on none. -/
def Effect.owner? : Effect → Option String
  | .wrote id _ | .closed id => some id
  | .passed p => some p.id
  | .logged _ => none

/-- All effects that are on a connection are on this one. -/
def Concern (id : String) (effects : List Effect) : Prop :=
  ∀ e ∈ effects, ∀ other, e.owner? = some other → other = id

section Concern

variable {id : String} {e : Effect} {effects : List Effect}

theorem concern_nil (id : String) : Concern id [] := by
  intro e he
  cases he

theorem concern_cons : Concern id (e :: effects) ↔
    (∀ other, e.owner? = some other → other = id) ∧ Concern id effects :=
  List.forall_mem_cons

theorem concern_append {a b : List Effect} :
    Concern id (a ++ b) ↔ Concern id a ∧ Concern id b :=
  List.forall_mem_append

theorem concern_logged (event : Log.Event) (h : Concern id effects) :
    Concern id (.logged event :: effects) := by
  refine concern_cons.2 ⟨fun other hother => ?_, h⟩
  cases hother

theorem concern_own (howner : e.owner? = some id) (h : Concern id effects) :
    Concern id (e :: effects) := by
  refine concern_cons.2 ⟨fun other hother => ?_, h⟩
  rw [howner] at hother
  exact (Option.some.inj hother).symm

theorem concern_reactions (id : String) (reactions : List Reaction) :
    Concern id (reactions.map (Server.reactionEffect id)) := by
  induction reactions with
  | nil => exact concern_nil id
  | cons r rest ih =>
    cases r with
    | send r => exact concern_own rfl ih
    | note farewell => exact concern_logged _ ih

theorem concern_deeds (c : Client) (deeds : List Http.Deed) :
    Concern c.id (deeds.flatMap (Server.deedEffects c)) := by
  induction deeds with
  | nil => exact concern_nil c.id
  | cons d rest ih =>
    cases d with
    | write bytes => exact concern_own rfl ih
    | handle r =>
      refine concern_append.2 ⟨concern_logged _ ?_, ih⟩
      cases Service.refusal? r with
      | none => exact concern_nil c.id
      | some why => exact concern_logged _ (concern_nil c.id)

end Concern

namespace Server

variable {s : Server}

/-! ## The effects of a task -/

theorem concern_runSession (s : Server) (c : Client) (session : Session) :
    Concern c.id (s.runSession c session).2 := by
  rcases hp : session.poll c.wire with ⟨reactions, progress⟩
  cases progress with
  | waiting t =>
    rw [runSession_of_waiting hp]
    exact concern_reactions c.id reactions
  | ended o =>
    rw [runSession_of_ended hp]
    refine concern_append.2 ⟨concern_reactions c.id reactions, concern_logged _ ?_⟩
    exact concern_own rfl (concern_logged _ (concern_own rfl (concern_nil c.id)))

theorem concern_startSession (s : Server) (c : Client) (leftover : Bytes) :
    Concern c.id (s.startSession c leftover).2 :=
  concern_own rfl (concern_logged _ (concern_runSession _ c _))

theorem concern_runConnection (s : Server) (c : Client) (connection : Http.Connection) :
    Concern c.id (s.runConnection c connection).2 := by
  rcases hp : connection.poll (Service.answer s.counters) c.wire with ⟨deeds, standing, wire⟩
  have hdeeds := concern_deeds c deeds
  have hclosed : Concern c.id [.closed c.id] := concern_own rfl (concern_nil c.id)
  simp only [runConnection, hp]
  cases standing with
  | waiting | paused | switched => exact hdeeds
  | closed fault =>
    cases fault with
    | none => exact concern_append.2 ⟨hdeeds, hclosed⟩
    | some fault => exact concern_append.2 ⟨hdeeds, concern_logged _ hclosed⟩
  | abandoned fault => exact concern_append.2 ⟨hdeeds, concern_logged _ hclosed⟩

theorem concern_cancel (s : Server) (c : Client) : Concern c.id (s.cancel c).2 := by
  have hclosed : Concern c.id [.closed c.id] := concern_own rfl (concern_nil c.id)
  unfold cancel
  cases c.stage with
  | ended => exact concern_nil c.id
  | echoing session => exact concern_own rfl hclosed
  | arriving | requesting | starting | abandoned => exact hclosed

/-- A connection's task does nothing on any other connection. -/
theorem concern_advance (s : Server) (id : String) : Concern id (s.advance id).2 := by
  unfold advance
  cases hc : s.find? id with
  | none => exact concern_nil id
  | some c =>
    obtain rfl : c.id = id := id_of_find? hc
    dsimp only
    split
    · exact concern_cancel s c
    · cases c.stage with
      | arriving | ended => exact concern_nil c.id
      | requesting connection => exact concern_runConnection s c connection
      | starting leftover => exact concern_startSession s c leftover
      | echoing session => exact concern_runSession s c session
      | abandoned => exact concern_logged _ (concern_nil c.id)

/-- Doing one thing after another, the first one first. -/
theorem each_cons {α : Type} (f : Server → α → Server × List Effect) (s : Server) (a : α)
    (rest : List α) :
    each f s (a :: rest) =
      ((each f (f s a).1 rest).1, (f s a).2 ++ (each f (f s a).1 rest).2) := by
  have hmore : ∀ (items : List α) (s : Server) (effects : List Effect),
      items.foldl (fun (x : Server × List Effect) item =>
          ((f x.1 item).1, x.2 ++ (f x.1 item).2)) (s, effects) =
        ((each f s items).1, effects ++ (each f s items).2) := by
    intro items
    induction items with
    | nil => simp [each]
    | cons a rest ih =>
      intro s effects
      rw [each, List.foldl_cons, List.foldl_cons, ih, ih _ ([] ++ _)]
      simp
  rw [each, List.foldl_cons]
  exact (hmore rest _ _).trans (by simp)

/-- The listener only logs. -/
theorem logged_of_mem_accept {arrivals : List Arrival} {e : Effect}
    (h : e ∈ (each take s arrivals).2) :
    (∃ peer, e = .logged (.connected peer)) ∨ ∃ cause, e = .logged (.acceptFailed cause) := by
  induction arrivals generalizing s with
  | nil => cases h
  | cons a rest ih =>
    rw [each_cons] at h
    rcases List.mem_append.1 h with h | h
    · cases a with
      | failure cause => exact Or.inr ⟨cause, List.mem_singleton.1 h⟩
      | client id =>
        rw [take] at h
        cases hc : s.find? id with
        | none =>
          rw [hc] at h
          cases h
        | some c =>
          rw [hc] at h
          exact Or.inl ⟨c.peer, List.mem_singleton.1 h⟩
    · exact ih h

theorem owner?_of_mem_accept {arrivals : List Arrival} {e : Effect}
    (h : e ∈ (each take s arrivals).2) : e.owner? = none := by
  rcases logged_of_mem_accept h with ⟨peer, rfl⟩ | ⟨cause, rfl⟩ <;> rfl

/-- What a task does on a connection, it does as the task of that connection. -/
theorem task_of_mem_run {t : Task} {e : Effect} {id : String} (h : e ∈ (s.run t).2)
    (howner : e.owner? = some id) : t = .advance id := by
  cases t with
  | accept =>
    rw [owner?_of_mem_accept h] at howner
    cases howner
  | advance other => rw [concern_advance s other e h id howner]

/-! ## Stints -/

/-- What the first `n` tasks do. -/
def stints : Nat → Server → List Stint
  | 0, _ => []
  | n + 1, s =>
    match s.ready with
    | [] => []
    | t :: rest =>
      ⟨t, (run { s with ready := rest } t).2⟩ :: stints n (run { s with ready := rest } t).1

/-- The tasks of a step. -/
def stepStints (s : Server) (actions : List Action) : List Stint :=
  stints (actions.foldl acted s).work (actions.foldl acted s)

/-- The tasks of a run. -/
def runStints (s : Server) : List (List Action) → List Stint
  | [] => []
  | actions :: rest => s.stepStints actions ++ (s.step actions).1.runStints rest

theorem stints_of_nil (n : Nat) (h : s.ready = []) : stints n s = [] := by
  cases n with
  | zero => rfl
  | succ n => rw [stints, h]

theorem stints_cons (n : Nat) {t : Task} {rest : List Task} (h : s.ready = t :: rest) :
    stints (n + 1) s =
      ⟨t, (run { s with ready := rest } t).2⟩ :: stints n (run { s with ready := rest } t).1 := by
  rw [stints, h]

theorem effects_runReady (n : Nat) (s : Server) :
    (runReady n s []).2 = (stints n s).flatMap (·.effects) := by
  induction n generalizing s with
  | zero => rfl
  | succ n ih =>
    cases hready : s.ready with
    | nil =>
      rw [runReady_nil _ hready, stints_of_nil _ hready]
      rfl
    | cons t rest =>
      rw [runReady_cons n hready, stints_cons n hready, List.flatMap_cons, ih]

theorem flatMap_stepStints (s : Server) (actions : List Action) :
    (s.stepStints actions).flatMap (·.effects) = (s.step actions).2.effects := by
  rw [effects_step, stepStints, ← effects_runReady]
  rfl

/-- The tasks of a run together show what its entries show. -/
theorem flatMap_runStints (s : Server) (steps : List (List Action)) :
    (s.runStints steps).flatMap (·.effects) = (s.steps steps).2.flatMap (·.effects) := by
  induction steps generalizing s with
  | nil => rfl
  | cons actions rest ih =>
    rw [runStints, List.flatMap_append, flatMap_stepStints, ih, steps_cons, List.flatMap_cons]

/-- Everything in the list is what some task did. -/
theorem exists_of_mem_stints {n : Nat} {st : Stint} (h : st ∈ stints n s) :
    ∃ s' : Server, st.effects = (s'.run st.task).2 := by
  induction n generalizing s with
  | zero => cases h
  | succ n ih =>
    cases hready : s.ready with
    | nil =>
      rw [stints_of_nil _ hready] at h
      cases h
    | cons t rest =>
      rw [stints_cons n hready] at h
      rcases List.mem_cons.1 h with rfl | h
      · exact ⟨_, rfl⟩
      · exact ih h

/-- What happens on a connection is in its share. -/
theorem filterMap_share {β : Type} {f : Effect → Option β} {id : String}
    (hf : ∀ e, (f e).isSome → e.owner? = some id) (n : Nat) (s : Server) :
    ((stints n s).flatMap (·.effects)).filterMap f = (share id (stints n s)).filterMap f := by
  have hall : ∀ l : List Stint, (∀ st ∈ l, ∃ s' : Server, st.effects = (s'.run st.task).2) →
      (l.flatMap (·.effects)).filterMap f = (share id l).filterMap f := by
    intro l hl
    induction l with
    | nil => rfl
    | cons st rest ih =>
      have hrest := ih fun x hx => hl x (List.mem_cons_of_mem _ hx)
      obtain ⟨s', hs'⟩ := hl st List.mem_cons_self
      obtain ⟨t, effects⟩ := st
      rw [List.flatMap_cons, List.filterMap_append, hrest]
      by_cases htask : t = .advance id
      · rw [htask, share_cons_self, List.filterMap_append]
      · have hnone : effects.filterMap f = [] := by
          refine List.filterMap_eq_nil_iff.2 fun e he => ?_
          by_contra hsome
          have he' : e ∈ (s'.run t).2 := hs' ▸ he
          exact htask (task_of_mem_run he' (hf e (Option.isSome_iff_ne_none.2 hsome)))
        rw [share_cons_of_ne htask, hnone, List.nil_append]
  exact hall _ fun st hst => exists_of_mem_stints hst

/-! ## Induction over runs -/

section Induction

variable {P : Server → List Stint → Prop}
  (hrun : ∀ (s : Server) (past : List Stint) (t : Task) (rest : List Task), s.ready = t :: rest →
    P s past → P (run { s with ready := rest } t).1
      (past ++ [⟨t, (run { s with ready := rest } t).2⟩]))

include hrun in
theorem runReady_induction (n : Nat) {s : Server} {past : List Stint} (h : P s past) :
    P (runReady n s []).1 (past ++ stints n s) := by
  induction n generalizing s past with
  | zero =>
    rw [stints, List.append_nil]
    exact h
  | succ n ih =>
    cases hready : s.ready with
    | nil =>
      rw [runReady_nil _ hready, stints_of_nil _ hready, List.append_nil]
      exact h
    | cons t rest =>
      rw [runReady_cons n hready, stints_cons n hready, ← List.singleton_append,
        ← List.append_assoc]
      exact ih (hrun s past t rest hready h)

section Allowed

variable {A : Action → Prop} (hacted : ∀ (s : Server) (past : List Stint) (a : Action),
    A a → P s past → P (s.acted a) past)

include hacted in
theorem foldl_acted_induction_of {s : Server} {past : List Stint} (h : P s past)
    {actions : List Action} (hallowed : ∀ a ∈ actions, A a) :
    P (actions.foldl acted s) past := by
  induction actions generalizing s with
  | nil => exact h
  | cons a rest ih =>
    obtain ⟨ha, hrest⟩ := List.forall_mem_cons.1 hallowed
    exact ih (hacted s past a ha h) hrest

include hrun hacted in
/-- What one task and one action of some kind keep, with the stints so far, is kept by any run of
such actions. -/
theorem steps_induction_of {s : Server} {past : List Stint} (h : P s past)
    {steps : List (List Action)} (hallowed : ∀ actions ∈ steps, ∀ a ∈ actions, A a) :
    P (s.steps steps).1 (past ++ s.runStints steps) := by
  induction steps generalizing s past with
  | nil =>
    rw [runStints, List.append_nil]
    exact h
  | cons actions rest ih =>
    obtain ⟨hactions, hrest⟩ := List.forall_mem_cons.1 hallowed
    have hstep : P (s.step actions).1 (past ++ s.stepStints actions) := by
      rw [step_fst]
      exact runReady_induction hrun _ (foldl_acted_induction_of hacted h hactions)
    rw [runStints, ← List.append_assoc]
    exact ih hstep hrest

end Allowed

variable (hacted : ∀ (s : Server) (past : List Stint) (a : Action), P s past → P (s.acted a) past)

include hacted in
theorem foldl_acted_induction {s : Server} {past : List Stint} (h : P s past)
    (actions : List Action) : P (actions.foldl acted s) past :=
  foldl_acted_induction_of (A := fun _ => True) (fun s past a _ => hacted s past a) h
    fun _ _ => trivial

include hrun hacted in
/-- What one action and one task keep, with the stints so far, is kept by any run. -/
theorem steps_induction {s : Server} {past : List Stint} (h : P s past)
    (steps : List (List Action)) : P (s.steps steps).1 (past ++ s.runStints steps) :=
  steps_induction_of (A := fun _ => True) hrun (fun s past a _ => hacted s past a) h
    fun _ _ _ _ => trivial

end Induction

end Server

end WebSocketEcho
