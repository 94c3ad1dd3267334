import Mathlib.Algebra.GroupWithZero.Nat
import WebSocketEcho.Proofs.Http.Turns
import WebSocketEcho.Proofs.Server.Listening

/-!
# A server that listens comes to rest

A step ends with nothing left to be done (`listening_serving`): no task is woken and nothing waits
at the listener.  Every task lowers `toDo`, the number of woken tasks and arrivals together with
what the connections can still wake, and this is within the work that a step allows for.
-/

namespace WebSocketEcho.Server

variable {s : Server} {id : String} {c c' : Client} {effects : List Effect}

/-! ## What there is to do -/

/-- How many tasks a connection can still wake. -/
def potential (c : Client) : Nat :=
  match c.stage with
  | .arriving => c.wire.unread.length + 1
  | .requesting connection => (connection.inlet c.wire).remaining + 1
  | _ => 0

/-- What there is to do: tasks, arrivals, and what the connections can still wake. -/
def toDo (s : Server) : Nat :=
  s.ready.length + s.arrivals.length + (s.clients.map potential).sum

theorem potential_le_clientWork (c : Client) : potential c ≤ clientWork c := by
  rw [potential, clientWork]
  cases c.stage with
  | requesting connection =>
    simp only [Http.Inlet.remaining, Http.Connection.inlet]
    omega
  | arriving => exact Nat.le_refl _
  | starting | echoing | abandoned | ended => exact Nat.zero_le _

theorem toDo_le_work (s : Server) : s.toDo ≤ s.work := by
  have hfold : ∀ (clients : List Client) (n : Nat),
      n + (clients.map potential).sum ≤ clients.foldl (fun sum c => sum + clientWork c) n := by
    intro clients
    induction clients with
    | nil => exact fun n => Nat.le_refl n
    | cons c rest ih =>
      intro n
      have hc := potential_le_clientWork c
      have hrest := ih (n + clientWork c)
      rw [List.map_cons, List.sum_cons, List.foldl_cons]
      omega
  exact hfold s.clients _

/-- An update of one connection changes the sum at one place. -/
theorem sum_update (hnodup : s.ids.Nodup) (hc : s.find? id = some c) (f : Client → Client) :
    ((s.update id f).clients.map potential).sum + potential c =
      (s.clients.map potential).sum + potential (f c) := by
  obtain ⟨front, back, hclients, hupdate⟩ := exists_update_eq hnodup hc
  rw [hupdate, hclients]
  simp only [List.map_append, List.map_cons, List.sum_append, List.sum_cons]
  omega

theorem length_ready_wake_le (s : Server) (t : Task) :
    (s.wake t).ready.length ≤ s.ready.length + 1 := by
  rw [wake]
  split
  · exact Nat.le_succ _
  · exact Nat.le_of_eq List.length_append

/-- A move uses up what it wakes. -/
theorem Move.potential_le {woken : Bool} {k k' : Counters} (h : Move k c c' woken k' effects) :
    potential c' + woken.toNat ≤ potential c := by
  cases h with
  | idle => exact Nat.le_refl _
  | served hstage hpoll =>
    rename_i connection deeds standing w
    have hold : potential c = (connection.inlet c.wire).remaining + 1 := by
      rw [potential, hstage]
    rw [hold]
    cases standing with
    | waiting d => exact Nat.succ_le_succ (Http.remaining_poll_waiting hpoll)
    | paused d => exact Nat.succ_le_succ (Http.Connection.remaining_poll hpoll)
    | closed => exact Nat.zero_le _
    | switched | abandoned => exact Nat.succ_le_succ (Nat.zero_le _)
  | began | read =>
    rename_i r _ _
    have hzero : ∀ d : Client, d.stage = stageOf r → potential d = 0 := by
      intro d hd
      rw [potential, hd, stageOf]
      cases r.2 <;> rfl
    rw [hzero _ rfl]
    exact Nat.zero_le _
  | gaveUp => exact Nat.zero_le _

/-- Taking an arrival wakes at most one task. -/
theorem length_ready_each_take (arrivals : List Arrival) (s : Server) :
    (each take s arrivals).1.ready.length ≤ s.ready.length + arrivals.length := by
  induction arrivals generalizing s with
  | nil => exact Nat.le_refl _
  | cons a rest ih =>
    rw [each_cons, List.length_cons]
    have htaken : (s.take a).1.ready.length ≤ s.ready.length + 1 := by
      cases a with
      | failure cause => exact Nat.le_succ _
      | client id =>
        cases hc : s.find? id with
        | none =>
          rw [take_unknown hc]
          exact Nat.le_succ _
        | some c =>
          rw [take_client hc]
          exact length_ready_wake_le _ _
    have hrest := ih (s.take a).1
    dsimp only
    omega

/-- A connection that is served from the start can wake as much as before. -/
theorem potential_of_taken (h : c.stage = .arriving ∨ c.stage = .requesting .fresh) :
    potential { c with stage := .requesting .fresh } = potential c := by
  rcases h with hstage | hstage
  · rw [potential, potential, hstage]
    simp [Http.Inlet.remaining, Http.Connection.inlet, Http.Connection.fresh]
  · rw [potential, potential, hstage]

/-- Every task lowers what there is to do. -/
theorem Listening.toDo_run_lt (h : Listening s) {t : Task} {rest : List Task}
    (hready : s.ready = t :: rest) : toDo (Server.run { s with ready := rest } t).1 < toDo s := by
  rw [toDo, toDo, hready, List.length_cons]
  cases t with
  | accept =>
    have hlength := length_ready_each_take s.arrivals { s with ready := rest, arrivals := [] }
    have hsum := congrArg List.sum (map_each_take potential (fun c => potential_of_taken) s.arrivals
      (s := { s with ready := rest, arrivals := [] }) h.nodup h.arriving_stage)
    have harrivals : (Server.run { s with ready := rest } .accept).1.arrivals = [] :=
      (each_take_keeps s.arrivals { s with ready := rest, arrivals := [] }).2.2.1
    rw [harrivals, List.length_nil]
    show (each take _ s.arrivals).1.ready.length + 0 +
      ((each take _ s.arrivals).1.clients.map potential).sum < _
    rw [hsum]
    dsimp only at hlength ⊢
    omega
  | advance id =>
    cases hc : s.find? id with
    | none =>
      rw [run_unknown hc]
      dsimp only
      omega
    | some c =>
      obtain ⟨_, harrivals, _, f, woken, _, hmove, hclients, hwoken⟩ :=
        advanced_run hc (h.find?_cancelled hc) rest
      obtain rfl : c.id = id := id_of_find? hc
      have hsum := sum_update h.nodup hc f
      have hpotential := hmove.potential_le
      have hlength : (({ s with ready := rest } : Server).wakeIf woken
          (.advance c.id)).ready.length ≤ rest.length + woken.toNat := by
        cases woken with
        | false => exact Nat.le_refl _
        | true => exact length_ready_wake_le _ _
      rw [hclients, harrivals, hwoken]
      omega

theorem Listening.ready_runReady (h : Listening s) (n : Nat) (hn : s.toDo ≤ n) :
    Listening (Server.runReady n s []).1 ∧ (Server.runReady n s []).1.ready = [] := by
  induction n generalizing s with
  | zero =>
    have hready : s.ready = [] := by
      rw [toDo] at hn
      exact List.length_eq_zero_iff.1 (by omega)
    rw [runReady_nil 0 hready]
    exact ⟨h, hready⟩
  | succ n ih =>
    cases hready : s.ready with
    | nil =>
      rw [runReady_nil _ hready]
      exact ⟨h, hready⟩
    | cons t rest =>
      have hlt := h.toDo_run_lt hready
      rw [runReady_cons n hready]
      exact ih (h.run hready) (by omega)

/-- More tasks than there is to do change nothing. -/
theorem Listening.runReady_eq (h : Listening s) {m n : Nat} (hm : s.toDo ≤ m) (hn : s.toDo ≤ n) :
    Server.runReady m s [] = Server.runReady n s [] := by
  induction m generalizing s n with
  | zero =>
    have hready : s.ready = [] := by
      rw [toDo] at hm
      exact List.length_eq_zero_iff.1 (by omega)
    rw [runReady_nil 0 hready, runReady_nil n hready]
  | succ m ih =>
    cases hready : s.ready with
    | nil => rw [runReady_nil _ hready, runReady_nil n hready]
    | cons t rest =>
      have hlt := h.toDo_run_lt hready
      obtain ⟨k, rfl⟩ := Nat.exists_eq_add_one_of_ne_zero (by omega : n ≠ 0)
      rw [runReady_cons m hready, runReady_cons k hready,
        ih (h.run hready) (by omega) (by omega : _ ≤ k)]

/-- The first task runs, and then the rest. -/
theorem Listening.settle_cons (h : Listening s) {t : Task} {rest : List Task}
    (hready : s.ready = t :: rest) :
    s.settle =
      ((Server.run { s with ready := rest } t).1.settle.1,
        (Server.run { s with ready := rest } t).2 ++
          (Server.run { s with ready := rest } t).1.settle.2) := by
  have hlt := h.toDo_run_lt hready
  have hwork := s.toDo_le_work
  obtain ⟨n, hn⟩ := Nat.exists_eq_add_one_of_ne_zero (by omega : s.work ≠ 0)
  rw [Server.settle, hn, runReady_cons n hready,
    (h.run hready).runReady_eq (by omega : _ ≤ n) (toDo_le_work _)]
  rfl

/-- A step leaves nothing to be done. -/
theorem Listening.settle (h : Listening s) :
    Listening s.settle.1 ∧ s.settle.1.ready = [] ∧ s.settle.1.arrivals = [] := by
  obtain ⟨hsettled, hready⟩ := h.ready_runReady s.work s.toDo_le_work
  refine ⟨hsettled, hready, ?_⟩
  by_contra hne
  have hmem := hsettled.woken hne
  rw [show (Server.runReady s.work s []).1.ready = [] from hready] at hmem
  cases hmem

theorem Listening.foldl_acted (h : Listening s) (actions : List Action) :
    Listening (actions.foldl acted s) := by
  induction actions generalizing s with
  | nil => exact h
  | cons a rest ih => exact ih (h.happens (happens_acted h.mode a))

/-! ## Runs -/

/-- The server that has listened from the start, after some steps. -/
def serving (steps : List (List Action)) : Server := ((empty .http).steps steps).1

/-- What these steps have shown. -/
def servings (steps : List (List Action)) : List Entry := ((empty .http).steps steps).2

/-- Between two steps a server listens, and there is nothing to do. -/
theorem Listening.steps (h : Listening s) (hready : s.ready = []) (harrivals : s.arrivals = [])
    (steps : List (List Action)) :
    Listening (s.steps steps).1 ∧ (s.steps steps).1.ready = [] ∧
      (s.steps steps).1.arrivals = [] := by
  induction steps generalizing s with
  | nil => exact ⟨h, hready, harrivals⟩
  | cons actions rest ih =>
    obtain ⟨hlistening, hready, harrivals⟩ := (h.foldl_acted actions).settle
    rw [steps_cons]
    rw [← step_fst] at hlistening hready harrivals
    exact ih hlistening hready harrivals

theorem listening_serving (steps : List (List Action)) :
    Listening (serving steps) ∧ (serving steps).ready = [] ∧ (serving steps).arrivals = [] :=
  listening_empty.steps rfl rfl steps

end WebSocketEcho.Server
