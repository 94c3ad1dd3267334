import Mathlib.Data.List.Nodup
import WebSocketEcho.Server

/-!
# Looking connections up

What the server's small operations do to the connection under an id, to the ids, and to the queue
of tasks.  Later proofs see a server through `Server.find?`, its ids and its queue, and do not
open `update`, `wake` and `connect` again.

`exists_update_eq` gives the list itself: with no id twice, an update changes one place of it.
-/

namespace WebSocketEcho

/-- A connection that is taken for an echo session, when it comes in. -/
def Client.fresh (id : String) (peer : SocketAddress) : Client :=
  ⟨id, peer, .fresh, .starting [], false⟩

namespace Server

variable {s : Server} {id : String} {c : Client} {f : Client → Client}

/-- The ids of all connections. -/
def ids (s : Server) : List String := s.clients.map (·.id)

theorem id_of_find? (h : s.find? id = some c) : c.id = id := by
  have hp := List.find?_some h
  simpa using hp

theorem mem_of_find? (h : s.find? id = some c) : c ∈ s.clients := List.mem_of_find?_eq_some h

theorem find?_eq_none_iff : s.find? id = none ↔ id ∉ s.ids := by
  simp [find?, ids]

/-! ## Updates -/

section Update

/-- An update that keeps the id keeps all ids. -/
theorem ids_update (hf : ∀ d, d.id = id → (f d).id = id) : (s.update id f).ids = s.ids := by
  rw [ids, ids, update, List.map_map]
  refine List.map_congr_left fun d _ => ?_
  by_cases hd : d.id = id
  · simp [hd, hf d hd]
  · simp [hd]

theorem find?_update (hf : ∀ d, d.id = id → (f d).id = id) (other : String) :
    (s.update id f).find? other =
      (s.find? other).map fun d => if other = id then f d else d := by
  rw [find?, update]
  dsimp only
  rw [List.find?_map]
  have hp : ((fun d : Client => d.id == other) ∘ fun d => if d.id == id then f d else d) =
      fun d => d.id == other := by
    funext d
    by_cases hd : d.id = id
    · simp [hd, hf d hd]
    · simp [hd]
  rw [hp]
  cases h : s.clients.find? fun d => d.id == other with
  | none => rw [find?, h]; rfl
  | some d =>
    have hd : d.id = other := id_of_find? (s := s) h
    rw [find?, h]
    simp [hd]

theorem find?_update_self (hf : ∀ d, d.id = id → (f d).id = id) (h : s.find? id = some c) :
    (s.update id f).find? id = some (f c) := by
  rw [find?_update hf, h]
  simp

theorem find?_update_of_ne (hf : ∀ d, d.id = id → (f d).id = id) {other : String}
    (h : other ≠ id) : (s.update id f).find? other = s.find? other := by
  rw [find?_update hf]
  simp [h]

theorem find?_update_of_find? (hf : ∀ d, (f d).id = d.id) (h : s.find? id = some c)
    (other : String) :
    (s.update id f).find? other = if other = id then some (f c) else s.find? other := by
  have hf' : ∀ d, d.id = id → (f d).id = id := fun d hd => (hf d).trans hd
  split
  · rename_i heq
    subst heq
    exact find?_update_self hf' h
  · rename_i hne
    exact find?_update_of_ne hf' hne

/-- With no id twice, an update changes one place of the list. -/
theorem exists_update_eq (hnodup : s.ids.Nodup) (h : s.find? id = some c) :
    ∃ l₁ l₂, s.clients = l₁ ++ c :: l₂ ∧
      ∀ f : Client → Client, (s.update id f).clients = l₁ ++ f c :: l₂ := by
  obtain ⟨l₁, l₂, hl⟩ := List.append_of_mem (mem_of_find? h)
  have hid := id_of_find? h
  refine ⟨l₁, l₂, hl, fun f => ?_⟩
  rw [ids, hl, List.map_append, List.map_cons, List.nodup_append] at hnodup
  obtain ⟨_, hnodup₂, hdisj⟩ := hnodup
  have h₁ : ∀ d ∈ l₁, d.id ≠ id := by
    intro d hd heq
    exact hdisj d.id (List.mem_map.2 ⟨d, hd, rfl⟩) c.id List.mem_cons_self (heq.trans hid.symm)
  have h₂ : ∀ d ∈ l₂, d.id ≠ id := by
    intro d hd heq
    refine (List.nodup_cons.1 hnodup₂).1 (List.mem_map.2 ⟨d, hd, heq.trans hid.symm⟩)
  have hkeep : ∀ l : List Client, (∀ d ∈ l, d.id ≠ id) →
      (l.map fun d => if d.id == id then f d else d) = l := by
    intro l hl
    refine (List.map_congr_left fun d hd => ?_).trans (List.map_id l)
    simp [hl d hd]
  rw [update]
  dsimp only
  rw [hl, List.map_append, List.map_cons, hkeep l₁ h₁, hkeep l₂ h₂]
  simp [hid]

end Update

/-! ## The queue of tasks -/

section Wake

variable {t u : Task}

@[simp] theorem clients_wake (s : Server) (t : Task) : (s.wake t).clients = s.clients := by
  rw [wake]
  split <;> rfl

@[simp] theorem mode_wake (s : Server) (t : Task) : (s.wake t).mode = s.mode := by
  rw [wake]
  split <;> rfl

@[simp] theorem counters_wake (s : Server) (t : Task) : (s.wake t).counters = s.counters := by
  rw [wake]
  split <;> rfl

@[simp] theorem find?_wake (s : Server) (t : Task) (id : String) :
    (s.wake t).find? id = s.find? id := by
  rw [find?, find?, clients_wake]

@[simp] theorem ids_wake (s : Server) (t : Task) : (s.wake t).ids = s.ids := by
  rw [ids, ids, clients_wake]

theorem mem_ready_wake_iff : u ∈ (s.wake t).ready ↔ u = t ∨ u ∈ s.ready := by
  rw [wake]
  split
  · rename_i h
    have ht : t ∈ s.ready := by simpa using h
    constructor
    · exact Or.inr
    · rintro (rfl | hu)
      · exact ht
      · exact hu
  · simp only [List.mem_append, List.mem_singleton]
    exact or_comm

/-- In an empty queue the task is alone. -/
theorem ready_wake_of_nil (h : s.ready = []) : (s.wake t).ready = [t] := by
  rw [wake, h]
  simp

/-- A task that is alone stays alone when it is woken again. -/
theorem ready_wake_of_singleton (h : s.ready = [t]) : (s.wake t).ready = [t] := by
  rw [wake, h]
  simp [h]

end Wake

/-! ## Doing something to a connection -/

theorem ids_touch (s : Server) (c : Client) : (s.touch c).ids = s.ids := by
  have hids : (s.update c.id fun _ => c).ids = s.ids := ids_update fun _ _ => rfl
  rw [touch]
  split
  · exact hids
  · exact hids
  · rw [ids_wake]
    exact hids

theorem find?_touch (s : Server) (c : Client) (id : String) :
    (s.touch c).find? id = (s.find? id).map fun d => if id = c.id then c else d := by
  have hf : ∀ d : Client, d.id = c.id → c.id = c.id := fun _ _ => rfl
  rw [touch]
  split
  · exact find?_update hf id
  · exact find?_update hf id
  · rw [find?_wake]
    exact find?_update hf id

theorem clients_touch (s : Server) (c : Client) :
    (s.touch c).clients = (s.update c.id fun _ => c).clients := by
  rw [touch]
  split
  · rfl
  · rfl
  · exact clients_wake _ _

@[simp] theorem mode_touch (s : Server) (c : Client) : (s.touch c).mode = s.mode := by
  rw [touch]
  split
  · rfl
  · rfl
  · exact mode_wake _ _

@[simp] theorem counters_touch (s : Server) (c : Client) : (s.touch c).counters = s.counters := by
  rw [touch]
  split
  · rfl
  · rfl
  · exact counters_wake _ _

/-- Only the task of the connection itself is woken. -/
theorem mem_ready_touch {t : Task} (h : t ∈ (s.touch c).ready) :
    t = .advance c.id ∨ t ∈ s.ready := by
  rw [touch] at h
  split at h
  · exact Or.inr h
  · exact Or.inr h
  · rw [mem_ready_wake_iff] at h
    exact h

theorem mem_ready_touch_of_mem {t : Task} (h : t ∈ s.ready) : t ∈ (s.touch c).ready := by
  rw [touch]
  split
  · exact h
  · exact h
  · exact mem_ready_wake_iff.2 (Or.inr h)

/-- On a connection where a session is to run or runs, everything wakes it. -/
theorem touch_of_live (h : c.stage ≠ .arriving) (h' : c.stage ≠ .ended) :
    s.touch c = (s.update c.id fun _ => c).wake (.advance c.id) := by
  rw [touch]
  split
  · exact absurd ‹_› h
  · exact absurd ‹_› h'
  · rfl

/-- Where nothing runs any more, nothing is woken. -/
theorem touch_of_ended (h : c.stage = .ended) : s.touch c = s.update c.id fun _ => c := by
  rw [touch, h]

/-! ## A new connection -/

theorem connect_of_sessions (h : s.mode = .sessions) (id : String) (peer : SocketAddress) :
    s.connect id peer =
      wake { s with clients := s.clients ++ [.fresh id peer] } (.advance id) := by
  rw [connect, h]
  rfl

/-- A new connection is found under its id, and every other one as before. -/
theorem find?_connect (hmode : s.mode = .sessions) (hid : s.find? id = none)
    (peer : SocketAddress) (other : String) :
    (s.connect id peer).find? other =
      if other = id then some (.fresh id peer) else s.find? other := by
  rw [connect_of_sessions hmode, find?_wake, find?]
  dsimp only
  rw [List.find?_append]
  split
  · rename_i heq
    subst heq
    rw [find?] at hid
    rw [hid]
    simp [Client.fresh]
  · rename_i hne
    cases h : s.clients.find? fun d => d.id == other with
    | some d =>
      rw [find?, h]
      rfl
    | none =>
      rw [find?, h]
      simp [Client.fresh, Ne.symm hne]

end Server

end WebSocketEcho
