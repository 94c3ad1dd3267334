import WebSocketEcho.Proofs.Counters
import WebSocketEcho.Proofs.Server.Turns

/-!
# Passages in their order

The passages of a run, in the order in which they were made, say which sessions were open at which
instant: `openSessions` of a beginning of the history.  In an orderly history nobody leaves who is
not in, and then the counters that follow the passages tell the number of open sessions and its
peak (`tells_of_orderly`).
-/

namespace WebSocketEcho

/-- The open sessions after one more passage. -/
def Passage.occupy (ids : List String) : Passage → List String
  | .entered id => id :: ids
  | .left id => ids.erase id

/-- The sessions that are open after a history, last opened first. -/
def openSessions (history : List Passage) : List String := history.foldl Passage.occupy []

/-- The passages of one session. -/
def passagesOf (id : String) (history : List Passage) : List Passage :=
  history.filter (·.id == id)

/-- Nobody leaves who is not in. -/
def Orderly (history : List Passage) : Prop :=
  ∀ p id, p ++ [.left id] <+: history → id ∈ openSessions p

theorem openSessions_append (a b : List Passage) :
    openSessions (a ++ b) = b.foldl Passage.occupy (openSessions a) := by
  simp [openSessions]

theorem passagesOf_append (id : String) (a b : List Passage) :
    passagesOf id (a ++ b) = passagesOf id a ++ passagesOf id b := by
  simp [passagesOf]

theorem passagesOf_eq_self {id : String} {ps : List Passage} (h : ∀ p ∈ ps, p.id = id) :
    passagesOf id ps = ps := by
  refine List.filter_eq_self.2 fun p hp => ?_
  simp [h p hp]

theorem passagesOf_eq_nil {id other : String} {ps : List Passage} (h : ∀ p ∈ ps, p.id = other)
    (hne : id ≠ other) : passagesOf id ps = [] := by
  refine List.filter_eq_nil_iff.2 fun p hp => ?_
  simp [h p hp, hne.symm]

theorem orderly_nil : Orderly [] := by
  intro p id hp
  exact absurd (List.prefix_nil.1 hp) (by simp)

theorem Orderly.concat {history : List Passage} (h : Orderly history) {a : Passage}
    (ha : ∀ id, a = .left id → id ∈ openSessions history) : Orderly (history ++ [a]) := by
  intro p id hp
  rcases List.prefix_concat_iff.1 hp with heq | hp
  · obtain ⟨rfl, hlast⟩ := List.append_inj' heq rfl
    cases hlast
    exact ha id rfl
  · exact h p id hp

/-- The counters that follow an orderly history tell how many sessions are open and how many there
were at most at one instant. -/
theorem tells_of_orderly {history : List Passage} (h : Orderly history)
    (hroom : ∀ p, p <+: history → (openSessions p).length < 2 ^ 64) :
    ∃ m, (history.foldl Passage.count .zero).Tells (openSessions history).length m ∧
      IsPeak (fun p => (openSessions p).length) history m := by
  refine Counters.tells_of_history (f := fun p => (openSessions p).length)
    (g := fun p => p.foldl Passage.count .zero) rfl rfl history ?_ hroom
  intro p a hp
  rw [List.foldl_append, openSessions_append]
  cases a with
  | entered id => exact Or.inl ⟨rfl, rfl⟩
  | left id =>
    have hmem := h p id hp
    have hpos : 0 < (openSessions p).length := List.length_pos_of_mem hmem
    refine Or.inr (Or.inl ⟨rfl, ?_⟩)
    show ((openSessions p).erase id).length + 1 = _
    rw [List.length_erase_of_mem hmem]
    omega

/-! ## What a turn does to them -/

section Turn

variable {c c' : Client} {ps history : List Passage}

theorem Server.Turn.orderly (h : Server.Turn c c' ps) (ho : Orderly history)
    (hin : c.isEchoing = true → c.id ∈ openSessions history) : Orderly (history ++ ps) := by
  cases h with
  | idle | dropped | stayed =>
    rw [List.append_nil]
    exact ho
  | entered => exact ho.concat fun id hid => by cases hid
  | visited =>
    have hone : Orderly (history ++ [.entered c.id]) := ho.concat fun id hid => by cases hid
    have htwo := hone.concat (a := .left c.id) fun id hid => by
      cases hid
      rw [openSessions_append]
      exact List.mem_cons_self
    simpa using htwo
  | left h =>
    refine ho.concat fun id hid => ?_
    cases hid
    exact hin (by rw [Client.isEchoing, h])

/-- The open sessions follow the connection in and out of its stage. -/
theorem Server.Turn.perm_occupy (h : Server.Turn c c' ps) {ids rest : List String}
    (hids : ids.Perm (if c.isEchoing then c.id :: rest else rest)) :
    (ps.foldl Passage.occupy ids).Perm (if c'.isEchoing then c'.id :: rest else rest) := by
  cases h with
  | idle => exact hids
  | dropped h =>
    rw [Client.isEchoing, h] at hids
    exact hids
  | entered h =>
    rw [Client.isEchoing, h] at hids
    exact hids.cons c.id
  | visited h =>
    rw [Client.isEchoing, h] at hids
    show ((c.id :: ids).erase c.id).Perm rest
    rw [List.erase_cons_head]
    exact hids
  | stayed h =>
    rw [Client.isEchoing, h] at hids
    exact hids
  | left h =>
    rw [Client.isEchoing, h] at hids
    have herase := hids.erase c.id
    rw [if_pos rfl, List.erase_cons_head] at herase
    exact herase

end Turn

end WebSocketEcho
