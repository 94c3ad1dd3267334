import WebSocketEcho.Ledger

/-!
# What one move does to a ledger

A move of a thread opens one session, or takes one off, or leaves the counters alone.
`Ledger.Shift` has one case for each, and `shift_move` says that there is no other.  Everything
that holds of all schedules follows from it.

A guard is held until it is released and stays released: `Shift.standing_eq` lists the three things
that a move can do to one guard.
-/

namespace WebSocketEcho.Ledger

/-- The moves that open a session. -/
def Move.opens : Move → Bool
  | .enter _ | .visit => true
  | _ => false

/-- The moves that only ask. -/
def Move.isRead : Move → Bool
  | .entered _ | .snapshot | .active | .max | .report => true
  | _ => false

/-- How many guards still count. -/
def live (l : Ledger) : Nat := l.guards.countP (·.held)

/-- How many guards were released. -/
def released (l : Ledger) : Nat := l.guards.countP (!·.held)

/-- Whether a guard still counts; nothing as long as it is not made. -/
def standing (l : Ledger) (guard : Nat) : Option Bool := (l.guards[guard]?).map (·.held)

/-- A guard was made and still counts. -/
def IsHeld (l : Ledger) (guard : Nat) : Prop := l.standing guard = some true

/-- A guard was made and counts no more. -/
def IsReleased (l : Ledger) (guard : Nat) : Prop := l.standing guard = some false

/-- What a move can do to the counters and the guards. -/
inductive Shift (l : Ledger) (m : Move) (l' : Ledger) : Prop where
  /-- A session opens, and its guard is made. -/
  | opened (hm : m.opens = true) (hc : l'.counters = l.counters.enter)
      (hg : l'.guards = l.guards ++ [⟨l.counters.enter, true⟩])
  /-- A guard that is held is released, which takes one session off. -/
  | released (hm : m.opens = false) (guard : Nat) (opened : Counters)
      (hheld : l.guards[guard]? = some ⟨opened, true⟩) (hc : l'.counters = l.counters.leave)
      (hg : l'.guards = l.guards.set guard ⟨opened, false⟩)
  /-- Counters and guards stay as they are. -/
  | kept (hm : m.opens = false) (hc : l'.counters = l.counters) (hg : l'.guards = l.guards)

/-! ## Releasing a guard -/

theorem release_eq_of_held {l : Ledger} {guard : Nat} {opened : Counters}
    (h : l.guards[guard]? = some ⟨opened, true⟩) :
    l.release guard =
      { l with counters := l.counters.leave, guards := l.guards.set guard ⟨opened, false⟩ } := by
  rw [release, h]

/-- To release a guard that is not held changes nothing: a guard that was closed is dropped
without another decrement. -/
theorem release_eq_self {l : Ledger} {guard : Nat} (h : ¬ l.IsHeld guard) :
    l.release guard = l := by
  rw [release]
  split
  · rename_i opened hg
    exact absurd (by simp [IsHeld, standing, hg]) h
  · rfl

/-- Either way the guard is not held afterwards. -/
theorem not_isHeld_release (l : Ledger) (guard : Nat) : ¬ (l.release guard).IsHeld guard := by
  by_cases h : l.IsHeld guard
  · obtain ⟨⟨opened, held⟩, hg, hheld⟩ := Option.map_eq_some_iff.1 h
    dsimp only at hheld
    subst hheld
    have hlt : guard < l.guards.length := (List.getElem?_eq_some_iff.1 hg).1
    rw [release_eq_of_held hg]
    simp [IsHeld, standing, hlt]
  · rw [release_eq_self h]
    exact h

theorem shift_of_release {l l' : Ledger} {m : Move} {guard : Nat} (hm : m.opens = false)
    (hc : l'.counters = (l.release guard).counters)
    (hg : l'.guards = (l.release guard).guards) : Shift l m l' := by
  by_cases h : l.IsHeld guard
  · obtain ⟨⟨opened, held⟩, hguard, hheld⟩ := Option.map_eq_some_iff.1 h
    dsimp only at hheld
    subst hheld
    rw [release_eq_of_held hguard] at hc hg
    exact .released hm guard opened hguard hc hg
  · rw [release_eq_self h] at hc hg
    exact .kept hm hc hg

/-! ## One move -/

/-- A move that only asks changes nothing. -/
theorem move_eq_self_of_isRead {m : Move} (h : m.isRead = true) (l : Ledger) (t : Nat) :
    (l.move t m).1 = l := by
  cases m with
  | entered name => rw [move]; split <;> rfl
  | snapshot | active | max | report => rfl
  | enter | visit | leave | discard | abandon | drop => simp [Move.isRead] at h

/-- A move opens one session, or takes one off, or leaves counters and guards alone. -/
theorem shift_move (l : Ledger) (t : Nat) (m : Move) : Shift l m (l.move t m).1 := by
  cases m with
  | enter name => exact .opened rfl rfl rfl
  | visit => exact .opened rfl rfl rfl
  | leave name =>
    rw [move]
    split
    · exact shift_of_release rfl rfl rfl
    · exact .kept rfl rfl rfl
  | drop =>
    rw [move]
    split
    · exact .kept rfl rfl rfl
    · exact shift_of_release rfl rfl rfl
  | discard name =>
    rw [move]
    split <;> exact .kept rfl rfl rfl
  | abandon => exact .kept rfl rfl rfl
  | entered | snapshot | active | max | report =>
    rw [move_eq_self_of_isRead rfl]
    exact .kept rfl rfl rfl

/-- A guard that its thread closes is released by this move. -/
theorem isReleased_leave {l : Ledger} {t : Nat} {name : String} {guard : Nat} {g : Guard}
    (h : l.find? t name = some (guard, g)) : (l.move t (.leave name)).1.IsReleased guard := by
  have hg : l.guards[guard]? = some g := by
    obtain ⟨k, _, hk⟩ := Option.bind_eq_some_iff.1 h
    obtain ⟨g', hg', heq⟩ := Option.map_eq_some_iff.1 hk
    cases heq
    exact hg'
  have hlt : guard < l.guards.length := (List.getElem?_eq_some_iff.1 hg).1
  rw [move, h]
  show (l.release guard).standing guard = some false
  have hnot := not_isHeld_release l guard
  have hlen : (l.release guard).guards.length = l.guards.length := by
    rw [release]
    split <;> simp
  rw [IsHeld, standing, List.getElem?_eq_getElem (by omega)] at hnot
  rw [standing, List.getElem?_eq_getElem (by omega)]
  simpa using hnot

/-- A guard that is dropped is not held any more. -/
theorem not_isHeld_drop {l : Ledger} {t guard : Nat} {rest : List Nat}
    (h : (l.threads t).dropping = guard :: rest) : ¬ (l.move t .drop).1.IsHeld guard := by
  rw [move, h]
  exact not_isHeld_release l guard

/-- A move of one thread leaves the others what they have. -/
theorem threads_move_of_ne (l : Ledger) {t u : Nat} (h : u ≠ t) (m : Move) :
    (l.move t m).1.threads u = l.threads u := by
  have hset : ∀ (k : Ledger) (thread : Thread), (k.setThread t thread).threads u = k.threads u :=
    fun k thread => if_neg h
  have hrel : ∀ guard, (l.release guard).threads = l.threads := by
    intro guard
    rw [release]
    split <;> rfl
  cases m with
  | enter | visit | abandon => exact hset _ _
  | discard name =>
    rw [move]
    split
    · exact hset _ _
    · rfl
  | leave name =>
    rw [move]
    split
    · rw [hset, hrel]
    · rfl
  | drop =>
    rw [move]
    split
    · rfl
    · rw [hset, hrel]
  | entered | snapshot | active | max | report => rw [move_eq_self_of_isRead rfl]

/-! ## Guards over time -/

section Shifted

variable {l l' : Ledger} {m : Move}

/-- What a move does to the counters, and to the numbers of live and of released guards. -/
theorem Shift.counts (h : Shift l m l') :
    (m.opens = true ∧ l'.counters = l.counters.enter ∧
        l'.live = l.live + 1 ∧ l'.released = l.released) ∨
      (m.opens = false ∧ l'.counters = l.counters.leave ∧
        l'.live + 1 = l.live ∧ l'.released = l.released + 1) ∨
      (m.opens = false ∧ l'.counters = l.counters ∧
        l'.live = l.live ∧ l'.released = l.released) := by
  cases h with
  | opened hm hc hg =>
    refine Or.inl ⟨hm, hc, ?_, ?_⟩
    · simp [live, hg]
    · simp [Ledger.released, hg]
  | released hm guard opened hheld hc hg =>
    obtain ⟨hlt, hget⟩ := List.getElem?_eq_some_iff.1 hheld
    have hpos : 0 < l.guards.countP (·.held) :=
      List.countP_pos_iff.2 ⟨⟨opened, true⟩, List.mem_of_getElem? hheld, rfl⟩
    refine Or.inr (Or.inl ⟨hm, hc, ?_, ?_⟩)
    · rw [live, live, hg, List.countP_set hlt, hget]
      simp only [if_true, Bool.false_eq_true, if_false]
      omega
    · rw [Ledger.released, Ledger.released, hg, List.countP_set hlt, hget]
      simp
  | kept hm hc hg =>
    refine Or.inr (Or.inr ⟨hm, hc, ?_, ?_⟩)
    · rw [live, live, hg]
    · rw [Ledger.released, Ledger.released, hg]

/-- Guards are never forgotten. -/
theorem Shift.length_le (h : Shift l m l') : l.guards.length ≤ l'.guards.length := by
  cases h with
  | opened _ _ hg => simp [hg]
  | released _ guard opened _ _ hg => simp [hg]
  | kept _ _ hg => exact Nat.le_of_eq (congrArg List.length hg.symm)

/-- A guard is made held, and a held one is released; nothing else happens to a guard. -/
theorem Shift.standing_eq (h : Shift l m l') (guard : Nat) :
    l'.standing guard = l.standing guard ∨
      (l.standing guard = none ∧ l'.standing guard = some true) ∨
        (l.standing guard = some true ∧ l'.standing guard = some false) := by
  cases h with
  | opened _ _ hg =>
    rcases Nat.lt_trichotomy guard l.guards.length with hlt | heq | hgt
    · left
      rw [standing, standing, hg, List.getElem?_append_left hlt]
    · right
      left
      subst heq
      simp [standing, hg]
    · left
      rw [standing, standing, hg, List.getElem?_eq_none (by simp; omega),
        List.getElem?_eq_none (by omega)]
  | released _ k opened hheld _ hg =>
    by_cases hk : k = guard
    · subst hk
      have hlt : k < l.guards.length := (List.getElem?_eq_some_iff.1 hheld).1
      refine Or.inr (Or.inr ⟨?_, ?_⟩)
      · rw [standing, hheld]
        rfl
      · simp [standing, hg, hlt]
    · left
      rw [standing, standing, hg, List.getElem?_set_ne hk]
  | kept _ _ hg =>
    left
    rw [standing, standing, hg]

end Shifted

end WebSocketEcho.Ledger
