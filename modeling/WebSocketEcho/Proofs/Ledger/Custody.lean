import WebSocketEcho.Proofs.Ledger.Histories

/-!
# Guards that a thread lets go of

A thread lets go of a guard when it closes or discards it, when another guard takes its name, when
the thread fails, and at once when it opens a guard without a name.  `LetsGo` lists these ways.  In
each of them the guard is due to be dropped from then on, and is released by one move
(`Custody.released`); no other guard is released (`Custody.only`).

`Custody` says what a history means for the guards of all threads, and `custody` that it holds after
every history.  It assumes no bound on the number of guards.
-/

namespace WebSocketEcho.Ledger

/-! ## Names -/

/-- The names that a thread has guards under after a move of its own, from those before it and the
guard that would be made next. -/
def Move.names (m : Move) (new : Nat) (before : String → Option Nat) (name : String) : Option Nat :=
  match m with
  | .enter given => if name = given then some new else before name
  | .leave given | .discard given => if name = given then none else before name
  | .abandon => none
  | .visit | .entered _ | .drop | .snapshot | .active | .max | .report => before name

section Move

variable {l : Ledger} {t guard : Nat} {m : Move}

theorem named?_keep {thread : Thread} {given name : String} :
    (thread.keep given guard).named.lookup name =
      if name = given then some guard else thread.named.lookup name := by
  show List.lookup name ((given, guard) :: thread.named.filter (·.1 != given)) = _
  by_cases h : name = given
  · rw [if_pos h, h, List.lookup_cons_self]
  · rw [if_neg h, List.lookup_cons, beq_eq_false_iff_ne.2 h, lookup_filter_bne, if_neg h]

theorem named?_move (h : l.InHands) (t : Nat) (m : Move) (name : String) :
    (l.move t m).1.named? t name = m.names l.guards.length (l.named? t) name := by
  -- A name that finds no guard is the name of none.
  have hnone : ∀ given, l.find? t given = none → l.named? t given = none := by
    intro given hfound
    cases hgiven : l.named? t given with
    | none => rfl
    | some guard =>
      obtain ⟨opened, hsome⟩ := h.find?_eq hgiven
      rw [hsome] at hfound
      cases hfound
  have habsent : ∀ given, l.find? t given = none →
      l.named? t name = if name = given then none else l.named? t name := by
    intro given hfound
    split
    · rename_i heq
      rw [heq, hnone given hfound]
    · rfl
  cases m with
  | enter given =>
    rw [named?, threads_enter_self]
    exact named?_keep
  | visit =>
    rw [named?, threads_visit_self]
    rfl
  | leave given =>
    cases hfound : l.find? t given with
    | none =>
      rw [move, hfound]
      exact habsent given hfound
    | some found =>
      rw [named?, threads_leave_self hfound]
      exact lookup_filter_bne
  | discard given =>
    cases hfound : l.find? t given with
    | none =>
      rw [move, hfound]
      exact habsent given hfound
    | some found =>
      rw [named?, threads_discard_self hfound]
      exact lookup_filter_bne
  | abandon =>
    rw [named?, threads_abandon_self]
    rfl
  | drop =>
    cases hdue : (l.threads t).dropping with
    | nil =>
      rw [move, hdue]
      rfl
    | cons first rest =>
      rw [named?, threads_drop_self hdue]
      rfl
  | entered | snapshot | active | max | report =>
    rw [move_eq_self_of_isRead rfl]
    rfl

/-! ## Letting go -/

/-- The moves of a thread that let go of a guard. -/
inductive LetsGo (l : Ledger) (t : Nat) : Move → Nat → Prop where
  /-- Another guard takes its name. -/
  | replaced {name : String} {guard : Nat} (h : l.named? t name = some guard) :
      LetsGo l t (.enter name) guard
  /-- It is opened and gets no name. -/
  | visiting : LetsGo l t .visit l.guards.length
  | closed {name : String} {guard : Nat} (h : l.named? t name = some guard) :
      LetsGo l t (.leave name) guard
  | discarded {name : String} {guard : Nat} (h : l.named? t name = some guard) :
      LetsGo l t (.discard name) guard
  /-- The thread fails. -/
  | abandoned {name : String} {guard : Nat} (h : l.named? t name = some guard) :
      LetsGo l t .abandon guard

/-- The guard under a name that is given up is due to be dropped. -/
theorem mem_dropping_giveUp {thread : Thread} {name : String}
    (h : thread.named.lookup name = some guard) : guard ∈ (thread.giveUp name).dropping := by
  refine List.mem_append_left _ (List.mem_map.2 ⟨(name, guard), ?_, rfl⟩)
  exact List.mem_filter.2 ⟨mem_of_lookup h, beq_self_eq_true name⟩

theorem mem_dropping_of_letsGo (h : l.InHands) (hgo : l.LetsGo t m guard) :
    guard ∈ ((l.move t m).1.threads t).dropping := by
  cases hgo with
  | replaced hname =>
    rw [threads_enter_self]
    exact mem_dropping_giveUp hname
  | visiting =>
    rw [threads_visit_self]
    exact List.mem_cons_self
  | closed hname =>
    obtain ⟨opened, hfound⟩ := h.find?_eq hname
    rw [threads_leave_self hfound]
    exact mem_dropping_giveUp hname
  | discarded hname =>
    obtain ⟨opened, hfound⟩ := h.find?_eq hname
    rw [threads_discard_self hfound]
    exact mem_dropping_giveUp hname
  | abandoned hname =>
    rw [threads_abandon_self]
    exact List.mem_append_left _ (List.mem_map_of_mem (mem_of_lookup hname))

theorem IsHeld.not_isReleased (h : l.IsHeld guard) : ¬ l.IsReleased guard := by
  rw [IsReleased, h]
  decide

/-- A move releases no guard but the one that it closes or drops. -/
theorem releases_only (hheld : l.IsHeld guard) (hreleased : (l.move t m).1.IsReleased guard) :
    (∃ name, m = .leave name ∧ l.named? t name = some guard) ∨
      m = .drop ∧ ∃ rest, (l.threads t).dropping = guard :: rest := by
  have hother : ∀ k, guard ≠ k → ¬ (l.release k).IsReleased guard := fun k hne =>
    (isHeld_release_iff.2 ⟨hheld, hne⟩).not_isReleased
  cases m with
  | enter name =>
    have hstays : l.enter.IsHeld guard := isHeld_enter_iff.2 (Or.inl hheld)
    exact absurd hreleased hstays.not_isReleased
  | visit =>
    have hstays : l.enter.IsHeld guard := isHeld_enter_iff.2 (Or.inl hheld)
    exact absurd hreleased hstays.not_isReleased
  | leave name =>
    rw [move] at hreleased
    split at hreleased
    · rename_i k g hfound
      by_cases hk : guard = k
      · exact Or.inl ⟨name, rfl, hk ▸ named?_of_find? hfound⟩
      · exact absurd hreleased (hother k hk)
    · exact absurd hreleased hheld.not_isReleased
  | discard name =>
    rw [move] at hreleased
    split at hreleased
    · exact absurd hreleased hheld.not_isReleased
    · exact absurd hreleased hheld.not_isReleased
  | abandon => exact absurd hreleased hheld.not_isReleased
  | drop =>
    rw [move] at hreleased
    split at hreleased
    · exact absurd hreleased hheld.not_isReleased
    · rename_i k rest hdue
      by_cases hk : guard = k
      · exact Or.inr ⟨rfl, rest, hk ▸ hdue⟩
      · exact absurd hreleased (hother k hk)
  | entered | snapshot | active | max | report =>
    rw [move_eq_self_of_isRead rfl] at hreleased
    exact absurd hreleased hheld.not_isReleased

end Move

/-! ## Every history -/

/-- What a history means for the guards of all threads. -/
structure Custody (past : List (Nat × Move)) : Prop where
  /-- The guards that count are in the hands of the threads, each in one place. -/
  inHands : (after past).InHands
  /-- A move changes the names of its thread as it says, -/
  names : ∀ t m name, (after (past ++ [(t, m)])).named? t name =
    m.names (after past).guards.length ((after past).named? t) name
  /-- and nothing that other threads have. -/
  others : ∀ t m, ∀ u ≠ t, (after (past ++ [(t, m)])).threads u = (after past).threads u
  /-- A guard that a thread lets go of is due to be dropped, -/
  due : ∀ t m guard, (after past).LetsGo t m guard →
    guard ∈ ((after (past ++ [(t, m)])).threads t).dropping
  /-- and once its thread has dropped what is due it is released, by one move only, whatever the
  other threads do in between. -/
  released : ∀ t m guard more, (after past).LetsGo t m guard →
    (∀ e ∈ more, e.1 = t → e.2 = .drop) →
    ((after (past ++ [(t, m)])).threads t).dropping.length ≤ more.countP (·.1 == t) →
      (after (past ++ (t, m) :: more)).IsReleased guard ∧
        ∃! p, ReleasedAt (past ++ (t, m) :: more) guard p
  /-- A guard that is closed is released at once. -/
  closed : ∀ t name guard, (after past).named? t name = some guard →
    (after (past ++ [(t, .leave name)])).IsReleased guard
  /-- The next guard that is due is released by a drop. -/
  dropped : ∀ t guard rest, ((after past).threads t).dropping = guard :: rest →
    (after (past ++ [(t, .drop)])).IsReleased guard
  /-- No move releases a guard but these two. -/
  only : ∀ t m guard, (after past).IsHeld guard →
    (after (past ++ [(t, m)])).IsReleased guard →
      (∃ name, m = .leave name ∧ (after past).named? t name = some guard) ∨
        m = .drop ∧ ∃ rest, ((after past).threads t).dropping = guard :: rest

/-- Every guard that counts is in one place of one thread, and whatever way its thread lets go of it,
it is released once. -/
theorem custody (past : List (Nat × Move)) : Custody past := by
  have hhands := inHands_after past
  have hnext : ∀ t m, after (past ++ [(t, m)]) = ((after past).move t m).1 := fun t m =>
    after_concat past (t, m)
  constructor
  · exact hhands
  · intro t m name
    rw [hnext]
    exact named?_move hhands t m name
  · intro t m u hu
    rw [hnext]
    exact threads_move_of_ne _ hu m
  · intro t m guard hgo
    rw [hnext]
    exact mem_dropping_of_letsGo hhands hgo
  · intro t m guard more hgo hdrop hcount
    have hdue := mem_dropping_of_letsGo hhands hgo
    have hreleased : (after (past ++ (t, m) :: more)).IsReleased guard := by
      rw [List.append_cons, after_append]
      refine isReleased_of_drops (inHands_after _) hdrop hcount guard ?_
      rw [hnext]
      exact hdue
    obtain ⟨p, hp⟩ := (exists_releasedAt_iff _ guard).2 hreleased
    exact ⟨hreleased, p, hp, fun q hq => releasedAt_unique hq hp⟩
  · intro t name guard hname
    obtain ⟨opened, hfound⟩ := hhands.find?_eq hname
    rw [hnext]
    exact isReleased_leave hfound
  · intro t guard rest hdue
    rw [hnext]
    exact isReleased_drop hhands hdue
  · intro t m guard hheld hreleased
    rw [hnext] at hreleased
    exact releases_only hheld hreleased

/-- Nothing counts when no thread has a guard. -/
theorem not_isHeld_of_guards_eq_nil {past : List (Nat × Move)}
    (h : ∀ t, ((after past).threads t).guards = []) (guard : Nat) : ¬ (after past).IsHeld guard := by
  intro hheld
  obtain ⟨t, hguard⟩ := (inHands_after past).held guard hheld
  rw [h t] at hguard
  cases hguard

end WebSocketEcho.Ledger
