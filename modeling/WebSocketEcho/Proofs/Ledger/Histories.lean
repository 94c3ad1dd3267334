import Mathlib.Data.List.Induction
import WebSocketEcho.Proofs.Ledger.Hands

/-!
# Histories of a ledger

A history is a list of moves of any threads on one fresh ledger, and `after` is the ledger behind
it.  Each guard is made by one opening, whose counters it tells (`exists_opening`), and is released
by one move at most: `exists_releasedAt_iff` and `releasedAt_unique` find that move.

`isReleased_of_drops` waits for a thread to drop what it has due, whatever the other threads do in
between.
-/

namespace WebSocketEcho.Ledger

/-- The ledger after moves of any threads, from a fresh one. -/
def after (past : List (Nat × Move)) : Ledger := empty.run past

/-- The first move after `p` releases a guard. -/
def ReleasedAt (past : List (Nat × Move)) (guard : Nat) (p : List (Nat × Move)) : Prop :=
  ∃ e, p ++ [e] <+: past ∧ (after p).IsHeld guard ∧ (after (p ++ [e])).IsReleased guard

theorem after_concat (past : List (Nat × Move)) (e : Nat × Move) :
    after (past ++ [e]) = ((after past).move e.1 e.2).1 := by
  simp [after, run]

/-- Each move of a history shifts the ledger before it. -/
theorem shift_after (past : List (Nat × Move)) (e : Nat × Move) :
    Shift (after past) e.2 (after (past ++ [e])) := by
  rw [after_concat]
  exact shift_move _ _ _

theorem run_append (l : Ledger) (a b : List (Nat × Move)) : l.run (a ++ b) = (l.run a).run b := by
  simp [run]

theorem after_append (past more : List (Nat × Move)) :
    after (past ++ more) = (after past).run more :=
  run_append empty past more

theorem inHands_after (past : List (Nat × Move)) : (after past).InHands := by
  induction past using List.reverseRecOn with
  | nil => exact inHands_empty
  | append_singleton past e ih =>
    rw [after_concat]
    exact inHands_move ih _ _

/-! ## Where guards come from -/

/-- A guard was there before, or it was made by an opening and tells the counters after it. -/
theorem Shift.guard_cases {l l' : Ledger} {m : Move} (h : Shift l m l') {guard : Nat} {g : Guard}
    (hg : l'.guards[guard]? = some g) :
    (∃ held, l.guards[guard]? = some ⟨g.opened, held⟩) ∨
      m.opens = true ∧ l.guards.length = guard ∧ g.opened = l'.counters := by
  have hlt : guard < l'.guards.length := (List.getElem?_eq_some_iff.1 hg).1
  cases h with
  | opened hm hc hguards =>
    rw [hguards] at hg hlt
    rw [List.length_append, List.length_singleton] at hlt
    rcases Nat.lt_succ_iff_lt_or_eq.1 hlt with hlt | rfl
    · rw [List.getElem?_append_left hlt] at hg
      exact Or.inl ⟨g.held, hg⟩
    · rw [List.getElem?_concat_length] at hg
      cases hg
      exact Or.inr ⟨hm, rfl, hc.symm⟩
  | released hm k opened hheld hc hguards =>
    rw [hguards] at hg hlt
    rw [List.length_set] at hlt
    by_cases hk : k = guard
    · subst hk
      rw [List.getElem?_set_self hlt] at hg
      cases hg
      exact Or.inl ⟨true, hheld⟩
    · rw [List.getElem?_set_ne hk] at hg
      exact Or.inl ⟨g.held, hg⟩
  | kept hm hc hguards =>
    rw [hguards] at hg
    exact Or.inl ⟨g.held, hg⟩

/-- The opening that made a guard left the counters that the guard tells. -/
theorem exists_opening {past : List (Nat × Move)} {guard : Nat} {g : Guard}
    (hg : (after past).guards[guard]? = some g) :
    ∃ p e, p ++ [e] <+: past ∧ e.2.opens = true ∧ (after p).guards.length = guard ∧
      g.opened = (after (p ++ [e])).counters := by
  induction past using List.reverseRecOn generalizing g with
  | nil => simp [after, run, empty] at hg
  | append_singleton past e ih =>
    rcases (shift_after past e).guard_cases hg with ⟨held, hold⟩ | ⟨hopens, hmade, hopened⟩
    · obtain ⟨p, e', hp, h⟩ := ih hold
      exact ⟨p, e', hp.trans (List.prefix_append _ _), h⟩
    · exact ⟨past, e, List.prefix_rfl, hopens, hmade, hopened⟩

/-! ## Each guard once -/

theorem releasedAt_concat_iff {past p : List (Nat × Move)} {e : Nat × Move} {guard : Nat} :
    ReleasedAt (past ++ [e]) guard p ↔
      ReleasedAt past guard p ∨
        p = past ∧ (after past).IsHeld guard ∧ (after (past ++ [e])).IsReleased guard := by
  constructor
  · rintro ⟨e', hp, hheld, hrel⟩
    rcases List.prefix_concat_iff.1 hp with heq | hp
    · obtain ⟨rfl, he⟩ := List.append_inj' heq rfl
      cases he
      exact Or.inr ⟨rfl, hheld, hrel⟩
    · exact Or.inl ⟨e', hp, hheld, hrel⟩
  · rintro (⟨e', hp, hheld, hrel⟩ | ⟨rfl, hheld, hrel⟩)
    · exact ⟨e', hp.trans (List.prefix_append _ _), hheld, hrel⟩
    · exact ⟨e, List.prefix_rfl, hheld, hrel⟩

/-- What one more move means for a guard: it is released now if it was before, or if this is the
move that releases it. -/
theorem isReleased_concat_iff (past : List (Nat × Move)) (e : Nat × Move) (guard : Nat) :
    (after (past ++ [e])).IsReleased guard ↔
      (after past).IsReleased guard ∨
        (after past).IsHeld guard ∧ (after (past ++ [e])).IsReleased guard := by
  rcases (shift_after past e).standing_eq guard with h | ⟨h, h'⟩ | ⟨h, h'⟩
  · simp only [IsReleased, IsHeld, h]
    constructor
    · exact Or.inl
    · rintro (hr | ⟨_, hr⟩) <;> exact hr
  · simp [IsReleased, IsHeld, h, h']
  · simp [IsReleased, IsHeld, h, h']

/-- A guard is released by some move of the history or it is not released. -/
theorem exists_releasedAt_iff (past : List (Nat × Move)) (guard : Nat) :
    (∃ p, ReleasedAt past guard p) ↔ (after past).IsReleased guard := by
  induction past using List.reverseRecOn with
  | nil =>
    constructor
    · rintro ⟨p, e, hp, _⟩
      exact absurd (List.prefix_nil.1 hp) (by simp)
    · intro h
      simp [after, run, empty, IsReleased, standing] at h
  | append_singleton past e ih =>
    rw [isReleased_concat_iff, ← ih]
    constructor
    · rintro ⟨p, hp⟩
      rcases releasedAt_concat_iff.1 hp with hp | ⟨_, hr⟩
      · exact Or.inl ⟨p, hp⟩
      · exact Or.inr hr
    · rintro (⟨p, hp⟩ | hr)
      · exact ⟨p, releasedAt_concat_iff.2 (Or.inl hp)⟩
      · exact ⟨past, releasedAt_concat_iff.2 (Or.inr ⟨rfl, hr⟩)⟩

/-- No two moves release the same guard. -/
theorem releasedAt_unique {past p q : List (Nat × Move)} {guard : Nat}
    (hp : ReleasedAt past guard p) (hq : ReleasedAt past guard q) : p = q := by
  induction past using List.reverseRecOn with
  | nil =>
    obtain ⟨e, hpre, _⟩ := hp
    exact absurd (List.prefix_nil.1 hpre) (by simp)
  | append_singleton past e ih =>
    -- The last move releases a guard that is still held, an earlier one leaves it released.
    have hexcl : ∀ r, ReleasedAt past guard r → ¬ (after past).IsHeld guard := by
      intro r hr hheld
      have hrel := (exists_releasedAt_iff past guard).1 ⟨r, hr⟩
      rw [IsReleased, hheld] at hrel
      cases hrel
    rcases releasedAt_concat_iff.1 hp with hp' | ⟨rfl, hheld, _⟩
    · rcases releasedAt_concat_iff.1 hq with hq' | ⟨rfl, hheld, _⟩
      · exact ih hp' hq'
      · exact absurd hheld (hexcl p hp')
    · rcases releasedAt_concat_iff.1 hq with hq' | ⟨rfl, _, _⟩
      · exact absurd hheld (hexcl q hq')
      · rfl

/-! ## Guards that a thread has due -/

/-- A guard that is released stays so. -/
theorem isReleased_move {l : Ledger} {guard : Nat} (h : l.IsReleased guard) (t : Nat) (m : Move) :
    (l.move t m).1.IsReleased guard := by
  rcases (shift_move l t m).standing_eq guard with he | ⟨hn, _⟩ | ⟨hh, _⟩
  · rw [IsReleased, he]
    exact h
  · rw [IsReleased, hn] at h
    cases h
  · rw [IsReleased, hh] at h
    cases h

theorem isReleased_run {l : Ledger} {guard : Nat} (h : l.IsReleased guard)
    (more : List (Nat × Move)) : (l.run more).IsReleased guard := by
  induction more generalizing l with
  | nil => exact h
  | cons e more ih => exact ih (isReleased_move h e.1 e.2)

/-- A guard that its thread drops is released afterwards. -/
theorem isReleased_drop {l : Ledger} (hl : l.InHands) {t guard : Nat} {rest : List Nat}
    (h : (l.threads t).dropping = guard :: rest) : (l.move t .drop).1.IsReleased guard := by
  have hlt : guard < l.guards.length := by
    refine hl.made t guard ?_
    rw [Thread.guards, h]
    exact List.mem_append_right _ List.mem_cons_self
  have hlen := (shift_move l t .drop).length_le
  have hnot := not_isHeld_drop h
  rw [IsHeld, standing, List.getElem?_eq_getElem (Nat.lt_of_lt_of_le hlt hlen)] at hnot
  rw [IsReleased, standing, List.getElem?_eq_getElem (Nat.lt_of_lt_of_le hlt hlen)]
  simpa using hnot

/-- The guards that a thread has given up are released once it has made as many drops, whatever
the other threads do in between. -/
theorem isReleased_of_drops {l : Ledger} (hl : l.InHands) {t : Nat} {more : List (Nat × Move)}
    (hdrop : ∀ e ∈ more, e.1 = t → e.2 = .drop)
    (hcount : (l.threads t).dropping.length ≤ more.countP (·.1 == t)) :
    ∀ guard ∈ (l.threads t).dropping, (l.run more).IsReleased guard := by
  induction more generalizing l with
  | nil =>
    intro guard hg
    have hnil := List.length_eq_zero_iff.1 (Nat.le_zero.1 hcount)
    rw [hnil] at hg
    cases hg
  | cons e more ih =>
    obtain ⟨u, m⟩ := e
    intro guard hg
    have hmore : ∀ e ∈ more, e.1 = t → e.2 = .drop := fun e he =>
      hdrop e (List.mem_cons_of_mem _ he)
    show ((l.move u m).1.run more).IsReleased guard
    rw [List.countP_cons] at hcount
    by_cases hu : u = t
    · subst hu
      have hm : m = .drop := hdrop (u, m) List.mem_cons_self rfl
      subst hm
      simp only [beq_self_eq_true, if_true] at hcount
      cases hd : (l.threads u).dropping with
      | nil =>
        rw [hd] at hg
        cases hg
      | cons first rest =>
        have hthreads : ((l.move u .drop).1.threads u).dropping = rest := by
          rw [threads_drop_self hd]
        rw [hd] at hg hcount
        rcases List.mem_cons.1 hg with rfl | hg
        · exact isReleased_run (isReleased_drop hl hd) more
        · refine ih (inHands_move hl u .drop) hmore ?_ guard (hthreads ▸ hg)
          rw [hthreads]
          simp only [List.length_cons] at hcount
          omega
    · have hthreads := threads_move_of_ne l (Ne.symm hu) m
      have hfalse : (u == t) = false := beq_eq_false_iff_ne.2 hu
      simp only [hfalse, Bool.false_eq_true, if_false, Nat.add_zero] at hcount
      refine ih (inHands_move hl u m) hmore ?_ guard ?_
      · rw [hthreads]
        exact hcount
      · rw [hthreads]
        exact hg

end WebSocketEcho.Ledger
