import WebSocketEcho.Proofs.Counters
import WebSocketEcho.Proofs.Ledger.Custody

/-!
# Every interleaving counts right

Any number of threads make moves on one fresh ledger, in any order.  `Linearised` lists what holds
after every such history: the counters are the number of live guards and its peak, readers change
nothing and are answered the counters of one instant (`Answers`), and every guard takes one session
off exactly once, however its thread lets go of it (`Custody`).

`counters_linearised` is the result.  `tells_after` follows the two numbers along the history with
`Ledger.Shift`.

## The limit

`Linearised` assumes that fewer than `2 ^ 64` guards are live at any time.  The counters have 64
bits and stop at their ends, so beyond that the count is lost.
-/

namespace WebSocketEcho.Ledger

/-! ## The two numbers -/

/-- Openings are live guards and released ones. -/
theorem countP_opens (past : List (Nat × Move)) :
    past.countP (·.2.opens) = (after past).live + (after past).released := by
  induction past using List.reverseRecOn with
  | nil => rfl
  | append_singleton past e ih =>
    rw [List.countP_append, List.countP_singleton, ih]
    rcases (shift_after past e).counts with ⟨hm, _, hl, hr⟩ | ⟨hm, _, hl, hr⟩ | ⟨hm, _, hl, hr⟩
    · rw [hl, hr, hm]
      simp only [if_true]
      omega
    · rw [hr, hm, ← hl]
      simp only [Bool.false_eq_true, if_false]
      omega
    · rw [hl, hr, hm]
      rfl

theorem live_le_length (past : List (Nat × Move)) : (after past).live ≤ past.length :=
  calc (after past).live ≤ (after past).live + (after past).released := Nat.le_add_right _ _
    _ = past.countP (·.2.opens) := (countP_opens past).symm
    _ ≤ past.length := List.countP_le_length

/-- The counters tell the live guards and their peak. -/
theorem tells_after (past : List (Nat × Move))
    (hlive : ∀ p, p <+: past → (after p).live < 2 ^ 64) :
    ∃ m, (after past).counters.Tells (after past).live m ∧
      IsPeak (fun p => (after p).live) past m := by
  refine Counters.tells_of_history (f := fun p => (after p).live)
    (g := fun p => (after p).counters) rfl rfl past ?_ hlive
  intro p e _
  rcases (shift_after p e).counts with ⟨_, hc, hl, _⟩ | ⟨_, hc, hl, _⟩ | ⟨_, hc, hl, _⟩
  · exact Or.inl ⟨hc, hl⟩
  · exact Or.inr (Or.inl ⟨hc, hl⟩)
  · exact Or.inr (Or.inr ⟨hc, hl⟩)

/-! ## The result -/

/-- What the next move of any thread is answered after a history. -/
structure Answers (past : List (Nat × Move)) : Prop where
  /-- A reader sees the counters of one instant. -/
  snapshot : ∀ t, ((after past).move t .snapshot).2 = .counters (after past).counters
  active : ∀ t, ((after past).move t .active).2 = .number (.ofNat (after past).live)
  max : ∀ t, ((after past).move t .max).2 = .number (after past).counters.max
  report : ∀ t, ((after past).move t .report).2 =
    .page (Report.ofCounters (after past).counters).render
  /-- An opening is answered the counters after it, -/
  opened : ∀ t m, m.opens = true →
    ((after past).move t m).2 = .counters (after (past ++ [(t, m)])).counters
  /-- and so is a closing. -/
  closed : ∀ t name guard, (after past).named? t name = some guard →
    ((after past).move t (.leave name)).2 =
      .counters (after (past ++ [(t, .leave name)])).counters
  /-- A guard tells the counters after the opening that made it, whenever it is asked. -/
  entered : ∀ t name guard, (after past).named? t name = some guard →
    ∃ p e, p ++ [e] <+: past ∧ e.2.opens = true ∧ (after p).guards.length = guard ∧
      ((after past).move t (.entered name)).2 = .counters (after (p ++ [e])).counters
  /-- Under a name that the thread has no guard under, nothing is answered and nothing done. -/
  unnamed : ∀ t name, (after past).named? t name = none →
    ∀ m, m = .entered name ∨ m = .leave name ∨ m = .discard name →
      (after past).move t m = (after past, .noGuard)

/-- What holds after a history of moves of any threads. -/
structure Linearised (past : List (Nat × Move)) : Prop where
  /-- The count is the number of live guards. -/
  active : (after past).counters.active.toNat = (after past).live
  /-- The live guards are the openings less the guards released. -/
  openings : past.countP (·.2.opens) = (after past).live + (after past).released
  /-- The peak is the highest number of live guards at any time. -/
  peak : IsPeak (fun p => (after p).live) past (after past).counters.max.toNat
  peak_le : ∀ p, p <+: past → (after p).counters.max ≤ (after past).counters.max
  active_le_max : (after past).counters.active ≤ (after past).counters.max
  answers : Answers past
  /-- Readers change nothing. -/
  read : ∀ t m, m.isRead = true → ((after past).move t m).1 = after past
  /-- The next move opens one session, or takes one off by releasing one guard, or leaves the
  counters alone. -/
  shift : ∀ t m, Shift (after past) m ((after past).move t m).1
  /-- A guard that is released was released by one move only. -/
  once : ∀ guard, (after past).IsReleased guard → ∃! p, ReleasedAt past guard p
  /-- A guard that is not released was released by no move. -/
  never : ∀ guard, ¬ (after past).IsReleased guard → ∀ p, ¬ ReleasedAt past guard p
  /-- Every guard that counts is in one place of one thread, and is released once it lets go. -/
  custody : Custody past
  /-- The guards that a thread has given up are released once it has dropped as many, whatever
  the others do in between. -/
  dropped : ∀ t more, (∀ e ∈ more, e.1 = t → e.2 = .drop) →
    ((after past).threads t).dropping.length ≤ more.countP (·.1 == t) →
    ∀ guard ∈ ((after past).threads t).dropping, (after (past ++ more)).IsReleased guard
  /-- So are all the guards of a thread that fails. -/
  failed : ∀ t more, (∀ e ∈ more, e.1 = t → e.2 = .drop) →
    ((after past).threads t).guards.length ≤ more.countP (·.1 == t) →
    ∀ guard ∈ ((after past).threads t).guards,
      (after (past ++ (t, .abandon) :: more)).IsReleased guard

theorem answers_after {past : List (Nat × Move)}
    (hactive : (after past).counters.active.toNat = (after past).live) : Answers past := by
  have hhands := inHands_after past
  constructor
  · exact fun t => rfl
  · intro t
    rw [← hactive, UInt64.ofNat_toNat]
    rfl
  · exact fun t => rfl
  · exact fun t => rfl
  · intro t m hm
    rw [after_concat]
    cases m with
    | enter name => rfl
    | visit => rfl
    | entered | leave | discard | abandon | drop | snapshot | active | max | report =>
      cases hm
  · intro t name guard hname
    obtain ⟨opened, hfound⟩ := hhands.find?_eq hname
    obtain ⟨_, _, hg⟩ := Option.bind_eq_some_iff.1 hfound
    obtain ⟨_, hguard, heq⟩ := Option.map_eq_some_iff.1 hg
    cases heq
    rw [after_concat, move, hfound]
    show _ = Answer.counters ((after past).release guard).counters
    rw [release_eq_of_held hguard]
    rfl
  · intro t name guard hname
    obtain ⟨opened, hfound⟩ := hhands.find?_eq hname
    obtain ⟨_, _, hg⟩ := Option.bind_eq_some_iff.1 hfound
    obtain ⟨_, hguard, heq⟩ := Option.map_eq_some_iff.1 hg
    cases heq
    obtain ⟨p, e, hp, hopens, hmade, hopened⟩ := exists_opening hguard
    refine ⟨p, e, hp, hopens, hmade, ?_⟩
    rw [move, hfound, ← hopened]
  · intro t name hname m hm
    have hfound : (after past).find? t name = none := by
      rw [find?, show ((after past).threads t).named.lookup name = none from hname]
      rfl
    rcases hm with rfl | rfl | rfl
    · rw [move, hfound]
    · rw [move, hfound]
    · rw [move, hfound]

/-- However any number of threads interleave, the counters count the live guards and their peak,
and every guard takes one session off once. -/
theorem counters_linearised (past : List (Nat × Move))
    (hlive : ∀ p, p <+: past → (after p).live < 2 ^ 64) : Linearised past := by
  obtain ⟨m, ht, hp⟩ := tells_after past hlive
  refine
    { active := ht.active
      openings := countP_opens past
      peak := ht.max ▸ hp
      peak_le := ?_
      active_le_max := ?_
      answers := answers_after ht.active
      read := fun t m hm => move_eq_self_of_isRead hm _ t
      shift := fun t m => shift_move _ t m
      once := ?_
      never := ?_
      custody := custody past
      dropped := ?_
      failed := ?_ }
  · intro p hpre
    obtain ⟨m', ht', hp'⟩ := tells_after p fun q hq => hlive q (hq.trans hpre)
    rw [UInt64.le_iff_toNat_le, ht.max, ht'.max]
    obtain ⟨q, hq, hm'⟩ := hp'.reached
    rw [← hm']
    exact hp.le q (hq.trans hpre)
  · rw [UInt64.le_iff_toNat_le, ht.active, ht.max]
    exact hp.le past List.prefix_rfl
  · intro guard h
    obtain ⟨p, hrel⟩ := (exists_releasedAt_iff past guard).2 h
    exact ⟨p, hrel, fun q hq => releasedAt_unique hq hrel⟩
  · intro guard h p hrel
    exact h ((exists_releasedAt_iff past guard).1 ⟨p, hrel⟩)
  · intro t more hdrop hcount guard hg
    rw [after_append]
    exact isReleased_of_drops (inHands_after past) hdrop hcount guard hg
  · intro t more hdrop hcount guard hg
    have hthread : ((after (past ++ [(t, .abandon)])).threads t).dropping =
        ((after past).threads t).guards := by
      rw [after_concat, threads_abandon_self]
      rfl
    rw [List.append_cons, after_append]
    refine isReleased_of_drops (inHands_after _) hdrop ?_ guard ?_
    · rw [hthread]
      exact hcount
    · rw [hthread]
      exact hg

/-- Two threads: the first opens over a guard of its own, which it drops late, the second closes
its guard and drops it, and the first fails. -/
def twoThreads : List (Nat × Move) :=
  [(0, .enter "a"), (1, .enter "a"), (0, .enter "a"), (1, .leave "a"), (0, .drop), (1, .drop),
    (0, .abandon), (0, .drop)]

theorem twoThreads_linearised :
    (∀ p, p <+: twoThreads → (after p).live < 2 ^ 64) ∧ Linearised twoThreads ∧
      (after twoThreads).counters = ⟨0, 3⟩ := by
  have hlive : ∀ p, p <+: twoThreads → (after p).live < 2 ^ 64 := by
    intro p hp
    have hlen : p.length ≤ 8 := hp.length_le
    have hle := live_le_length p
    omega
  exact ⟨hlive, counters_linearised twoThreads hlive, by decide⟩

/-! ## Operations -/

theorem exists_run_complete (l : Ledger) (t : Nat) (m : Move) :
    ∃ schedule, (l.complete t m).1 = l.run schedule :=
  ⟨(t, m) :: ((l.move t m).1.threads t).dropping.map fun _ => (t, .drop), rfl⟩

theorem exists_run_enterMany (n : Nat) (l : Ledger) (seen : List UInt64) :
    ∃ schedule, (enterMany n l seen).1 = l.run schedule := by
  induction n generalizing l seen with
  | zero => exact ⟨[], rfl⟩
  | succ n ih =>
    obtain ⟨rest, h⟩ := ih (l.move (n + 1) (.enter "")).1 (l.counters.enter.active :: seen)
    exact ⟨(n + 1, .enter "") :: rest, h⟩

theorem exists_run_leaveMany (n : Nat) (l : Ledger) :
    ∃ schedule, leaveMany n l = l.run schedule := by
  induction n generalizing l with
  | zero => exact ⟨[], rfl⟩
  | succ n ih =>
    obtain ⟨first, hfirst⟩ := exists_run_complete l (n + 1) .abandon
    obtain ⟨rest, hrest⟩ := ih (l.complete (n + 1) .abandon).1
    refine ⟨first ++ rest, ?_⟩
    rw [leaveMany, hrest, hfirst, run_append]

/-- Every operation is a sequence of moves. -/
theorem exists_run_apply (l : Ledger) (o : Operation) :
    ∃ schedule, (l.apply o).1 = l.run schedule := by
  cases o with
  | fail =>
    obtain ⟨rest, hrest⟩ := exists_run_complete (l.move 1 (.enter "")).1 1 .abandon
    exact ⟨(1, .enter "") :: rest, hrest⟩
  | crowd count =>
    obtain ⟨first, hfirst⟩ := exists_run_enterMany count l []
    obtain ⟨rest, hrest⟩ := exists_run_leaveMany count (enterMany count l []).1
    refine ⟨first ++ rest, ?_⟩
    show leaveMany count (enterMany count l []).1 = _
    rw [hrest, hfirst, run_append]
  | enter | visit | entered | leave | discard | discardAll | snapshot | active | max | report =>
    exact exists_run_complete l 0 _

end WebSocketEcho.Ledger
