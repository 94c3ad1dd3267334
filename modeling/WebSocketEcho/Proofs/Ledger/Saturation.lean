import WebSocketEcho.Proofs.Ledger.Interleaving

/-!
# The counters at their limits

What holds of the counters without any bound on the number of guards.  An opening at the largest
number is not counted, though its guard takes one off later, and a count of zero stays zero
(`toNat_active_enter`, `toNat_active_leave`).  So the count drifts from the number of live guards,
but to one side only: it is never above it (`Ledger.Modest`).

`saturates` is the result for every history.  When no thread has a guard, none is live and the count
is zero again, and from there on it is exact until the number of live guards outgrows 64 bits once
more.
-/

namespace WebSocketEcho

/-! ## One session in, one out -/

namespace Counters

theorem toNat_active_enter (c : Counters) :
    c.enter.active.toNat = min (c.active.toNat + 1) (2 ^ 64 - 1) := by
  have hlt := c.active.toNat_lt
  show (saturatingSucc c.active).toNat = _
  by_cases hroom : c.active.toNat + 1 < 2 ^ 64
  · rw [toNat_saturatingSucc hroom]
    omega
  · have hlast : c.active = 0xFFFFFFFFFFFFFFFF := by
      rw [← UInt64.toNat_inj]
      show c.active.toNat = 2 ^ 64 - 1
      omega
    rw [saturatingSucc, if_pos hlast]
    omega

theorem toNat_max_enter (c : Counters) :
    c.enter.max.toNat = Nat.max c.max.toNat c.enter.active.toNat := by
  rw [enter]
  dsimp only
  split
  · rename_i hlt
    rw [UInt64.lt_iff_toNat_lt] at hlt
    exact (Nat.max_eq_right (Nat.le_of_lt hlt)).symm
  · rename_i hge
    rw [UInt64.lt_iff_toNat_lt] at hge
    exact (Nat.max_eq_left (Nat.le_of_not_lt hge)).symm

theorem toNat_active_leave (c : Counters) : c.leave.active.toNat = c.active.toNat - 1 :=
  toNat_saturatingPred c.active

end Counters

namespace Ledger

open Counters (toNat_active_enter toNat_max_enter toNat_active_leave)

/-! ## What is kept -/

/-- The count is within the peak, and no more than the live guards. -/
structure Modest (l : Ledger) : Prop where
  active_le_max : l.counters.active.toNat ≤ l.counters.max.toNat
  active_le_live : l.counters.active.toNat ≤ l.live

section Shifted

variable {l l' : Ledger} {m : Move}

/-- Every move keeps the count within both bounds. -/
theorem Modest.shift (hl : l.Modest) (h : Shift l m l') : l'.Modest := by
  obtain ⟨hmax, hlive⟩ := hl
  rcases h.counts with ⟨_, hc, hn, _⟩ | ⟨_, hc, hn, _⟩ | ⟨_, hc, hn, _⟩
  · constructor
    · rw [hc, toNat_max_enter]
      exact Nat.le_max_right _ _
    · rw [hc, hn, toNat_active_enter]
      omega
  · constructor
    · rw [hc, toNat_active_leave]
      exact Nat.le_trans (Nat.sub_le _ _) hmax
    · rw [hc, toNat_active_leave]
      omega
  · constructor
    · rw [hc]
      exact hmax
    · rw [hc, hn]
      exact hlive

theorem Shift.max_le (h : Shift l m l') : l.counters.max ≤ l'.counters.max := by
  rw [UInt64.le_iff_toNat_le]
  rcases h.counts with ⟨_, hc, _⟩ | ⟨_, hc, _⟩ | ⟨_, hc, _⟩
  · rw [hc, toNat_max_enter]
    exact Nat.le_max_left _ _
  · exact Nat.le_of_eq (congrArg (·.max.toNat) hc.symm)
  · exact Nat.le_of_eq (congrArg (·.max.toNat) hc.symm)

/-- A count that is exact stays so while there is room for it. -/
theorem Shift.active_eq_live (h : Shift l m l') (hl : l.counters.active.toNat = l.live)
    (hroom : l'.live < 2 ^ 64) : l'.counters.active.toNat = l'.live := by
  rcases h.counts with ⟨_, hc, hn, _⟩ | ⟨_, hc, hn, _⟩ | ⟨_, hc, hn, _⟩
  · rw [hc, toNat_active_enter]
    omega
  · rw [hc, toNat_active_leave]
    omega
  · rw [hc, hn, hl]

end Shifted

/-! ## Histories -/

theorem modest_after (past : List (Nat × Move)) : (after past).Modest := by
  induction past using List.reverseRecOn with
  | nil => exact ⟨Nat.le_refl _, Nat.le_refl _⟩
  | append_singleton past e ih => exact ih.shift (shift_after past e)

theorem max_le_after {past p : List (Nat × Move)} (h : p <+: past) :
    (after p).counters.max ≤ (after past).counters.max := by
  induction past using List.reverseRecOn with
  | nil =>
    rw [List.prefix_nil.1 h]
    exact UInt64.le_refl _
  | append_singleton past e ih =>
    rcases List.prefix_concat_iff.1 h with rfl | h
    · exact UInt64.le_refl _
    · exact UInt64.le_trans (ih h) (shift_after past e).max_le

theorem active_eq_live_after {past more : List (Nat × Move)}
    (hpast : (after past).counters.active.toNat = (after past).live)
    (hroom : ∀ p, p <+: more → (after (past ++ p)).live < 2 ^ 64) :
    (after (past ++ more)).counters.active.toNat = (after (past ++ more)).live := by
  induction more using List.reverseRecOn with
  | nil =>
    rw [List.append_nil]
    exact hpast
  | append_singleton more e ih =>
    have hlast := hroom (more ++ [e]) List.prefix_rfl
    have hbefore := ih fun p hp => hroom p (hp.trans (List.prefix_append _ _))
    rw [← List.append_assoc] at hlast ⊢
    exact (shift_after (past ++ more) e).active_eq_live hbefore hlast

/-- No guard is live when none is held. -/
theorem live_eq_zero {l : Ledger} (h : ∀ guard, ¬ l.IsHeld guard) : l.live = 0 := by
  refine List.countP_eq_zero.2 fun g hg hheld => ?_
  obtain ⟨guard, hguard⟩ := List.getElem?_of_mem hg
  exact h guard (by simp [IsHeld, standing, hguard, hheld])

/-- The next move counts an opening, or counts a closing, or leaves the counters alone. -/
theorem counters_next (past : List (Nat × Move)) (t : Nat) (m : Move) :
    m.opens = true ∧ (after (past ++ [(t, m)])).counters = (after past).counters.enter ∨
      m.opens = false ∧ ((after (past ++ [(t, m)])).counters = (after past).counters.leave ∨
        (after (past ++ [(t, m)])).counters = (after past).counters) := by
  rcases (shift_after past (t, m)).counts with ⟨hm, hc, _⟩ | ⟨hm, hc, _⟩ | ⟨hm, hc, _⟩
  · exact Or.inl ⟨hm, hc⟩
  · exact Or.inr ⟨hm, Or.inl hc⟩
  · exact Or.inr ⟨hm, Or.inr hc⟩

/-- A move that releases a guard takes one off, or nothing when zero is reached. -/
theorem active_of_releases {past : List (Nat × Move)} {e : Nat × Move} {guard : Nat}
    (hheld : (after past).IsHeld guard) (hreleased : (after (past ++ [e])).IsReleased guard) :
    (after (past ++ [e])).counters.active.toNat = (after past).counters.active.toNat - 1 := by
  cases shift_after past e with
  | opened _ hc hg =>
    have hstays : (after (past ++ [e])).IsHeld guard := by
      have henter : (after past).enter.IsHeld guard := isHeld_enter_iff.2 (Or.inl hheld)
      rwa [IsHeld, standing, show (after past).enter.guards = _ from hg.symm] at henter
    exact absurd hreleased hstays.not_isReleased
  | released _ k opened hk hc hg =>
    rw [hc, toNat_active_leave]
  | kept _ hc hg =>
    have hstays : (after (past ++ [e])).IsHeld guard := by
      rwa [IsHeld, standing, hg]
    exact absurd hreleased hstays.not_isReleased

theorem closing_takes_one {past : List (Nat × Move)} {t guard : Nat} {name : String}
    (hname : (after past).named? t name = some guard) :
    (after (past ++ [(t, .leave name)])).IsReleased guard ∧
      (after (past ++ [(t, .leave name)])).counters.active.toNat =
        (after past).counters.active.toNat - 1 := by
  have hreleased := (custody past).closed t name guard hname
  have hheld : (after past).IsHeld guard :=
    (inHands_after past).named t (name, guard) (mem_of_lookup hname)
  exact ⟨hreleased, active_of_releases hheld hreleased⟩

theorem drop_takes_one {past : List (Nat × Move)} {t guard : Nat} {rest : List Nat}
    (hdue : ((after past).threads t).dropping = guard :: rest) :
    (after (past ++ [(t, .drop)])).IsReleased guard ∧
      ((after past).IsHeld guard → (after (past ++ [(t, .drop)])).counters.active.toNat =
        (after past).counters.active.toNat - 1) ∧
      ((after past).IsReleased guard →
        (after (past ++ [(t, .drop)])).counters = (after past).counters) := by
  have hreleased := (custody past).dropped t guard rest hdue
  refine ⟨hreleased, fun hheld => active_of_releases hheld hreleased, fun hbefore => ?_⟩
  have hnot : ¬ (after past).IsHeld guard := fun hheld => hheld.not_isReleased hbefore
  rw [after_concat, move, hdue]
  show ((after past).release guard).counters = _
  rw [release_eq_self hnot]

theorem active_eq_zero {past : List (Nat × Move)}
    (h : ∀ guard, ¬ (after past).IsHeld guard) : (after past).counters.active = 0 := by
  have hle := (modest_after past).active_le_live
  rw [live_eq_zero h] at hle
  exact UInt64.toNat_inj.1 (Nat.le_zero.1 hle)

/-! ## The result -/

/-- What holds after a history of moves of any threads, however many guards are live. -/
structure Saturates (past : List (Nat × Move)) : Prop where
  active_le_max : (after past).counters.active ≤ (after past).counters.max
  max_le : (after past).counters.max.toNat ≤ 2 ^ 64 - 1
  /-- The count is never too high. -/
  active_le_live : (after past).counters.active.toNat ≤ (after past).live
  peak_le : ∀ p, p <+: past → (after p).counters.max ≤ (after past).counters.max
  /-- An opening counts one more, or nothing when the largest number is reached. -/
  opening : ∀ t m, m.opens = true →
    (after (past ++ [(t, m)])).counters.active.toNat =
      min ((after past).counters.active.toNat + 1) (2 ^ 64 - 1)
  /-- Any other move counts one less, or nothing when zero is reached, or changes nothing. -/
  other : ∀ t m, m.opens = false →
    (after (past ++ [(t, m)])).counters.active.toNat = (after past).counters.active.toNat - 1 ∨
      (after (past ++ [(t, m)])).counters = (after past).counters
  /-- No move changes the count by more than one. -/
  near : ∀ t m,
    (after (past ++ [(t, m)])).counters.active.toNat ≤
        (after past).counters.active.toNat + 1 ∧
      (after past).counters.active.toNat ≤
        (after (past ++ [(t, m)])).counters.active.toNat + 1
  /-- Every guard that counts is in one place of one thread, and is released once it lets go. -/
  custody : Custody past
  /-- A guard that its thread closes takes one off, or nothing when zero is reached, -/
  closing : ∀ t name guard, (after past).named? t name = some guard →
    (after (past ++ [(t, .leave name)])).IsReleased guard ∧
      (after (past ++ [(t, .leave name)])).counters.active.toNat =
        (after past).counters.active.toNat - 1
  /-- and so does a guard that is dropped, unless it was closed before. -/
  dropping : ∀ t guard rest, ((after past).threads t).dropping = guard :: rest →
    (after (past ++ [(t, .drop)])).IsReleased guard ∧
      ((after past).IsHeld guard → (after (past ++ [(t, .drop)])).counters.active.toNat =
        (after past).counters.active.toNat - 1) ∧
      ((after past).IsReleased guard →
        (after (past ++ [(t, .drop)])).counters = (after past).counters)
  /-- When no thread has a guard, none is live and nothing is counted. -/
  unowned : (∀ t, ((after past).threads t).guards = []) →
    (after past).live = 0 ∧ (after past).counters.active = 0
  /-- When no guard is held nothing is counted. -/
  idle : (∀ guard, ¬ (after past).IsHeld guard) → (after past).counters.active = 0
  /-- From then on the count is exact, until there are too many guards again. -/
  recovers : (∀ guard, ¬ (after past).IsHeld guard) → ∀ more : List (Nat × Move),
    (∀ p, p <+: more → (after (past ++ p)).live < 2 ^ 64) →
      (after (past ++ more)).counters.active.toNat = (after (past ++ more)).live

/-- With any number of guards the counters stay in order and never wrap, the count is at most the
number of live guards, and when no thread has a guard any more it is zero. -/
theorem saturates (past : List (Nat × Move)) : Saturates past := by
  obtain ⟨hmax, hlive⟩ := modest_after past
  have hlt := (after past).counters.max.toNat_lt
  constructor
  · exact UInt64.le_iff_toNat_le.2 hmax
  · omega
  · exact hlive
  · exact fun p hp => max_le_after hp
  · intro t m hm
    rcases counters_next past t m with ⟨_, hc⟩ | ⟨hm', _⟩
    · rw [hc, toNat_active_enter]
    · rw [hm] at hm'
      cases hm'
  · intro t m hm
    rcases counters_next past t m with ⟨hm', _⟩ | ⟨_, hc | hc⟩
    · rw [hm] at hm'
      cases hm'
    · rw [hc]
      exact Or.inl (toNat_active_leave _)
    · exact Or.inr hc
  · intro t m
    rcases counters_next past t m with ⟨_, hc⟩ | ⟨_, hc | hc⟩
    · rw [hc, toNat_active_enter]
      omega
    · rw [hc, toNat_active_leave]
      omega
    · rw [hc]
      omega
  · exact custody past
  · exact fun t name guard hname => closing_takes_one hname
  · exact fun t guard rest hdue => drop_takes_one hdue
  · intro hnone
    have hfree := not_isHeld_of_guards_eq_nil hnone
    exact ⟨live_eq_zero hfree, active_eq_zero hfree⟩
  · exact active_eq_zero
  · intro hnone more hroom
    refine active_eq_live_after ?_ hroom
    rw [active_eq_zero hnone, live_eq_zero hnone]
    rfl

end Ledger

end WebSocketEcho
