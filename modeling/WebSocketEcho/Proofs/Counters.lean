import Mathlib.Algebra.Group.Nat.Defs
import Mathlib.Data.List.Induction
import WebSocketEcho.Counters

/-!
# The counters as numbers

As long as fewer than `2 ^ 64` sessions are open at once, the counters are plain natural numbers.
`Counters.Tells` says which numbers they are, and `Tells.enter` and `Tells.leave` follow one
session in and one out.

`IsPeak` is the greatest value that a quantity had in the course of a history.  A history is a
list, its earlier states are the beginnings of the list, and `IsPeak.concat` takes the peak one
event further.  `tells_of_history` joins the two: counters that go in and out with a number of
open sessions tell that number and its peak.

Consumers: the ledger of guards and the server, each with histories of its own.
-/

namespace WebSocketEcho

/-! ## Peaks -/

/-- `m` is the greatest value that `f` has on the beginnings of a history. -/
structure IsPeak {α : Type} (f : List α → Nat) (history : List α) (m : Nat) : Prop where
  reached : ∃ p, p <+: history ∧ f p = m
  le : ∀ p, p <+: history → f p ≤ m

section Peak

variable {α : Type} {f : List α → Nat} {history : List α} {m : Nat}

theorem isPeak_nil (f : List α → Nat) : IsPeak f [] (f []) := by
  constructor
  · exact ⟨[], List.prefix_rfl, rfl⟩
  · intro p hp
    exact Nat.le_of_eq (congrArg f (List.prefix_nil.1 hp))

/-- One event further, the peak is the old one or the new value. -/
theorem IsPeak.concat (h : IsPeak f history m) (a : α) :
    IsPeak f (history ++ [a]) (max m (f (history ++ [a]))) := by
  constructor
  · rcases Nat.le_total m (f (history ++ [a])) with hle | hle
    · exact ⟨history ++ [a], List.prefix_rfl, (Nat.max_eq_right hle).symm⟩
    · obtain ⟨p, hp, hm⟩ := h.reached
      refine ⟨p, hp.trans (List.prefix_append _ _), ?_⟩
      rw [hm, Nat.max_eq_left hle]
  · intro p hp
    rcases List.prefix_concat_iff.1 hp with rfl | hp
    · exact Nat.le_max_right _ _
    · exact Nat.le_trans (h.le p hp) (Nat.le_max_left _ _)

/-- An event that does not raise the value above the one before it keeps the peak. -/
theorem IsPeak.concat_of_le (h : IsPeak f history m) {a : α}
    (hle : f (history ++ [a]) ≤ f history) : IsPeak f (history ++ [a]) m := by
  have hm : max m (f (history ++ [a])) = m :=
    Nat.max_eq_left (Nat.le_trans hle (h.le history List.prefix_rfl))
  rw [← hm]
  exact h.concat a

end Peak

/-! ## The counters -/

namespace Counters

/-- The counters tell that `count` sessions are open and that there were `peak` at most. -/
structure Tells (c : Counters) (count peak : Nat) : Prop where
  active : c.active.toNat = count
  max : c.max.toNat = peak

theorem tells_zero : zero.Tells 0 0 := ⟨rfl, rfl⟩

theorem toNat_saturatingSucc {n : UInt64} (h : n.toNat + 1 < 2 ^ 64) :
    (saturatingSucc n).toNat = n.toNat + 1 := by
  have hn : n ≠ 0xFFFFFFFFFFFFFFFF := by
    rintro rfl
    exact absurd h (by decide)
  rw [saturatingSucc, if_neg hn, UInt64.toNat_add, show (1 : UInt64).toNat = 1 from rfl,
    Nat.mod_eq_of_lt h]

theorem toNat_saturatingPred (n : UInt64) : (saturatingPred n).toNat = n.toNat - 1 := by
  rw [saturatingPred]
  split
  · rename_i hn
    rw [hn]
    rfl
  · rename_i hn
    have hle : (1 : UInt64) ≤ n := by
      rw [UInt64.le_iff_toNat_le]
      have hpos : n.toNat ≠ 0 := fun h0 => hn (UInt64.toNat_inj.1 h0)
      exact Nat.one_le_iff_ne_zero.2 hpos
    rw [UInt64.toNat_sub_of_le _ _ hle]
    rfl

/-- One session more, and the peak follows. -/
theorem Tells.enter {c : Counters} {n m : Nat} (h : c.Tells n m) (hn : n + 1 < 2 ^ 64) :
    c.enter.Tells (n + 1) (Nat.max m (n + 1)) := by
  have hs : (saturatingSucc c.active).toNat = n + 1 := by
    rw [toNat_saturatingSucc (by rw [h.active]; exact hn), h.active]
  refine ⟨hs, ?_⟩
  rw [Counters.enter]
  dsimp only
  split
  · rename_i hlt
    rw [UInt64.lt_iff_toNat_lt, hs, h.max] at hlt
    rw [hs]
    exact (Nat.max_eq_right (Nat.le_of_lt hlt)).symm
  · rename_i hge
    rw [UInt64.lt_iff_toNat_lt, hs, h.max] at hge
    rw [h.max]
    exact (Nat.max_eq_left (Nat.le_of_not_lt hge)).symm

/-- One session less; the peak stays. -/
theorem Tells.leave {c : Counters} {n m : Nat} (h : c.Tells n m) : c.leave.Tells (n - 1) m := by
  refine ⟨?_, h.max⟩
  rw [Counters.leave, ← h.active]
  exact toNat_saturatingPred c.active

/-- Counters that go up and down with `f`, as long as there is room for it, tell `f` and its
peak. -/
theorem tells_of_history {α : Type} {f : List α → Nat} {g : List α → Counters}
    (hf : f [] = 0) (hg : g [] = zero) (history : List α)
    (hstep : ∀ p a, p ++ [a] <+: history →
      g (p ++ [a]) = (g p).enter ∧ f (p ++ [a]) = f p + 1 ∨
        g (p ++ [a]) = (g p).leave ∧ f (p ++ [a]) + 1 = f p ∨
          g (p ++ [a]) = g p ∧ f (p ++ [a]) = f p)
    (hroom : ∀ p, p <+: history → f p < 2 ^ 64) :
    ∃ m, (g history).Tells (f history) m ∧ IsPeak f history m := by
  induction history using List.reverseRecOn with
  | nil =>
    rw [hf, hg]
    exact ⟨0, tells_zero, hf ▸ isPeak_nil f⟩
  | append_singleton past a ih =>
    have hpast : past <+: past ++ [a] := List.prefix_append _ _
    obtain ⟨m, ht, hp⟩ :=
      ih (fun p b hb => hstep p b (hb.trans hpast)) fun p hp => hroom p (hp.trans hpast)
    rcases hstep past a List.prefix_rfl with ⟨hc, hn⟩ | ⟨hc, hn⟩ | ⟨hc, hn⟩
    · refine ⟨Nat.max m (f (past ++ [a])), ?_, hp.concat a⟩
      have hlt := hroom (past ++ [a]) List.prefix_rfl
      rw [hn] at hlt
      rw [hc, hn]
      exact ht.enter hlt
    · refine ⟨m, ?_, hp.concat_of_le (by omega)⟩
      have hsub : f (past ++ [a]) = f past - 1 := by omega
      rw [hc, hsub]
      exact ht.leave
    · refine ⟨m, ?_, hp.concat_of_le (Nat.le_of_eq hn)⟩
      rw [hc, hn]
      exact ht

end Counters

end WebSocketEcho
