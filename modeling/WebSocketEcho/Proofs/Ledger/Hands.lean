import Mathlib.Data.List.Nodup
import Mathlib.Data.List.Perm.Basic
import WebSocketEcho.Proofs.Ledger.Moves

/-!
# Who has which guard

A thread has guards under names and guards that are due to be dropped.  `InHands` says that these
are all the guards that count: each of them is in one place of one thread, and a guard under a name
has not been released.  So a guard that no thread has any more counts no more.

A move changes what its own thread has and nothing else.  `Handed` lists what of the change
matters; one lemma each shows it of an opening, of a release and of a move that only puts guards
elsewhere, and `inHands_move` sorts the moves under these three.
-/

namespace WebSocketEcho

/-- The guards that a thread has, under names or due to be dropped. -/
def Thread.guards (t : Thread) : List Nat := t.named.map (·.2) ++ t.dropping

/-! ## Names -/

section Names

variable {named : List (String × Nat)} {name other : String} {guard : Nat}

theorem lookup_filter_bne : (named.filter (·.1 != name)).lookup other =
    if other = name then none else named.lookup other := by
  induction named with
  | nil =>
    rw [List.filter_nil, List.lookup_nil]
    split <;> rfl
  | cons p named ih =>
    obtain ⟨first, k⟩ := p
    rw [List.filter_cons, List.lookup_cons]
    by_cases hfirst : first = name
    · rw [if_neg (by simp [hfirst]), ih]
      split
      · rfl
      · rename_i hother
        rw [show (other == first) = false from beq_eq_false_iff_ne.2 (hfirst ▸ hother)]
    · rw [if_pos (by simp [hfirst]), List.lookup_cons, ih]
      cases hsame : other == first with
      | true =>
        obtain rfl := beq_iff_eq.1 hsame
        exact (if_neg hfirst).symm
      | false => rfl

theorem mem_of_lookup (h : named.lookup name = some guard) : (name, guard) ∈ named := by
  obtain ⟨before, behind, rfl, _⟩ := List.lookup_eq_some_iff.1 h
  exact List.mem_append_right _ List.mem_cons_self

end Names

namespace Thread

variable (t : Thread) (name : String)

/-- Giving a name up puts its guard elsewhere, but into the same hands. -/
theorem guards_giveUp_perm : (t.giveUp name).guards.Perm t.guards := by
  have hsplit : (t.named.filter (·.1 != name) ++ t.named.filter (·.1 == name)).Perm t.named := by
    have h := List.filter_append_perm (fun p : String × Nat => p.1 != name) t.named
    simpa only [bne, Bool.not_not] using h
  rw [giveUp, guards, guards, ← List.append_assoc, ← List.map_append]
  exact (hsplit.map (·.2)).append_right t.dropping

theorem guards_keep_perm (guard : Nat) : (t.keep name guard).guards.Perm (guard :: t.guards) :=
  (t.guards_giveUp_perm name).cons guard

theorem nodup_names_giveUp (h : (t.named.map (·.1)).Nodup) :
    ((t.giveUp name).named.map (·.1)).Nodup :=
  (List.filter_sublist.map _).nodup h

theorem nodup_names_keep (h : (t.named.map (·.1)).Nodup) (guard : Nat) :
    ((t.keep name guard).named.map (·.1)).Nodup := by
  have hkeep : (t.keep name guard).named.map (·.1) =
      name :: (t.giveUp name).named.map (·.1) := rfl
  rw [hkeep, List.nodup_cons]
  refine ⟨?_, t.nodup_names_giveUp name h⟩
  rintro hmem
  obtain ⟨p, hp, hname⟩ := List.mem_map.1 hmem
  have hne := (List.mem_filter.1 hp).2
  simp [hname] at hne

end Thread

namespace Ledger

/-- The guard that a thread has under a name. -/
def named? (l : Ledger) (t : Nat) (name : String) : Option Nat := (l.threads t).named.lookup name

/-! ## What counts is in somebody's hands -/

/-- The guards that count are in the hands of the threads, each in one place. -/
structure InHands (l : Ledger) : Prop where
  /-- Threads have no guards but those that were made. -/
  made : ∀ t, ∀ guard ∈ (l.threads t).guards, guard < l.guards.length
  names : ∀ t, ((l.threads t).named.map (·.1)).Nodup
  nodup : ∀ t, (l.threads t).guards.Nodup
  alone : ∀ t u, ∀ guard ∈ (l.threads t).guards, guard ∈ (l.threads u).guards → t = u
  held : ∀ guard, l.IsHeld guard → ∃ t, guard ∈ (l.threads t).guards
  /-- A guard under a name counts. -/
  named : ∀ t, ∀ p ∈ (l.threads t).named, l.IsHeld p.2

/-- What matters of a move of thread `t`: what the thread has afterwards is new or was its own, and
whatever counts afterwards is in its hands or was in those of another thread. -/
structure Handed (l : Ledger) (t : Nat) (l' : Ledger) : Prop where
  others : ∀ u ≠ t, l'.threads u = l.threads u
  length_le : l.guards.length ≤ l'.guards.length
  has : ∀ guard ∈ (l'.threads t).guards, guard < l'.guards.length ∧
    (guard ∈ (l.threads t).guards ∨ l.guards.length ≤ guard)
  names : ((l'.threads t).named.map (·.1)).Nodup
  nodup : (l'.threads t).guards.Nodup
  held : ∀ guard, l'.IsHeld guard → guard ∈ (l'.threads t).guards ∨
    l.IsHeld guard ∧ guard ∉ (l.threads t).guards
  named : ∀ p ∈ (l'.threads t).named, l'.IsHeld p.2
  stays : ∀ guard, l.IsHeld guard → guard ∉ (l.threads t).guards → l'.IsHeld guard

section Hands

variable {l l' : Ledger} {t guard g : Nat} {thread : Thread}

theorem InHands.handed (h : l.InHands) (hstep : Handed l t l') : l'.InHands := by
  -- A guard of the mover that another thread has would be new, or two threads would have had it.
  have hapart : ∀ u ≠ t, ∀ guard ∈ (l'.threads t).guards, guard ∉ (l.threads u).guards := by
    intro u hu guard hguard hother
    rcases (hstep.has guard hguard).2 with hold | hnew
    · exact hu (h.alone u t guard hother hold)
    · exact Nat.not_lt_of_le hnew (h.made u guard hother)
  constructor
  · intro u guard hguard
    by_cases hu : u = t
    · subst hu
      exact (hstep.has guard hguard).1
    · rw [hstep.others u hu] at hguard
      exact Nat.lt_of_lt_of_le (h.made u guard hguard) hstep.length_le
  · intro u
    by_cases hu : u = t
    · subst hu
      exact hstep.names
    · rw [hstep.others u hu]
      exact h.names u
  · intro u
    by_cases hu : u = t
    · subst hu
      exact hstep.nodup
    · rw [hstep.others u hu]
      exact h.nodup u
  · intro u v guard hguard hother
    by_cases hu : u = t
    · by_cases hv : v = t
      · rw [hu, hv]
      · rw [hstep.others v hv] at hother
        exact absurd hother (hapart v hv guard (hu ▸ hguard))
    · rw [hstep.others u hu] at hguard
      by_cases hv : v = t
      · exact absurd hguard (hapart u hu guard (hv ▸ hother))
      · rw [hstep.others v hv] at hother
        exact h.alone u v guard hguard hother
  · intro guard hheld
    rcases hstep.held guard hheld with hmine | ⟨hheld, hother⟩
    · exact ⟨t, hmine⟩
    · obtain ⟨u, hguard⟩ := h.held guard hheld
      have hu : u ≠ t := fun heq => hother (heq ▸ hguard)
      exact ⟨u, (hstep.others u hu).symm ▸ hguard⟩
  · intro u p hp
    by_cases hu : u = t
    · subst hu
      exact hstep.named p hp
    · rw [hstep.others u hu] at hp
      have hguard : p.2 ∈ (l.threads u).guards :=
        List.mem_append_left _ (List.mem_map_of_mem hp)
      exact hstep.stays p.2 (h.named u p hp) fun hmine => hu (h.alone u t p.2 hguard hmine)

/-! ## The thread that moves -/

theorem threads_setThread_self (l : Ledger) (t : Nat) (thread : Thread) :
    (l.setThread t thread).threads t = thread :=
  if_pos rfl

theorem threads_setThread_of_ne {u : Nat} (h : u ≠ t) (l : Ledger) (thread : Thread) :
    (l.setThread t thread).threads u = l.threads u :=
  if_neg h

theorem threads_enter_self (l : Ledger) (t : Nat) (name : String) :
    (l.move t (.enter name)).1.threads t = (l.threads t).keep name l.guards.length :=
  threads_setThread_self _ _ _

theorem threads_visit_self (l : Ledger) (t : Nat) :
    (l.move t .visit).1.threads t =
      { l.threads t with dropping := l.guards.length :: (l.threads t).dropping } :=
  threads_setThread_self _ _ _

theorem threads_leave_self {name : String} {found : Guard}
    (h : l.find? t name = some (guard, found)) :
    (l.move t (.leave name)).1.threads t = (l.threads t).giveUp name := by
  rw [move, h]
  exact threads_setThread_self _ _ _

theorem threads_discard_self {name : String} {found : Guard}
    (h : l.find? t name = some (guard, found)) :
    (l.move t (.discard name)).1.threads t = (l.threads t).giveUp name := by
  rw [move, h]
  exact threads_setThread_self _ _ _

theorem threads_abandon_self (l : Ledger) (t : Nat) :
    (l.move t .abandon).1.threads t = (l.threads t).giveUpAll :=
  threads_setThread_self _ _ _

theorem threads_drop_self {rest : List Nat} (h : (l.threads t).dropping = guard :: rest) :
    (l.move t .drop).1.threads t = { l.threads t with dropping := rest } := by
  rw [move, h]
  exact threads_setThread_self _ _ _

/-! ## Three kinds of moves -/

theorem threads_release (l : Ledger) (guard : Nat) : (l.release guard).threads = l.threads := by
  rw [release]
  split <;> rfl

theorem length_release (l : Ledger) (guard : Nat) :
    (l.release guard).guards.length = l.guards.length := by
  rw [release]
  split <;> simp

theorem isHeld_enter_iff : l.enter.IsHeld g ↔ l.IsHeld g ∨ g = l.guards.length := by
  rw [IsHeld, IsHeld, standing, standing, enter]
  rcases Nat.lt_trichotomy g l.guards.length with hlt | rfl | hgt
  · rw [List.getElem?_append_left hlt]
    constructor
    · exact Or.inl
    · rintro (h | rfl)
      · exact h
      · exact absurd hlt (Nat.lt_irrefl _)
  · simp
  · rw [List.getElem?_eq_none (by simp; omega), List.getElem?_eq_none (Nat.le_of_lt hgt)]
    simp
    omega

/-- To release one guard leaves the others as they stand. -/
theorem standing_release_of_ne (h : g ≠ guard) :
    (l.release guard).standing g = l.standing g := by
  rw [release]
  split
  · rw [standing, standing, List.getElem?_set_ne (Ne.symm h)]
  · rfl

theorem isHeld_release_iff : (l.release guard).IsHeld g ↔ l.IsHeld g ∧ g ≠ guard := by
  by_cases h : g = guard
  · subst h
    simp [not_isHeld_release]
  · rw [IsHeld, standing_release_of_ne h]
    exact (and_iff_left h).symm

/-- The thread opens a guard and has it. -/
theorem InHands.opened (h : l.InHands)
    (hguards : thread.guards.Perm (l.guards.length :: (l.threads t).guards))
    (hnames : (thread.named.map (·.1)).Nodup)
    (hnamed : ∀ p ∈ thread.named, p ∈ (l.threads t).named ∨ p.2 = l.guards.length) :
    (l.enter.setThread t thread).InHands := by
  have hself := threads_setThread_self l.enter t thread
  have hheld : ∀ g, (l.enter.setThread t thread).IsHeld g ↔ l.IsHeld g ∨ g = l.guards.length :=
    fun g => isHeld_enter_iff
  have hlength : (l.enter.setThread t thread).guards.length = l.guards.length + 1 :=
    List.length_append
  have hnew : l.guards.length ∉ (l.threads t).guards := fun hmem =>
    Nat.lt_irrefl _ (h.made t _ hmem)
  refine h.handed (t := t) ⟨?_, ?_, ?_, ?_, ?_, ?_, ?_, ?_⟩
  · exact fun u hu => threads_setThread_of_ne hu l.enter thread
  · omega
  · intro g hg
    rw [hself] at hg
    rcases List.mem_cons.1 (hguards.mem_iff.1 hg) with rfl | hold
    · exact ⟨by omega, Or.inr (Nat.le_refl _)⟩
    · have := h.made t g hold
      exact ⟨by omega, Or.inl hold⟩
  · rw [hself]
    exact hnames
  · rw [hself, hguards.nodup_iff, List.nodup_cons]
    exact ⟨hnew, h.nodup t⟩
  · intro g hg
    rw [hself, hguards.mem_iff, List.mem_cons]
    rcases (hheld g).1 hg with hold | rfl
    · by_cases hmine : g ∈ (l.threads t).guards
      · exact Or.inl (Or.inr hmine)
      · exact Or.inr ⟨hold, hmine⟩
    · exact Or.inl (Or.inl rfl)
  · intro p hp
    rw [hself] at hp
    rw [hheld]
    exact (hnamed p hp).imp (h.named t p) id
  · exact fun g hg _ => (hheld g).2 (Or.inl hg)

/-- The thread releases a guard of its own, which has no name afterwards. -/
theorem InHands.released (h : l.InHands) (hguard : guard ∈ (l.threads t).guards)
    (hsubset : thread.guards ⊆ (l.threads t).guards)
    (hrest : ∀ g ∈ (l.threads t).guards, g = guard ∨ g ∈ thread.guards)
    (hnames : (thread.named.map (·.1)).Nodup) (hnodup : thread.guards.Nodup)
    (hnamed : ∀ p ∈ thread.named, p ∈ (l.threads t).named ∧ p.2 ≠ guard) :
    ((l.release guard).setThread t thread).InHands := by
  have hself := threads_setThread_self (l.release guard) t thread
  have hheld : ∀ g, ((l.release guard).setThread t thread).IsHeld g ↔ l.IsHeld g ∧ g ≠ guard :=
    fun g => isHeld_release_iff
  have hlength : ((l.release guard).setThread t thread).guards.length = l.guards.length :=
    length_release l guard
  refine h.handed (t := t) ⟨?_, ?_, ?_, ?_, ?_, ?_, ?_, ?_⟩
  · intro u hu
    rw [threads_setThread_of_ne hu, threads_release]
  · omega
  · intro g hg
    rw [hself] at hg
    rw [hlength]
    exact ⟨h.made t g (hsubset hg), Or.inl (hsubset hg)⟩
  · rw [hself]
    exact hnames
  · rw [hself]
    exact hnodup
  · intro g hg
    obtain ⟨hold, hne⟩ := (hheld g).1 hg
    rw [hself]
    by_cases hmine : g ∈ (l.threads t).guards
    · exact Or.inl ((hrest g hmine).resolve_left hne)
    · exact Or.inr ⟨hold, hmine⟩
  · intro p hp
    rw [hself] at hp
    exact (hheld p.2).2 ⟨h.named t p (hnamed p hp).1, (hnamed p hp).2⟩
  · intro g hg hother
    refine (hheld g).2 ⟨hg, ?_⟩
    rintro rfl
    exact hother hguard

/-- The thread puts its guards elsewhere. -/
theorem InHands.moved (h : l.InHands) (hguards : thread.guards.Perm (l.threads t).guards)
    (hnames : (thread.named.map (·.1)).Nodup)
    (hnamed : ∀ p ∈ thread.named, p ∈ (l.threads t).named) :
    (l.setThread t thread).InHands := by
  have hself := threads_setThread_self l t thread
  refine h.handed (t := t) ⟨?_, ?_, ?_, ?_, ?_, ?_, ?_, ?_⟩
  · exact fun u hu => threads_setThread_of_ne hu l thread
  · exact Nat.le_refl _
  · intro g hg
    rw [hself, hguards.mem_iff] at hg
    exact ⟨h.made t g hg, Or.inl hg⟩
  · rw [hself]
    exact hnames
  · rw [hself]
    exact hguards.nodup_iff.2 (h.nodup t)
  · intro g hg
    rw [hself, hguards.mem_iff]
    by_cases hmine : g ∈ (l.threads t).guards
    · exact Or.inl hmine
    · exact Or.inr ⟨hg, hmine⟩
  · intro p hp
    rw [hself] at hp
    exact h.named t p (hnamed p hp)
  · exact fun g hg _ => hg

/-! ## Every move -/

/-- A thread that has a guard under a name finds it. -/
theorem InHands.find?_eq (h : l.InHands) {name : String} (hname : l.named? t name = some guard) :
    ∃ opened, l.find? t name = some (guard, ⟨opened, true⟩) := by
  obtain ⟨⟨opened, held⟩, hg, hheld⟩ :=
    Option.map_eq_some_iff.1 (h.named t (name, guard) (mem_of_lookup hname))
  obtain rfl : held = true := hheld
  refine ⟨opened, ?_⟩
  rw [find?, show (l.threads t).named.lookup name = some guard from hname, Option.bind_some, hg]
  rfl

theorem named?_of_find? {name : String} {g : Guard} (h : l.find? t name = some (guard, g)) :
    l.named? t name = some guard := by
  obtain ⟨k, hk, hfound⟩ := Option.bind_eq_some_iff.1 h
  obtain ⟨_, _, heq⟩ := Option.map_eq_some_iff.1 hfound
  cases heq
  exact hk

/-- No other name of a thread is one of the same guard. -/
theorem InHands.ne_of_mem_giveUp (h : l.InHands) {name : String}
    (hname : l.named? t name = some guard) :
    ∀ p ∈ ((l.threads t).giveUp name).named, p ∈ (l.threads t).named ∧ p.2 ≠ guard := by
  intro p hp
  obtain ⟨hmem, hne⟩ := List.mem_filter.1 hp
  refine ⟨hmem, fun heq => ?_⟩
  have hnodup : ((l.threads t).named.map (·.2)).Nodup := (List.nodup_append.1 (h.nodup t)).1
  have hsame : p = (name, guard) := List.inj_on_of_nodup_map hnodup hmem (mem_of_lookup hname) heq
  simp [hsame] at hne

theorem inHands_move (h : l.InHands) (t : Nat) (m : Move) : (l.move t m).1.InHands := by
  cases m with
  | enter name =>
    refine h.opened (Thread.guards_keep_perm _ _ _) (Thread.nodup_names_keep _ _ (h.names t) _) ?_
    intro p hp
    rcases List.mem_cons.1 hp with rfl | hp
    · exact Or.inr rfl
    · exact Or.inl (List.mem_filter.1 hp).1
  | visit =>
    exact h.opened List.perm_middle (h.names t) fun p hp => Or.inl hp
  | leave name =>
    rw [move]
    split
    · rename_i guard g hfound
      have hname := named?_of_find? hfound
      have hperm := Thread.guards_giveUp_perm (l.threads t) name
      refine h.released ?_ hperm.subset (fun g hg => Or.inr (hperm.mem_iff.2 hg))
        (Thread.nodup_names_giveUp _ _ (h.names t)) (hperm.nodup_iff.2 (h.nodup t))
        (h.ne_of_mem_giveUp hname)
      exact List.mem_append_left _ (List.mem_map_of_mem (mem_of_lookup hname))
    · exact h
  | discard name =>
    rw [move]
    split
    · exact h.moved (Thread.guards_giveUp_perm _ _) (Thread.nodup_names_giveUp _ _ (h.names t))
        fun p hp => (List.mem_filter.1 hp).1
    · exact h
  | abandon =>
    exact h.moved (List.Perm.refl _) List.nodup_nil fun p hp => absurd hp List.not_mem_nil
  | drop =>
    rw [move]
    split
    · exact h
    · rename_i guard rest hdue
      have hguards : (l.threads t).guards = (l.threads t).named.map (·.2) ++ guard :: rest := by
        rw [Thread.guards, hdue]
      have hnodup := h.nodup t
      rw [hguards, List.nodup_middle, List.nodup_cons] at hnodup
      refine h.released (hguards ▸ List.mem_append_right _ List.mem_cons_self) ?_ ?_ (h.names t)
        hnodup.2 ?_
      · intro g hg
        rw [hguards, List.mem_append, List.mem_cons]
        rcases List.mem_append.1 hg with hg | hg
        · exact Or.inl hg
        · exact Or.inr (Or.inr hg)
      · intro g hg
        rw [hguards, List.perm_middle.mem_iff] at hg
        exact List.mem_cons.1 hg
      · intro p hp
        refine ⟨hp, fun heq => hnodup.1 ?_⟩
        exact heq ▸ List.mem_append_left _ (List.mem_map_of_mem hp)
  | entered | snapshot | active | max | report =>
    rw [move_eq_self_of_isRead rfl]
    exact h

theorem inHands_empty : empty.InHands := by
  constructor
  · exact fun t guard hguard => nomatch hguard
  · exact fun t => List.nodup_nil
  · exact fun t => List.nodup_nil
  · exact fun t u guard hguard => nomatch hguard
  · exact fun guard hheld => nomatch hheld
  · exact fun t p hp => nomatch hp

end Hands

end Ledger

end WebSocketEcho
