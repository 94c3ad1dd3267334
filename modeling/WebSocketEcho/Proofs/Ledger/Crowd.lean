import Mathlib.Data.List.Nodup
import Mathlib.Data.List.Perm.Basic
import WebSocketEcho.Proofs.Ledger.Saturation

/-!
# A crowd of threads

Some threads open a guard each, then all of them close it again, and everybody else only reads.
However the moves interleave, the openings see successive counts, each guard tells its own whenever
it is asked, and the closings count down again to where the crowd began (`crowd_counted`).

The members of a crowd are listed in the order in which they open, which may be any.  `Gathered`
follows the openings: the guards of the crowd are those behind the old ones, in that order.
`Dispersing` follows the closings, in any order of their own, down to the last member.
-/

namespace WebSocketEcho.Ledger

/-- A thread of a crowd, with the name that it keeps its guard under. -/
abbrev Member := Nat × String

/-- The moves that close a guard. -/
def Move.closes : Move → Bool
  | .leave _ => true
  | _ => false

/-- The members of a crowd open a guard each, in this order, and then close it in any order.  All
other moves are reads, and drops of what was closed. -/
structure Crowd (l : Ledger) (members : List Member) (arriving leaving : List (Nat × Move)) :
    Prop where
  distinct : (members.map (·.1)).Nodup
  arrives : ∀ e ∈ arriving, e.2.isRead = true ∨ e.2.opens = true
  arrivals : arriving.filter (·.2.opens) = members.map fun p => (p.1, .enter p.2)
  leaves : ∀ e ∈ leaving, e.2.isRead = true ∨ e.2.closes = true ∨
    e.2 = .drop ∧ e.1 ∈ members.map (·.1)
  departures : (leaving.filter (·.2.closes)).Perm (members.map fun p => (p.1, .leave p.2))
  /-- Whatever else a member drops was released before. -/
  tidy : ∀ p ∈ members, (p.1, .drop) ∈ leaving →
    ∀ guard ∈ ((l.threads p.1).giveUp p.2).dropping, l.IsReleased guard

/-- What the moves of some kind in a schedule are answered, in their order. -/
def answersTo (asked : Move → Bool) (l : Ledger) : List (Nat × Move) → List Answer
  | [] => []
  | e :: rest =>
    let (l', answer) := l.move e.1 e.2
    if asked e.2 then answer :: answersTo asked l' rest else answersTo asked l' rest

/-- The counters with this count and this peak. -/
def numbers (count peak : Nat) : Counters := ⟨.ofNat count, .ofNat peak⟩

/-- The counters after `i` more openings. -/
def grown (l : Ledger) (i : Nat) : Counters :=
  numbers (l.counters.active.toNat + i)
    (max l.counters.max.toNat (l.counters.active.toNat + i))

/-- The counters when, of `n` more sessions, all but `i` are closed again. -/
def dwindled (l : Ledger) (n i : Nat) : Counters :=
  numbers (l.counters.active.toNat + i)
    (max l.counters.max.toNat (l.counters.active.toNat + n))

/-- A guard tells these counters whenever it is asked, whatever anybody does in between. -/
def AlwaysTells (l : Ledger) (guard : Nat) (c : Counters) : Prop :=
  ∀ later, (∃ held, (l.run later).guards[guard]? = some ⟨c, held⟩) ∧
    ∀ t name g, (l.run later).find? t name = some (guard, g) →
      ((l.run later).move t (.entered name)).2 = .counters c

/-- The count that the guard of a member has seen. -/
def countOf (l : Ledger) (p : Member) : Option Nat :=
  (l.find? p.1 p.2).map fun found => found.2.opened.active.toNat

variable {l l₀ : Ledger} {c : Counters} {p q : Member} {came todo members : List Member}
  {arriving leaving : List (Nat × Move)}

/-! ## Answers and numbers -/

theorem answersTo_cons_of_pos {asked : Move → Bool} {e : Nat × Move} {rest : List (Nat × Move)}
    (h : asked e.2 = true) :
    l.answersTo asked (e :: rest) =
      (l.move e.1 e.2).2 :: (l.move e.1 e.2).1.answersTo asked rest :=
  if_pos h

theorem answersTo_cons_of_neg {asked : Move → Bool} {e : Nat × Move} {rest : List (Nat × Move)}
    (h : asked e.2 = false) :
    l.answersTo asked (e :: rest) = (l.move e.1 e.2).1.answersTo asked rest :=
  if_neg (Bool.not_eq_true _ ▸ h)

theorem eq_numbers {count peak : Nat} (h : c.Tells count peak) : c = numbers count peak := by
  obtain ⟨rfl, rfl⟩ := h
  rw [numbers, UInt64.ofNat_toNat, UInt64.ofNat_toNat]

theorem tells_numbers {count peak : Nat} (hcount : count < 2 ^ 64) (hpeak : peak < 2 ^ 64) :
    (numbers count peak).Tells count peak :=
  ⟨UInt64.toNat_ofNat_of_lt hcount, UInt64.toNat_ofNat_of_lt hpeak⟩

/-! ## Names -/

/-- A name that is kept is the name of one guard. -/
theorem filter_keep (t : Thread) (name : String) (guard : Nat) :
    (t.keep name guard).named.filter (·.1 == name) = [(name, guard)] := by
  have hnone : (t.named.filter (·.1 != name)).filter (·.1 == name) = [] := by
    rw [List.filter_eq_nil_iff]
    intro q hq heq
    have hne := (List.mem_filter.1 hq).2
    rw [beq_iff_eq] at heq
    simp [heq] at hne
  show List.filter (·.1 == name) ((name, guard) :: t.named.filter (·.1 != name)) = _
  rw [List.filter_cons_of_pos (by simp), hnone]

theorem lookup_of_filter {named : List (String × Nat)} {name : String} {guard : Nat}
    (h : named.filter (·.1 == name) = [(name, guard)]) : named.lookup name = some guard := by
  induction named with
  | nil => cases h
  | cons q named ih =>
    obtain ⟨other, k⟩ := q
    rw [List.lookup_cons]
    by_cases heq : other = name
    · subst heq
      rw [List.filter_cons_of_pos (by simp)] at h
      cases (List.cons.inj h).1
      simp
    · rw [List.filter_cons_of_neg (by simpa using heq)] at h
      rw [show (name == other) = false from beq_eq_false_iff_ne.2 (Ne.symm heq)]
      exact ih h

theorem find?_of_filter {t : Nat} {name : String} {guard : Nat} {g : Guard}
    (h : (l.threads t).named.filter (·.1 == name) = [(name, guard)])
    (hg : l.guards[guard]? = some g) : l.find? t name = some (guard, g) := by
  rw [find?, lookup_of_filter h, Option.bind_some, hg]
  rfl

/-! ## What a guard tells -/

/-- Nothing that is done to a ledger changes what a guard has seen. -/
theorem Shift.guard_opened {l l' : Ledger} {m : Move} (h : Shift l m l') {guard : Nat} {g : Guard}
    (hg : l.guards[guard]? = some g) : ∃ held, l'.guards[guard]? = some ⟨g.opened, held⟩ := by
  have hlt : guard < l.guards.length := (List.getElem?_eq_some_iff.1 hg).1
  cases h with
  | opened _ _ hguards =>
    rw [hguards, List.getElem?_append_left hlt]
    exact ⟨g.held, hg⟩
  | released _ k opened hheld _ hguards =>
    by_cases hk : k = guard
    · subst hk
      rw [hguards, List.getElem?_set_self hlt]
      obtain rfl : g = ⟨opened, true⟩ := Option.some.inj (hg.symm.trans hheld)
      exact ⟨false, rfl⟩
    · rw [hguards, List.getElem?_set_ne hk]
      exact ⟨g.held, hg⟩
  | kept _ _ hguards =>
    rw [hguards]
    exact ⟨g.held, hg⟩

theorem guard_opened_run {guard : Nat} {g : Guard} (hg : l.guards[guard]? = some g)
    (later : List (Nat × Move)) :
    ∃ held, (l.run later).guards[guard]? = some ⟨g.opened, held⟩ := by
  induction later generalizing l g with
  | nil => exact ⟨g.held, hg⟩
  | cons e later ih =>
    obtain ⟨held, hmoved⟩ := (shift_move l e.1 e.2).guard_opened hg
    exact ih (g := ⟨g.opened, held⟩) hmoved

theorem alwaysTells_of_guard {guard : Nat} {g : Guard} (hg : l.guards[guard]? = some g) :
    l.AlwaysTells guard g.opened := by
  intro later
  obtain ⟨held, hlater⟩ := guard_opened_run hg later
  refine ⟨⟨held, hlater⟩, fun t name found hfound => ?_⟩
  obtain ⟨k, _, hk⟩ := Option.bind_eq_some_iff.1 hfound
  obtain ⟨g', hg', heq⟩ := Option.map_eq_some_iff.1 hk
  cases heq
  rw [hlater] at hg'
  cases hg'
  rw [move, hfound]

/-! ## Arriving -/

/-- Where the guard of a member stands. -/
def place (l₀ : Ledger) (members : List Member) (p : Member) : Nat :=
  l₀.guards.length + members.idxOf p

/-- Some members of the crowd have opened their guards, which stand behind the old ones. -/
structure Gathered (l₀ l : Ledger) (leaving : List (Nat × Move)) (came : List Member) : Prop where
  tells : l.counters.Tells (l₀.counters.active.toNat + came.length)
    (max l₀.counters.max.toNat (l₀.counters.active.toNat + came.length))
  guards : l.guards = l₀.guards ++ (List.range came.length).map fun i => ⟨l₀.grown (i + 1), true⟩
  named : ∀ p ∈ came, (l.threads p.1).named.filter (·.1 == p.2) = [(p.2, l₀.place came p)]
  tidy : ∀ p ∈ came, (p.1, .drop) ∈ leaving →
    ∀ guard ∈ (l.threads p.1).dropping, l.IsReleased guard
  others : ∀ t ∉ came.map (·.1), l.threads t = l₀.threads t

theorem place_append_of_mem (h : p ∈ came) : l₀.place (came ++ [q]) p = l₀.place came p := by
  rw [place, place, List.idxOf_append_of_mem h]

theorem place_concat (h : p ∉ came) :
    l₀.place (came ++ [p]) p = l₀.guards.length + came.length := by
  rw [place, List.idxOf_append_of_notMem h, List.idxOf_cons_self, Nat.add_zero]

/-- What was released before the crowd came stays so while it gathers. -/
theorem Gathered.isReleased (h : Gathered l₀ l leaving came) {guard : Nat}
    (hguard : l₀.IsReleased guard) : l.IsReleased guard := by
  obtain ⟨g, hg, _⟩ := Option.map_eq_some_iff.1 hguard
  rw [IsReleased, standing, h.guards,
    List.getElem?_append_left (List.getElem?_eq_some_iff.1 hg).1]
  exact hguard

theorem gathered_nil (h : l₀.Modest) (leaving : List (Nat × Move)) :
    Gathered l₀ l₀ leaving [] := by
  constructor
  · exact ⟨rfl, (Nat.max_eq_left h.active_le_max).symm⟩
  · exact (List.append_nil _).symm
  · exact fun p hp => nomatch hp
  · exact fun p hp => nomatch hp
  · exact fun t _ => rfl

/-- The next member opens its guard. -/
theorem Gathered.enter (h : Gathered l₀ l leaving came)
    (hp : p.1 ∉ came.map (·.1))
    (htidy : (p.1, .drop) ∈ leaving →
      ∀ guard ∈ ((l₀.threads p.1).giveUp p.2).dropping, l₀.IsReleased guard)
    (hroom : l₀.counters.active.toNat + came.length + 1 < 2 ^ 64) :
    Gathered l₀ (l.move p.1 (.enter p.2)).1 leaving (came ++ [p]) ∧
      (l.move p.1 (.enter p.2)).2 = .counters (l₀.grown (came.length + 1)) := by
  have htells : l.counters.enter.Tells (l₀.counters.active.toNat + (came.length + 1))
      (max l₀.counters.max.toNat (l₀.counters.active.toNat + (came.length + 1))) := by
    obtain ⟨hactive, hmax⟩ := h.tells.enter hroom
    refine ⟨hactive, hmax.trans ?_⟩
    show max (max _ _) _ = _
    omega
  have hlength : l.guards.length = l₀.guards.length + came.length := by
    rw [h.guards, List.length_append, List.length_map, List.length_range]
  have hnotMem : p ∉ came := fun hmem => hp (List.mem_map_of_mem hmem)
  have hself : (l.move p.1 (.enter p.2)).1.threads p.1 =
      (l₀.threads p.1).keep p.2 l.guards.length := by
    rw [← h.others p.1 hp]
    exact threads_enter_self l p.1 p.2
  have hothers : ∀ t ≠ p.1, (l.move p.1 (.enter p.2)).1.threads t = l.threads t :=
    fun t ht => threads_move_of_ne l ht _
  refine ⟨⟨?_, ?_, ?_, ?_, ?_⟩, congrArg Answer.counters (eq_numbers htells)⟩
  · rw [List.length_append, List.length_singleton]
    exact htells
  · show l.guards ++ [⟨l.counters.enter, true⟩] = _
    rw [h.guards, eq_numbers htells, List.length_append, List.length_singleton, List.range_succ,
      List.map_append, List.append_assoc]
    rfl
  · intro q hq
    rcases List.mem_append.1 hq with hq | hq
    · have hne : q.1 ≠ p.1 := fun heq => hp (heq ▸ List.mem_map_of_mem hq)
      rw [hothers _ hne, place_append_of_mem hq]
      exact h.named q hq
    · obtain rfl := List.mem_singleton.1 hq
      rw [hself, filter_keep, place_concat hnotMem, hlength]
  · intro q hq hdrop guard hguard
    refine isReleased_move ?_ p.1 (.enter p.2)
    rcases List.mem_append.1 hq with hq | hq
    · have hne : q.1 ≠ p.1 := fun heq => hp (heq ▸ List.mem_map_of_mem hq)
      rw [hothers _ hne] at hguard
      exact h.tidy q hq hdrop guard hguard
    · obtain rfl := List.mem_singleton.1 hq
      rw [hself] at hguard
      exact h.isReleased (htidy hdrop guard hguard)
  · intro t ht
    simp only [List.map_append, List.mem_append, List.map_cons, List.map_nil, List.mem_singleton,
      not_or] at ht
    rw [hothers t ht.2, h.others t ht.1]

/-- Everybody who is still to come opens a guard, with any reads in between. -/
theorem Gathered.run (h : Gathered l₀ l leaving came)
    (harrives : ∀ e ∈ arriving, e.2.isRead = true ∨ e.2.opens = true)
    (harrivals : arriving.filter (·.2.opens) = todo.map fun p => (p.1, .enter p.2))
    (hdistinct : ((came ++ todo).map (·.1)).Nodup)
    (htidy : ∀ p ∈ todo, (p.1, .drop) ∈ leaving →
      ∀ guard ∈ ((l₀.threads p.1).giveUp p.2).dropping, l₀.IsReleased guard)
    (hroom : l₀.counters.active.toNat + (came.length + todo.length) < 2 ^ 64) :
    Gathered l₀ (l.run arriving) leaving (came ++ todo) ∧
      l.answersTo Move.opens arriving =
        (List.range' came.length todo.length).map fun i => .counters (l₀.grown (i + 1)) := by
  induction arriving generalizing l came todo with
  | nil =>
    obtain rfl : todo = [] := List.map_eq_nil_iff.1 harrivals.symm
    rw [List.append_nil]
    exact ⟨h, rfl⟩
  | cons e arriving ih =>
    obtain ⟨t, move⟩ := e
    obtain ⟨hfirst, hrest⟩ := List.forall_mem_cons.1 harrives
    cases hopens : move.opens with
    | false =>
      have hread : move.isRead = true := by simpa [hopens] using hfirst
      rw [List.filter_cons_of_neg (by simp [hopens])] at harrivals
      have hself := move_eq_self_of_isRead hread l t
      rw [← hself] at h
      obtain ⟨hgathered, hopenings⟩ := ih h hrest harrivals hdistinct htidy hroom
      exact ⟨hgathered, (answersTo_cons_of_neg (e := (t, move)) hopens).trans hopenings⟩
    | true =>
      rw [List.filter_cons_of_pos (by simp [hopens])] at harrivals
      cases todo with
      | nil => cases harrivals
      | cons p todo =>
        rw [List.map_cons, List.cons.injEq, Prod.mk.injEq] at harrivals
        obtain ⟨⟨rfl, rfl⟩, harrivals⟩ := harrivals
        have hp : p.1 ∉ came.map (·.1) := by
          rw [List.map_append, List.nodup_append] at hdistinct
          exact fun hmem => hdistinct.2.2 _ hmem _ (by simp) rfl
        rw [List.length_cons] at hroom
        obtain ⟨hentered, hanswer⟩ := h.enter hp (htidy p List.mem_cons_self) (by omega)
        obtain ⟨hgathered, hopenings⟩ := ih hentered hrest harrivals
          (by rw [List.append_assoc]; exact hdistinct)
          (fun q hq => htidy q (List.mem_cons_of_mem _ hq))
          (by rw [List.length_append, List.length_singleton]; omega)
        refine ⟨?_, ?_⟩
        · rw [List.append_cons]
          exact hgathered
        · rw [answersTo_cons_of_pos rfl, hanswer, List.length_cons, List.range'_succ,
            List.map_cons]
          rw [List.length_append, List.length_singleton] at hopenings
          exact congrArg _ hopenings

/-! ## Leaving -/

/-- Some members of the crowd still hold their guards.  What the others may have to drop was
released. -/
structure Dispersing (l₀ l : Ledger) (leaving : List (Nat × Move))
    (members staying : List Member) : Prop where
  tells : l.counters.Tells (l₀.counters.active.toNat + staying.length)
    (max l₀.counters.max.toNat (l₀.counters.active.toNat + members.length))
  named : ∀ p ∈ staying, (l.threads p.1).named.filter (·.1 == p.2) = [(p.2, l₀.place members p)]
  held : ∀ p ∈ staying, l.IsHeld (l₀.place members p)
  tidy : ∀ p ∈ members, (p.1, .drop) ∈ leaving →
    ∀ guard ∈ (l.threads p.1).dropping, l.IsReleased guard

theorem place_getElem {i : Nat} (hi : i < members.length) (hnodup : members.Nodup) :
    l₀.place members members[i] = l₀.guards.length + i := by
  rw [place, hnodup.idxOf_getElem i hi]

theorem Gathered.guard_eq (h : Gathered l₀ l leaving members) {i : Nat}
    (hi : i < members.length) :
    l.guards[l₀.guards.length + i]? = some ⟨l₀.grown (i + 1), true⟩ := by
  rw [h.guards, List.getElem?_append_right (by omega), Nat.add_sub_cancel_left]
  simp [hi]

/-- A crowd that has gathered can disperse, in any order. -/
theorem Gathered.dispersing (h : Gathered l₀ l leaving members) (hnodup : members.Nodup)
    {staying : List Member} (hperm : staying.Perm members) :
    Dispersing l₀ l leaving members staying := by
  constructor
  · rw [hperm.length_eq]
    exact h.tells
  · exact fun p hp => h.named p (hperm.mem_iff.1 hp)
  · intro p hp
    obtain ⟨i, hi, rfl⟩ := List.getElem_of_mem (hperm.mem_iff.1 hp)
    rw [IsHeld, standing, place_getElem hi hnodup, h.guard_eq hi]
    rfl
  · exact h.tidy

/-- A member closes its guard. -/
theorem Dispersing.leave {staying : List Member}
    (h : Dispersing l₀ l leaving members (p :: staying))
    (hdistinct : ((p :: staying).map (·.1)).Nodup)
    (hmembers : ∀ q ∈ p :: staying, q ∈ members) :
    Dispersing l₀ (l.move p.1 (.leave p.2)).1 leaving members staying ∧
      (l.move p.1 (.leave p.2)).2 =
        .counters (l₀.dwindled members.length staying.length) := by
  have hne : ∀ q ∈ staying, q.1 ≠ p.1 := by
    intro q hq heq
    exact (List.nodup_cons.1 hdistinct).1 (List.mem_map.2 ⟨q, hq, heq⟩)
  obtain ⟨⟨opened, held⟩, hguard, hheld⟩ :=
    Option.map_eq_some_iff.1 (h.held p List.mem_cons_self)
  obtain rfl : held = true := hheld
  have hfound := find?_of_filter (h.named p List.mem_cons_self) hguard
  have htells : l.counters.leave.Tells (l₀.counters.active.toNat + staying.length)
      (max l₀.counters.max.toNat (l₀.counters.active.toNat + members.length)) :=
    h.tells.leave
  have hothers : ∀ t ≠ p.1, (l.move p.1 (.leave p.2)).1.threads t = l.threads t :=
    fun t ht => threads_move_of_ne l ht _
  refine ⟨⟨?_, ?_, ?_, ?_⟩, ?_⟩
  · rw [move, hfound]
    show Counters.Tells (l.release _).counters _ _
    rw [release_eq_of_held hguard]
    exact htells
  · intro q hq
    rw [hothers _ (hne q hq)]
    exact h.named q (List.mem_cons_of_mem _ hq)
  · intro q hq
    have hplace : l₀.place members q ≠ l₀.place members p := by
      intro heq
      have hsame : q = p := (List.idxOf_inj (hmembers q (List.mem_cons_of_mem _ hq))).1
        (Nat.add_left_cancel heq)
      exact hne q hq (congrArg Prod.fst hsame)
    rw [move, hfound]
    show (l.release _).standing _ = _
    rw [standing_release_of_ne hplace]
    exact h.held q (List.mem_cons_of_mem _ hq)
  · intro q hq hdrop guard hg
    by_cases heq : q.1 = p.1
    · have hthread : ((l.move p.1 (.leave p.2)).1.threads q.1).dropping =
          l₀.place members p :: (l.threads q.1).dropping := by
        rw [heq, threads_leave_self hfound, Thread.giveUp, h.named p List.mem_cons_self]
        rfl
      rw [hthread] at hg
      rcases List.mem_cons.1 hg with rfl | hg
      · exact isReleased_leave hfound
      · exact isReleased_move (h.tidy q hq hdrop guard hg) _ _
    · rw [hothers _ heq] at hg
      exact isReleased_move (h.tidy q hq hdrop guard hg) _ _
  · rw [move, hfound, dwindled, ← eq_numbers htells]
    rfl

/-- A member drops the next guard that is due, which was released. -/
theorem Dispersing.drop {staying : List Member} (h : Dispersing l₀ l leaving members staying)
    (hp : p ∈ members) (hdrop : (p.1, .drop) ∈ leaving) :
    Dispersing l₀ (l.move p.1 .drop).1 leaving members staying := by
  cases hdue : (l.threads p.1).dropping with
  | nil =>
    rw [move, hdue]
    exact h
  | cons guard due =>
    have hreleased : l.IsReleased guard := h.tidy p hp hdrop guard (hdue ▸ List.mem_cons_self)
    have hnotHeld : ¬ l.IsHeld guard := by
      rw [IsHeld, hreleased]
      decide
    have hmove : (l.move p.1 .drop).1 =
        l.setThread p.1 { l.threads p.1 with dropping := due } := by
      rw [move, hdue]
      show (l.release guard).setThread _ _ = _
      rw [release_eq_self hnotHeld]
    have hthread : ∀ q : Member,
        ((l.move p.1 .drop).1.threads q.1).named = (l.threads q.1).named ∧
          ∀ k ∈ ((l.move p.1 .drop).1.threads q.1).dropping, k ∈ (l.threads q.1).dropping := by
      intro q
      by_cases heq : q.1 = p.1
      · rw [hmove, heq, setThread]
        simp only [if_true]
        refine ⟨trivial, fun k hk => ?_⟩
        rw [hdue]
        exact List.mem_cons_of_mem _ hk
      · rw [threads_move_of_ne l heq]
        exact ⟨rfl, fun k hk => hk⟩
    constructor
    · rw [hmove]
      exact h.tells
    · intro q hq
      rw [(hthread q).1]
      exact h.named q hq
    · rw [hmove]
      exact h.held
    · intro q hq hqdrop k hk
      exact isReleased_move (h.tidy q hq hqdrop k ((hthread q).2 k hk)) _ _

/-- Everybody who is still there closes a guard, with any reads and drops in between. -/
theorem Dispersing.run {staying : List Member} {more : List (Nat × Move)}
    (h : Dispersing l₀ l leaving members staying)
    (hmore : ∀ e ∈ more, e ∈ leaving ∧
      (e.2.isRead = true ∨ e.2.closes = true ∨ e.2 = .drop ∧ e.1 ∈ members.map (·.1)))
    (hleaves : more.filter (·.2.closes) = staying.map fun p => (p.1, .leave p.2))
    (hdistinct : (staying.map (·.1)).Nodup) (hmembers : ∀ q ∈ staying, q ∈ members) :
    Dispersing l₀ (l.run more) leaving members [] ∧
      l.answersTo Move.closes more = (List.range staying.length).reverse.map fun i =>
        .counters (l₀.dwindled members.length i) := by
  induction more generalizing l staying with
  | nil =>
    obtain rfl : staying = [] := List.map_eq_nil_iff.1 hleaves.symm
    exact ⟨h, rfl⟩
  | cons e more ih =>
    obtain ⟨t, m⟩ := e
    obtain ⟨⟨hmem, hkind⟩, hrest⟩ := List.forall_mem_cons.1 hmore
    cases hcloses : m.closes with
    | false =>
      rw [List.filter_cons_of_neg (by simp [hcloses])] at hleaves
      have hmoved : Dispersing l₀ (l.move t m).1 leaving members staying := by
        rcases hkind with hread | hclose | ⟨rfl, hdropper⟩
        · rw [move_eq_self_of_isRead hread]
          exact h
        · simp [hcloses] at hclose
        · obtain ⟨p, hp, rfl⟩ := List.mem_map.1 hdropper
          exact h.drop hp hmem
      obtain ⟨hrun, hclosings⟩ := ih hmoved hrest hleaves hdistinct hmembers
      exact ⟨hrun, (answersTo_cons_of_neg (e := (t, m)) hcloses).trans hclosings⟩
    | true =>
      rw [List.filter_cons_of_pos (by simp [hcloses])] at hleaves
      cases staying with
      | nil => cases hleaves
      | cons p staying =>
        rw [List.map_cons, List.cons.injEq, Prod.mk.injEq] at hleaves
        obtain ⟨⟨rfl, rfl⟩, hleaves⟩ := hleaves
        obtain ⟨hmoved, hanswer⟩ := h.leave hdistinct hmembers
        obtain ⟨hrun, hclosings⟩ := ih hmoved hrest hleaves (List.nodup_cons.1 hdistinct).2
          fun q hq => hmembers q (List.mem_cons_of_mem _ hq)
        refine ⟨hrun, ?_⟩
        rw [answersTo_cons_of_pos rfl, hanswer, List.length_cons, List.range_succ,
          List.reverse_concat, List.map_cons]
        exact congrArg _ hclosings

/-! ## The result -/

/-- What a crowd finds that comes to a ledger and goes again. -/
structure CountedInTurn (l : Ledger) (members : List Member)
    (arriving leaving : List (Nat × Move)) : Prop where
  /-- All the numbers below have room in the counters. -/
  exact : ∀ i ≤ members.length,
    (l.grown i).Tells (l.counters.active.toNat + i)
        (max l.counters.max.toNat (l.counters.active.toNat + i)) ∧
      (l.dwindled members.length i).Tells (l.counters.active.toNat + i)
        (max l.counters.max.toNat (l.counters.active.toNat + members.length))
  /-- The openings are answered in turn. -/
  opened : l.answersTo Move.opens arriving =
    (List.range members.length).map fun i => .counters (l.grown (i + 1))
  /-- The counts that the guards have seen are distinct and without a gap. -/
  counts : members.map (countOf (l.run arriving)) =
    (List.range' (l.counters.active.toNat + 1) members.length).map some
  /-- From its opening on, each guard tells the counters that this opening left. -/
  guards : ∀ i (hi : i < members.length), ∃ before rest guard,
    arriving = before ++ (members[i].1, .enter members[i].2) :: rest ∧
      ((l.run before).move members[i].1 (.enter members[i].2)).2 =
        .counters (l.grown (i + 1)) ∧
      (l.run (before ++ [(members[i].1, .enter members[i].2)])).AlwaysTells guard
        (l.grown (i + 1)) ∧
      (l.run arriving).find? members[i].1 members[i].2 = some (guard, ⟨l.grown (i + 1), true⟩)
  /-- The closings count down again. -/
  closed : (l.run arriving).answersTo Move.closes leaving =
    (List.range members.length).reverse.map fun i => .counters (l.dwindled members.length i)
  after : (l.run (arriving ++ leaving)).counters = l.dwindled members.length 0

/-- The moves of the arrivals up to the one of a member. -/
theorem exists_split_enter {i : Nat} (hi : i < members.length)
    (harrivals : arriving.filter (·.2.opens) = members.map fun p => (p.1, .enter p.2)) :
    ∃ before rest, arriving = before ++ (members[i].1, .enter members[i].2) :: rest ∧
      before.filter (·.2.opens) = (members.take i).map fun p => (p.1, .enter p.2) := by
  rw [← List.take_append_drop i members, List.map_append, List.drop_eq_getElem_cons hi,
    List.map_cons, List.filter_eq_append_iff] at harrivals
  obtain ⟨first, second, rfl, hfirst, hsecond⟩ := harrivals
  obtain ⟨between, rest, rfl, hbetween, _, _⟩ := List.filter_eq_cons_iff.1 hsecond
  refine ⟨first ++ between, rest, (List.append_assoc _ _ _).symm, ?_⟩
  rw [List.filter_append, hfirst, List.filter_eq_nil_iff.2 hbetween, List.append_nil]

/-- When its turn comes a member opens a guard that tells its count from then on. -/
theorem Crowd.opening (h : Crowd l₀ members arriving leaving) (hmodest : l₀.Modest)
    (hroom : l₀.counters.active.toNat + members.length < 2 ^ 64) {i : Nat}
    (hi : i < members.length) :
    ∃ before rest, arriving = before ++ (members[i].1, .enter members[i].2) :: rest ∧
      ((l₀.run before).move members[i].1 (.enter members[i].2)).2 =
        .counters (l₀.grown (i + 1)) ∧
      (l₀.run (before ++ [(members[i].1, .enter members[i].2)])).AlwaysTells
        (l₀.guards.length + i) (l₀.grown (i + 1)) := by
  obtain ⟨before, rest, hsplit, hbefore⟩ := exists_split_enter hi h.arrivals
  have hlength : (members.take i).length = i := List.length_take_of_le (Nat.le_of_lt hi)
  have hdistinct : ((members.take i ++ [members[i]]).map (·.1)).Nodup := by
    rw [List.take_append_getElem hi]
    exact ((List.take_sublist _ _).map _).nodup h.distinct
  rw [List.map_append, List.nodup_append] at hdistinct
  obtain ⟨hgathered, -⟩ := (gathered_nil hmodest leaving).run
    (fun e he => h.arrives e (hsplit ▸ List.mem_append_left _ he)) hbefore hdistinct.1
    (fun p hp => h.tidy p (List.mem_of_mem_take hp))
    (by rw [hlength, List.length_nil]; omega)
  rw [List.nil_append] at hgathered
  obtain ⟨hentered, hanswer⟩ := hgathered.enter (p := members[i])
    (fun hmem => hdistinct.2.2 _ hmem _ (by simp) rfl)
    (h.tidy _ (List.getElem_mem hi)) (by omega)
  rw [hlength] at hanswer
  refine ⟨before, rest, hsplit, hanswer, ?_⟩
  have hguard := hentered.guard_eq (i := i) (by simp; omega)
  rw [run_append]
  exact alwaysTells_of_guard hguard

/-- A rearranged list of images is the list of the images of a rearranged list. -/
theorem exists_perm_of_perm_map {α β : Type} {f : α → β} {images : List β} {xs : List α}
    (h : images.Perm (xs.map f)) : ∃ ys : List α, images = ys.map f ∧ ys.Perm xs := by
  have hcomp : Relation.Comp (· = List.map f ·) List.Perm images xs := by
    rw [List.eq_map_comp_perm]
    exact h
  exact hcomp

/-- Threads that open a guard each before any of them closes it, while the others read, see the
counts above the one that they found, each its own, and take them off again. -/
theorem crowd_counted (past : List (Nat × Move)) (members : List Member)
    (arriving leaving : List (Nat × Move))
    (hcrowd : Crowd (after past) members arriving leaving)
    (hroom : (after past).counters.active.toNat + members.length < 2 ^ 64) :
    CountedInTurn (after past) members arriving leaving := by
  have hnodup : members.Nodup := List.Nodup.of_map _ hcrowd.distinct
  have hpeak := (after past).counters.max.toNat_lt
  have hexact : ∀ i ≤ members.length,
      ((after past).grown i).Tells ((after past).counters.active.toNat + i)
          (max (after past).counters.max.toNat ((after past).counters.active.toNat + i)) ∧
        ((after past).dwindled members.length i).Tells ((after past).counters.active.toNat + i)
          (max (after past).counters.max.toNat
            ((after past).counters.active.toNat + members.length)) := by
    intro i hi
    exact ⟨tells_numbers (by omega) (by omega), tells_numbers (by omega) (by omega)⟩
  have hnone := gathered_nil (modest_after past) leaving
  obtain ⟨hgathered, hopenings⟩ := hnone.run hcrowd.arrives hcrowd.arrivals hcrowd.distinct
    hcrowd.tidy (by rw [List.length_nil, Nat.zero_add]; exact hroom)
  rw [List.nil_append] at hgathered
  have hfound : ∀ i (hi : i < members.length),
      ((after past).run arriving).find? members[i].1 members[i].2 =
        some ((after past).guards.length + i, ⟨(after past).grown (i + 1), true⟩) := by
    intro i hi
    have hnamed := hgathered.named members[i] (List.getElem_mem hi)
    rw [place_getElem hi hnodup] at hnamed
    exact find?_of_filter hnamed (hgathered.guard_eq hi)
  -- The closings have an order of their own, in which `staying` lists the members.
  obtain ⟨staying, hleaves, hperm⟩ := exists_perm_of_perm_map hcrowd.departures
  have hdistinct : (staying.map (·.1)).Nodup :=
    (hperm.map (·.1)).nodup_iff.2 hcrowd.distinct
  obtain ⟨hdispersed, hclosings⟩ := (hgathered.dispersing hnodup hperm).run
    (fun e he => ⟨he, hcrowd.leaves e he⟩) hleaves hdistinct fun q hq => hperm.mem_iff.1 hq
  constructor
  · exact hexact
  · rw [hopenings, List.length_nil, List.range_eq_range']
  · refine List.ext_getElem (by simp) fun i hi _ => ?_
    rw [List.length_map] at hi
    rw [List.getElem_map, List.getElem_map, countOf, hfound i hi, Option.map_some,
      (hexact (i + 1) hi).1.active, List.getElem_range']
    exact congrArg some (by omega)
  · intro i hi
    obtain ⟨before, rest, hsplit, hanswer, htells⟩ :=
      hcrowd.opening (modest_after past) hroom hi
    exact ⟨before, rest, _, hsplit, hanswer, htells, hfound i hi⟩
  · rw [hclosings, hperm.length_eq]
  · rw [run_append]
    exact eq_numbers hdispersed.tells

/-- Two threads open a guard each, and one of them closes its own. -/
def oneStayed : List (Nat × Move) :=
  [(3, .enter "a"), (4, .enter "a"), (4, .leave "a"), (4, .drop)]

/-- The closed guard of thread 4 makes room for another one of that name. -/
def threeArrive : List (Nat × Move) :=
  [(2, .enter "g"), (3, .snapshot), (4, .enter "a"), (2, .entered "g"), (0, .enter "g"),
    (3, .entered "a")]

def threeLeave : List (Nat × Move) :=
  [(4, .leave "a"), (3, .active), (4, .drop), (2, .leave "g"), (0, .entered "g"),
    (0, .leave "g"), (0, .drop), (5, .report), (2, .drop)]

theorem threeArrive_counted :
    Crowd (after oneStayed) [(2, "g"), (4, "a"), (0, "g")] threeArrive threeLeave ∧
      CountedInTurn (after oneStayed) [(2, "g"), (4, "a"), (0, "g")] threeArrive threeLeave ∧
      (after (oneStayed ++ threeArrive)).counters = ⟨4, 4⟩ ∧
      (after (oneStayed ++ threeArrive ++ threeLeave)).counters = ⟨1, 4⟩ := by
  have hcrowd : Crowd (after oneStayed) [(2, "g"), (4, "a"), (0, "g")] threeArrive threeLeave := by
    constructor
    · decide
    · decide
    · decide
    · decide
    · decide
    · unfold IsReleased
      decide
  exact ⟨hcrowd, crowd_counted _ _ _ _ hcrowd (by decide), by decide, by decide⟩

end WebSocketEcho.Ledger
