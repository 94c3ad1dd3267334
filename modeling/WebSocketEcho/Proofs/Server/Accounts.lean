import WebSocketEcho.Proofs.Server.Acting

/-!
# The accounts of a run

A run of a server of echo sessions is any list of steps, each any list of actions: several
connections, bytes of any kind in pieces of any size, clients that close, vanish or reset, and
sessions that are cancelled.  `Accounts` says what holds after each step of it, however the
sessions end: the counters tell the open sessions and their peak, and each session that has begun
leaves once, at the latest in the step in which its client closed or it was cancelled.

The peak is over the passages in their order, not over the steps: sessions that come and go within
one step are counted.
-/

namespace WebSocketEcho.Server

/-- The server after steps, without connections at first. -/
def after (steps : List (List Action)) : Server := ((empty .sessions).steps steps).1

/-- What the steps have shown. -/
def entries (steps : List (List Action)) : List Entry := ((empty .sessions).steps steps).2

/-- The passages of a run, in the order in which they were made. -/
def history (steps : List (List Action)) : List Passage :=
  passages ((entries steps).flatMap (·.effects))

theorem after_append (a b : List (List Action)) : after (a ++ b) = ((after a).steps b).1 := by
  rw [after, steps_append]
  rfl

theorem entries_append (a b : List (List Action)) :
    entries (a ++ b) = entries a ++ ((after a).steps b).2 := by
  rw [entries, steps_append]
  rfl

theorem after_concat (earlier : List (List Action)) (actions : List Action) :
    after (earlier ++ [actions]) = ((after earlier).step actions).1 := by
  rw [after_append]
  rfl

theorem history_append (a b : List (List Action)) :
    history (a ++ b) = history a ++ passages (((after a).steps b).2.flatMap (·.effects)) := by
  rw [history, entries_append, List.flatMap_append, passages_append]
  rfl

theorem history_concat (earlier : List (List Action)) (actions : List Action) :
    history (earlier ++ [actions]) =
      history earlier ++ passages ((after earlier).step actions).2.effects := by
  rw [history_append, steps_cons]
  simp [steps]

/-- The entry of a step stands at its place and shows the counters after the step. -/
theorem counters_entry (earlier later : List (List Action)) (actions : List Action) :
    ((entries (earlier ++ actions :: later))[earlier.length]?).map (·.counters) =
      some (after (earlier ++ [actions])).counters := by
  have hlength : earlier.length = (entries earlier).length := (length_steps _ earlier).symm
  rw [entries_append, steps_cons, hlength, List.getElem?_append_right (Nat.le_refl _),
    Nat.sub_self, after_concat]
  rfl

/-! ## The invariant over a run -/

theorem kept_after (steps : List (List Action)) :
    Kept (after steps) (history steps) ∧ (after steps).ready = [] := by
  induction steps using List.reverseRecOn with
  | nil => exact ⟨kept_empty, rfl⟩
  | append_singleton earlier actions ih =>
    obtain ⟨hkept, _, hready⟩ := ih.1.step actions
    rw [after_concat, history_concat]
    exact ⟨hkept, hready⟩

theorem abides_after (earlier later : List (List Action)) :
    (after earlier).Abides (history earlier) (after (earlier ++ later))
      (history (earlier ++ later)) := by
  induction later using List.reverseRecOn with
  | nil =>
    rw [List.append_nil]
    exact .refl _ _
  | append_singleton later actions ih =>
    rw [← List.append_assoc, after_concat, history_concat]
    exact ih.trans ((kept_after (earlier ++ later)).1.step actions).2.1

/-! ## What holds after each step -/

/-- What holds after the step `actions` of a run that has made the steps `earlier` before. -/
structure Accounts (earlier : List (List Action)) (actions : List Action) : Prop where
  /-- The entry of the step shows these counters, whatever comes later. -/
  entry : ∀ later, ((entries (earlier ++ actions :: later))[earlier.length]?).map (·.counters) =
    some (after (earlier ++ [actions])).counters
  /-- The counters have followed every passage and nothing else. -/
  counters : (after (earlier ++ [actions])).counters =
    (history (earlier ++ [actions])).foldl Passage.count .zero
  /-- Who has entered and not left is who has a running session. -/
  running : (openSessions (history (earlier ++ [actions]))).Perm
    (after (earlier ++ [actions])).echoing
  /-- The counters tell the running sessions and the most that were open at one instant, unless
  their 64 bits were once too few. -/
  tells : (∀ p, p <+: history (earlier ++ [actions]) → (openSessions p).length < 2 ^ 64) →
    (after (earlier ++ [actions])).counters.active.toNat =
        (after (earlier ++ [actions])).echoing.length ∧
      IsPeak (fun p => (openSessions p).length) (history (earlier ++ [actions]))
        (after (earlier ++ [actions])).counters.max.toNat
  /-- A session enters once and leaves once.  It has not left as long as it runs, and one that has
  ended without entering was cancelled. -/
  once : ∀ id c, (after (earlier ++ [actions])).find? id = some c →
    (∃ session, c.stage = .echoing session) ∧ ¬ c.IsOver ∧
        passagesOf id (history (earlier ++ [actions])) = [.entered id] ∨
      c.stage = .ended ∧
        (passagesOf id (history (earlier ++ [actions])) = [.entered id, .left id] ∨
          passagesOf id (history (earlier ++ [actions])) = [] ∧ c.cancelled = true)
  /-- Nobody else passes. -/
  unknown : ∀ id, (after (earlier ++ [actions])).find? id = none →
    passagesOf id (history (earlier ++ [actions])) = []
  /-- A session whose client closes, vanishes or resets, or that is cancelled, has ended by the end
  of the step. -/
  ended : ∀ front a back id, actions = front ++ a :: back → a.ends? = some id →
    ((after earlier).perform front).1.find? id ≠ none →
    ((after (earlier ++ [actions])).find? id).map (·.stage) = some .ended
  /-- A session that is cancelled in the step of its connection has not begun and is never
  counted. -/
  uncounted : ∀ front back id, actions = front ++ .abort id :: back →
    (after earlier).find? id = none → (((after earlier).perform front).1.live? id).isSome →
    ∀ later, passagesOf id (history (earlier ++ actions :: later)) = []

theorem passagesOf_of_find? {steps : List (List Action)} {id : String} {c : Client}
    (hc : (after steps).find? id = some c) :
    (∃ session, c.stage = .echoing session) ∧ ¬ c.IsOver ∧
        passagesOf id (history steps) = [.entered id] ∨
      c.stage = .ended ∧
        (passagesOf id (history steps) = [.entered id, .left id] ∨
          passagesOf id (history steps) = [] ∧ c.cancelled = true) := by
  obtain ⟨hkept, hready⟩ := kept_after steps
  have hacc := hkept.accounted id c hc
  unfold Client.Accounted at hacc
  rw [id_of_find? hc] at hacc
  rcases hkept.settled hready hc with hstage | ⟨⟨session, hstage⟩, hover⟩
  · rw [hstage] at hacc
    exact Or.inr ⟨hstage, hacc⟩
  · rw [hstage] at hacc
    exact Or.inl ⟨⟨session, hstage⟩, hover, hacc⟩

/-- A step that ends a session has ended it when it is over. -/
theorem stage_after_ends (earlier : List (List Action)) {front back : List Action} {a : Action}
    {id : String} (ha : a.ends? = some id)
    (hid : ((after earlier).perform front).1.find? id ≠ none) :
    ((after (earlier ++ [front ++ a :: back])).find? id).map (·.stage) = some .ended := by
  obtain ⟨hkept, _⟩ := kept_after earlier
  rw [perform_fst] at hid
  obtain ⟨hfront, _⟩ := hkept.foldl_acted front
  obtain ⟨c, hc, hover⟩ := hfront.isOver_acted ha hid
  obtain ⟨hback, hbackAbides⟩ := (hfront.acted a).1.foldl_acted back
  obtain ⟨hsettled, hsettledAbides, hready⟩ := hback.settle
  obtain ⟨c', hc', hcancelled, hgone⟩ := (hbackAbides.trans hsettledAbides).known id c hc
  have hover' : c'.IsOver := hover.imp hcancelled hgone
  have hafter : (after (earlier ++ [front ++ a :: back])) =
      (back.foldl acted ((front.foldl acted (after earlier)).acted a)).settle.1 := by
    rw [after_concat, step_fst, List.foldl_append, List.foldl_cons]
  rw [hafter, hc']
  rcases hsettled.settled hready hc' with hstage | ⟨_, hnot⟩
  · rw [Option.map_some, hstage]
  · exact absurd hover' hnot

/-- A session that is cancelled in the step of its connection is never counted. -/
theorem passagesOf_of_abort (earlier : List (List Action)) {front back : List Action}
    {id : String} (hid : (after earlier).find? id = none)
    (hlive : (((after earlier).perform front).1.live? id).isSome)
    (later : List (List Action)) :
    passagesOf id (history (earlier ++ (front ++ .abort id :: back) :: later)) = [] := by
  obtain ⟨hkept, _⟩ := kept_after earlier
  rw [perform_fst] at hlive
  obtain ⟨hfront, _⟩ := hkept.foldl_acted front
  obtain ⟨c, hc, hcancelled⟩ := hfront.cancelled_acted hlive
  obtain ⟨hback, hbackAbides⟩ := (hfront.acted (.abort id)).1.foldl_acted back
  obtain ⟨_, hsettledAbides, _⟩ := hback.settle
  -- The passages before the step are none, because the connection was not there.
  have hstep := hbackAbides.trans hsettledAbides
  have hlater := abides_after (earlier ++ [front ++ .abort id :: back]) later
  have hafter : ((front ++ .abort id :: back).foldl acted (after earlier)) =
      back.foldl acted ((front.foldl acted (after earlier)).acted (.abort id)) := by
    rw [List.foldl_append, List.foldl_cons]
  rw [after_concat, history_concat, step_fst, effects_step, hafter] at hlater
  have hall := (hstep.trans hlater).uncounted id c hc hcancelled (hkept.unknown id hid)
  rw [List.append_assoc, List.singleton_append] at hall
  exact hall

/-- The accounts are right after every step of every run. -/
theorem sessions_accounted (earlier : List (List Action)) (actions : List Action) :
    Accounts earlier actions := by
  obtain ⟨hkept, _⟩ := kept_after (earlier ++ [actions])
  constructor
  · exact fun later => counters_entry earlier later actions
  · exact hkept.counters
  · exact hkept.perm
  · intro hroom
    obtain ⟨m, htells, hpeak⟩ := tells_of_orderly hkept.orderly hroom
    rw [← hkept.counters] at htells
    rw [htells.active, htells.max]
    exact ⟨hkept.perm.length_eq, hpeak⟩
  · exact fun id c hc => passagesOf_of_find? hc
  · exact hkept.unknown
  · intro front a back id hactions ha hid
    rw [hactions]
    exact stage_after_ends earlier ha hid
  · intro front back id hactions hid hlive later
    rw [hactions]
    exact passagesOf_of_abort earlier hid hlive later

end WebSocketEcho.Server
