import WebSocketEcho.Proofs.Server.Clients

/-!
# Turns of echo sessions

On a server of echo sessions a task does one thing: it gives one connection a turn.  `Turn` lists
what a turn can do to the session on it, with the passages through the counters that this makes.
`takesTurn_advance` says that `advance` does one of these and nothing else, and `Passage.count` says
what passages do to the counters.

The guard of a session is released on every way out of `Turn`: the two cases that end a session
that had begun are `visited` and `left`, and both end with its `Passage.left`.
-/

namespace WebSocketEcho

/-! ## Passages -/

namespace Passage

/-- The connection whose session passes. -/
def id : Passage → String
  | .entered id => id
  | .left id => id

/-- What a passage does to the counters. -/
def count (c : Counters) : Passage → Counters
  | .entered _ => c.enter
  | .left _ => c.leave

end Passage

/-- The passages among effects, in their order. -/
def passages (effects : List Effect) : List Passage :=
  effects.filterMap fun
    | .passed p => some p
    | _ => none

@[simp] theorem passages_nil : passages [] = [] := rfl

@[simp] theorem passages_passed (p : Passage) (effects : List Effect) :
    passages (.passed p :: effects) = p :: passages effects := rfl

@[simp] theorem passages_logged (e : Log.Event) (effects : List Effect) :
    passages (.logged e :: effects) = passages effects := rfl

@[simp] theorem passages_closed (id : String) (effects : List Effect) :
    passages (.closed id :: effects) = passages effects := rfl

@[simp] theorem passages_append (a b : List Effect) : passages (a ++ b) = passages a ++ passages b :=
  List.filterMap_append

/-- Reading and answering passes nobody through the counters. -/
@[simp] theorem passages_reactions (id : String) (reactions : List Reaction) :
    passages (reactions.map (Server.reactionEffect id)) = [] := by
  induction reactions with
  | nil => rfl
  | cons r rest ih =>
    cases r with
    | send r => exact ih
    | note farewell => exact ih

/-! ## Sessions -/

namespace Client

/-- Whether a session runs on the connection. -/
def isEchoing (c : Client) : Bool :=
  match c.stage with
  | .echoing _ => true
  | _ => false

/-- The connection was taken for an echo session from the start. -/
def IsSession (c : Client) : Prop :=
  match c.stage with
  | .starting _ | .echoing _ | .ended => True
  | .arriving | .requesting _ | .abandoned => False

theorem IsSession.stage_ne {c : Client} (h : c.IsSession) : c.stage ≠ .arriving := by
  intro hstage
  rw [IsSession, hstage] at h
  exact h

end Client

namespace Session

/-- A session goes on waiting only for a client that can still send. -/
theorem state_of_poll_waiting {session t : Session} {w : Wire} {reactions : List Reaction}
    (h : session.poll w = (reactions, .waiting t)) : w.state = .present := by
  have hend : ∀ p : Progress, p.atEnd ≠ .waiting t := by
    intro p
    cases p <;> simp [Progress.atEnd]
  cases hw : w.state with
  | present => rfl
  | finished =>
    simp only [poll, hw, Prod.mk.injEq] at h
    exact absurd h.2 (hend _)
  | vanished =>
    simp only [poll, hw] at h
    split at h
    · simp at h
    · simp only [Prod.mk.injEq] at h
      exact absurd h.2 (hend _)
  | reset => simp [poll, hw] at h

end Session

namespace Server

/-- What a turn does to the session on a connection, and the passages it makes. -/
inductive Turn (c : Client) : Client → List Passage → Prop where
  /-- The session has ended before. -/
  | idle (h : c.stage = .ended) : Turn c c []
  /-- The session was cancelled before it began. -/
  | dropped {leftover : Bytes} (h : c.stage = .starting leftover) (hc : c.cancelled = true) :
      Turn c { c with stage := .ended } []
  /-- The session begins and waits for more. -/
  | entered {leftover : Bytes} {w : Wire} {session : Session}
      (h : c.stage = .starting leftover) (hc : c.cancelled = false)
      (hp : c.wire.state = .present) (hw : w.state = c.wire.state) :
      Turn c { c with wire := w, stage := .echoing session } [.entered c.id]
  /-- The session begins and ends. -/
  | visited {leftover : Bytes} {w : Wire} (h : c.stage = .starting leftover)
      (hc : c.cancelled = false) (hw : w.state = c.wire.state) :
      Turn c { c with wire := w, stage := .ended } [.entered c.id, .left c.id]
  /-- The session reads and waits for more. -/
  | stayed {w : Wire} {session session' : Session} (h : c.stage = .echoing session)
      (hc : c.cancelled = false) (hp : c.wire.state = .present) (hw : w.state = c.wire.state) :
      Turn c { c with wire := w, stage := .echoing session' } []
  /-- The session ends, by itself or because it was cancelled. -/
  | left {w : Wire} {session : Session} (h : c.stage = .echoing session)
      (hw : w.state = c.wire.state) :
      Turn c { c with wire := w, stage := .ended } [.left c.id]

theorem Turn.cancelled_eq {c c' : Client} {ps : List Passage} (h : Turn c c' ps) :
    c'.cancelled = c.cancelled := by
  cases h <;> rfl

theorem Turn.state_eq {c c' : Client} {ps : List Passage} (h : Turn c c' ps) :
    c'.wire.state = c.wire.state := by
  cases h with
  | idle | dropped => rfl
  | entered _ _ _ hw | visited _ _ hw | stayed _ _ _ hw | left _ hw => exact hw

theorem Turn.id_of_mem {c c' : Client} {ps : List Passage} (h : Turn c c' ps) :
    ∀ p ∈ ps, p.id = c.id := by
  cases h <;> simp [Passage.id]

/-! ## What a task does -/

/-- What a task did to the server was one turn of a connection and the count of its passages. -/
def TakesTurn (s : Server) (c : Client) (r : Server × List Effect) : Prop :=
  ∃ f : Client → Client, (∀ d, (f d).id = d.id) ∧
    r.1 = { s.update c.id f with counters := (passages r.2).foldl Passage.count s.counters } ∧
    Turn c (f c) (passages r.2)

section Tasks

variable {s : Server} {id : String} {c : Client} {session t : Session}
  {reactions : List Reaction} {o : Outcome}

theorem runSession_of_waiting (h : session.poll c.wire = (reactions, .waiting t)) :
    s.runSession c session =
      (s.update c.id fun d => { d with wire := { c.wire with unread := [] }, stage := .echoing t },
        reactions.map (reactionEffect c.id)) := by
  simp only [runSession, h]

theorem runSession_of_ended (h : session.poll c.wire = (reactions, .ended o)) :
    s.runSession c session =
      ({ s.update c.id fun d => { d with wire := { c.wire with unread := [] }, stage := .ended } with
          counters := s.counters.leave },
        reactions.map (reactionEffect c.id) ++
          [.logged (.sessionEnded c.peer o), .passed (.left c.id),
            .logged (.sessionClosed c.peer s.counters.leave.active), .closed c.id]) := by
  simp only [runSession, h]

theorem startSession_of_waiting {leftover : Bytes}
    (h : (Session.begin leftover).poll c.wire = (reactions, .waiting t)) :
    s.startSession c leftover =
      ({ s.update c.id fun d =>
          { d with wire := { c.wire with unread := [] }, stage := .echoing t } with
          counters := s.counters.enter },
        .passed (.entered c.id) :: .logged (.sessionOpened c.peer s.counters.enter.active) ::
          reactions.map (reactionEffect c.id)) := by
  simp only [startSession, runSession_of_waiting h]
  rfl

theorem startSession_of_ended {leftover : Bytes}
    (h : (Session.begin leftover).poll c.wire = (reactions, .ended o)) :
    s.startSession c leftover =
      ({ s.update c.id fun d => { d with wire := { c.wire with unread := [] }, stage := .ended } with
          counters := s.counters.enter.leave },
        .passed (.entered c.id) :: .logged (.sessionOpened c.peer s.counters.enter.active) ::
          (reactions.map (reactionEffect c.id) ++
            [.logged (.sessionEnded c.peer o), .passed (.left c.id),
              .logged (.sessionClosed c.peer s.counters.enter.leave.active), .closed c.id])) := by
  simp only [startSession, runSession_of_ended h]
  rfl

theorem takesTurn_idle (h : c.stage = .ended) : s.TakesTurn c (s, []) := by
  refine ⟨fun d => d, fun _ => rfl, ?_, .idle h⟩
  simp [update]

theorem takesTurn_cancel (hc : c.IsSession) (hcancelled : c.cancelled = true) :
    s.TakesTurn c (s.cancel c) := by
  unfold cancel
  cases hstage : c.stage with
  | ended => exact takesTurn_idle hstage
  | echoing session =>
    exact ⟨fun d => { d with stage := .ended }, fun _ => rfl, rfl, .left (w := c.wire) hstage rfl⟩
  | starting leftover =>
    exact ⟨fun d => { d with stage := .ended }, fun _ => rfl, rfl, .dropped hstage hcancelled⟩
  | arriving | requesting | abandoned => simp [Client.IsSession, hstage] at hc

theorem takesTurn_runSession (hstage : c.stage = .echoing session)
    (hcancelled : c.cancelled = false) : s.TakesTurn c (s.runSession c session) := by
  rcases hp : session.poll c.wire with ⟨reactions, progress⟩
  cases progress with
  | waiting t =>
    rw [runSession_of_waiting hp]
    refine ⟨fun d => { d with wire := { c.wire with unread := [] }, stage := .echoing t },
      fun _ => rfl, ?_, ?_⟩
    · rw [passages_reactions]
      rfl
    · rw [passages_reactions]
      exact .stayed hstage hcancelled (Session.state_of_poll_waiting hp) rfl
  | ended o =>
    rw [runSession_of_ended hp]
    refine ⟨fun d => { d with wire := { c.wire with unread := [] }, stage := .ended },
      fun _ => rfl, ?_, ?_⟩
    · simp [Passage.count]
    · rw [passages_append, passages_reactions]
      exact .left hstage rfl

theorem takesTurn_startSession {leftover : Bytes} (hstage : c.stage = .starting leftover)
    (hcancelled : c.cancelled = false) : s.TakesTurn c (s.startSession c leftover) := by
  rcases hp : (Session.begin leftover).poll c.wire with ⟨reactions, progress⟩
  cases progress with
  | waiting t =>
    rw [startSession_of_waiting hp]
    refine ⟨fun d => { d with wire := { c.wire with unread := [] }, stage := .echoing t },
      fun _ => rfl, ?_, ?_⟩
    · simp [Passage.count]
    · simp only [passages_passed, passages_logged, passages_reactions]
      exact .entered hstage hcancelled (Session.state_of_poll_waiting hp) rfl
  | ended o =>
    rw [startSession_of_ended hp]
    refine ⟨fun d => { d with wire := { c.wire with unread := [] }, stage := .ended },
      fun _ => rfl, ?_, ?_⟩
    · simp [Passage.count]
    · simp only [passages_passed, passages_logged, passages_append, passages_reactions]
      exact .visited hstage hcancelled rfl

/-- A task gives one connection a turn, and does nothing else. -/
theorem takesTurn_advance (h : s.find? id = some c) (hc : c.IsSession) :
    s.TakesTurn c (s.advance id) := by
  rw [advance, h]
  dsimp only
  cases hcancelled : c.cancelled with
  | true =>
    rw [if_pos rfl]
    exact takesTurn_cancel hc hcancelled
  | false =>
    rw [if_neg Bool.false_ne_true]
    cases hstage : c.stage with
    | ended => exact takesTurn_idle hstage
    | echoing session => exact takesTurn_runSession hstage hcancelled
    | starting leftover => exact takesTurn_startSession hstage hcancelled
    | arriving | requesting | abandoned => simp [Client.IsSession, hstage] at hc

end Tasks

end Server

end WebSocketEcho
