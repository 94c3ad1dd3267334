import WebSocketEcho.Proofs.Server.Lives
import WebSocketEcho.Proofs.Server.Violation
import WebSocketEcho.Proofs.Session.Endings

/-!
# Departures

A session ends in the turn in which its client closes or has vanished, and nothing is heard of it
again.  `Departs` says what this means: what the connection shows from its first to its last moment,
whatever the run goes on to do, and where in the run the place in the counters is given back.
`departs_of_poll` proves it for any reading that ends a session, at any moment of a run.

`close_answered_once` is the case of a legal close frame, and `vanished_session_ends` that of a
client that is gone.
-/

namespace WebSocketEcho

/-- The session that runs on a connection or is to begin on it. -/
def Client.session? (c : Client) : Option Session :=
  match c.stage with
  | .echoing t => some t
  | .starting leftover => some (.begin leftover)
  | .arriving | .requesting _ | .abandoned | .ended => none

namespace Server

open Session (Legal Meets)

variable {s s' : Server} {id : String} {c c' : Client} {k k' : Counters} {effects : List Effect}

/-! ## What is on one connection -/

theorem filterMap_share_runStints {β : Type} {f : Effect → Option β}
    (hf : ∀ e, (f e).isSome → e.owner? = some id) (s : Server) (steps : List (List Action)) :
    ((s.runStints steps).flatMap (·.effects)).filterMap f =
      (share id (s.runStints steps)).filterMap f := by
  induction steps generalizing s with
  | nil => rfl
  | cons actions rest ih =>
    rw [runStints, List.flatMap_append, List.filterMap_append, ih, share_append,
      List.filterMap_append, stepStints, filterMap_share hf]

/-- What is written on a connection is written by its task. -/
theorem bytesOn_share (s : Server) (id : String) (steps : List (List Action)) :
    bytesOn id ((s.runStints steps).flatMap (·.effects)) =
      bytesOn id (share id (s.runStints steps)) := by
  rw [bytesOn, bytesOn, filterMap_share_runStints]
  intro e he
  cases e with
  | wrote other bytes =>
    by_cases hother : other = id
    · rw [Effect.owner?, hother]
    · simp [hother] at he
  | closed | logged | passed => cases he

theorem bytesOn_reactions (id : String) (reactions : List Reaction) :
    bytesOn id (reactions.map (reactionEffect id)) = reactions.flatMap Reaction.bytes := by
  have h := output_reactions id reactions []
  rw [List.append_nil] at h
  exact h.trans (List.append_nil _)

/-- The passage of a session that an effect is. -/
def passageOf? (id : String) : Effect → Option Passage
  | .passed p => if p.id = id then some p else none
  | _ => none

/-- The passages of a session are made by its task. -/
theorem passagesOf_share (s : Server) (id : String) (steps : List (List Action)) :
    passagesOf id (passages ((s.runStints steps).flatMap (·.effects))) =
      passagesOf id (passages (share id (s.runStints steps))) := by
  have hfilter : ∀ effects : List Effect, passagesOf id (passages effects) =
      effects.filterMap (passageOf? id) := by
    intro effects
    rw [passagesOf, passages, ← List.filterMap_eq_filter, List.filterMap_filterMap]
    congr 1
    funext e
    cases e with
    | passed p => simp [Option.guard, passageOf?]
    | wrote | closed | logged => rfl
  rw [hfilter, hfilter, filterMap_share_runStints]
  intro e he
  cases e with
  | passed p =>
    by_cases hp : p.id = id
    · rw [Effect.owner?, hp]
    · simp [passageOf?, hp] at he
  | wrote | closed | logged => cases he

/-! ## The end of a session -/

/-- How a session begins on a connection, with the replies that it has sent. -/
def begun (c : Client) (active : UInt64) (sent : List Reply) : List Effect :=
  .passed (.entered c.id) :: .logged (.sessionOpened c.peer active) ::
    (sent.map .send).map (reactionEffect c.id)

/-- How it ends. -/
def parting (c : Client) (o : Outcome) (active : UInt64) : List Effect :=
  [.logged (.sessionEnded c.peer o), .passed (.left c.id),
    .logged (.sessionClosed c.peer active), .closed c.id]

theorem passages_begun (c : Client) (active : UInt64) (sent : List Reply) :
    passages (begun c active sent) = [.entered c.id] := by
  rw [begun, passages_passed, passages_logged, passages_reactions]

theorem passages_parting (c : Client) (o : Outcome) (active : UInt64) :
    passages (parting c o active) = [.left c.id] := rfl

theorem bytesOn_parting (c : Client) (o : Outcome) (active : UInt64) (id : String) :
    bytesOn id (parting c o active) = [] := rfl

/-- The session on the connection `c`, as it is when `n` tasks of the step `actions` have run, ends
in the rest of this step with the outcome `o`.  It has sent the replies `sent` before, it does
`reactions` now, and `front` came before it on the connection. -/
structure Departs (mode : Mode) (earlier : List (List Action)) (actions : List Action) (n : Nat)
    (c : Client) (front : List Effect) (opened closed : UInt64) (sent : List Reply)
    (reactions : List Reaction) (o : Outcome) : Prop where
  apart : Sessionless front
  past : share c.id (stintsTo mode earlier actions n) =
    if c.isEchoing then front ++ begun c opened sent else front
  /-- However the run goes on, this is all that is ever done on the connection. -/
  life : ∀ later, share c.id ((empty mode).runStints (earlier ++ actions :: later)) =
    front ++ begun c opened sent ++ reactions.map (reactionEffect c.id) ++ parting c o closed
  /-- The session gives its place back and shows the number of those that are then open. -/
  released : ∃ before, closed = ((passages before).foldl Passage.count .zero).leave.active ∧
    ∀ later, ∃ after, ((empty mode).runStints (earlier ++ actions :: later)).flatMap (·.effects) =
      before ++ parting c o closed ++ after
  /-- It is counted once and given back once. -/
  once : ∀ later, passagesOf c.id (passages
    (((empty mode).steps (earlier ++ actions :: later)).2.flatMap (·.effects))) =
      [.entered c.id, .left c.id]
  /-- To what was written before, only this is added. -/
  output : ∀ later, ((empty mode).steps (earlier ++ actions :: later)).2.flatMap (·.output c.id) =
    bytesOn c.id (share c.id (stintsTo mode earlier actions n)) ++ reactions.flatMap Reaction.bytes
  ended : ((reached mode (earlier ++ [actions])).find? c.id).map (·.stage) = some .ended
  /-- Whatever comes on the connection in later steps is not noticed. -/
  silent : ∀ later, (∀ actions ∈ later, ∀ a ∈ actions, a.target? = some c.id) →
    ∀ entry ∈ ((reached mode (earlier ++ [actions])).steps later).2,
      entry.effects = [] ∧ entry.counters = (reached mode (earlier ++ [actions])).counters

section Departs

variable {mode : Mode} {earlier : List (List Action)} {actions : List Action} {n : Nat}
  {t : Session} {reactions : List Reaction} {o : Outcome}

/-- What the session on a connection knows of its past. -/
theorem exists_begun (hlived : c.Lived effects) (ht : c.session? = some t) :
    ∃ front opened sent, Sessionless front ∧
      effects = (if c.isEchoing then front ++ begun c opened sent else front) ∧
      (c.isEchoing = false → sent = []) ∧ t.echoed = .ofNat (sent.countP Reply.isEcho) ∧
      Option.Rel Gathering.Holds t.gathering t.underway ∧
      (c.isEchoing = true → t.feed [] = ([], .waiting t)) := by
  unfold Client.session? at ht
  cases hstage : c.stage with
  | arriving | requesting | abandoned | ended =>
    rw [hstage] at ht
    cases ht
  | starting leftover =>
    rw [hstage] at ht
    cases ht
    have hecho : c.isEchoing = false := by rw [Client.isEchoing, hstage]
    rw [hecho]
    refine ⟨effects, 0, [], hlived.sessionless hecho (by rw [hstage]; simp), rfl, fun _ => rfl, rfl,
      .none, fun h => ?_⟩
    cases h
  | echoing session =>
    rw [hstage] at ht
    cases ht
    obtain ⟨front, read, reactions, k, hfront, hfeed, rfl⟩ := hlived.of_echoing hstage
    obtain ⟨sent, rfl, hechoed⟩ := Session.replies_of_feed hfeed
    have hecho : c.isEchoing = true := by rw [Client.isEchoing, hstage]
    rw [hecho]
    refine ⟨front, k.enter.active, sent, hfront, ?_, fun h => ?_, ?_,
      Session.holds_of_feed hfeed, fun _ => Session.feed_nil_of_feed hfeed⟩
    · rw [if_pos rfl, begun, shown, told, List.append_nil]
    · cases h
    · exact hechoed.trans (UInt64.zero_add _)

theorem isSession_of_session? (ht : c.session? = some t) : c.IsSession := by
  unfold Client.session? at ht
  unfold Client.IsSession
  cases hstage : c.stage with
  | echoing | starting | ended => trivial
  | arriving | requesting | abandoned =>
    rw [hstage] at ht
    cases ht

/-- A session that ends in its turn has something to end it. -/
theorem isStirred_of_poll_ended (ht : c.session? = some t)
    (hfeed : c.isEchoing = true → t.feed [] = ([], .waiting t))
    (hpoll : t.poll c.wire = (reactions, .ended o)) : c.IsStirred := by
  unfold Client.session? at ht
  unfold Client.IsStirred
  cases hstage : c.stage with
  | starting leftover => trivial
  | arriving | requesting | abandoned | ended =>
    rw [hstage] at ht
    cases ht
  | echoing session =>
    refine Or.inr fun hfresh => ?_
    have hwaits : t.poll c.wire = ([], .waiting t) := by
      rw [hfresh]
      exact hfeed (by rw [Client.isEchoing, hstage])
    rw [hwaits] at hpoll
    cases congrArg Prod.snd hpoll

/-- The turn in which a session ends. -/
theorem Turned.of_poll_ended {woken : Bool} (h : Turned k c c' woken k' effects)
    (hcancelled : c.cancelled = false) (ht : c.session? = some t)
    (hpoll : t.poll c.wire = (reactions, .ended o)) :
    c'.stage = .ended ∧ effects =
      if c.isEchoing then told k c.id c.peer (reactions, .ended o)
      else shown k c.id c.peer (reactions, .ended o) := by
  unfold Client.session? at ht
  unfold Client.isEchoing
  cases h.move hcancelled with
  | idle hstage =>
    rcases hstage with hstage | hstage <;> rw [hstage] at ht <;> cases ht
  | served hstage | gaveUp hstage =>
    rw [hstage] at ht
    cases ht
  | began hstage hpoll' =>
    rw [hstage] at ht ⊢
    cases ht
    cases hpoll.symm.trans hpoll'
    exact ⟨rfl, rfl⟩
  | read hstage hpoll' =>
    rw [hstage] at ht ⊢
    cases ht
    cases hpoll.symm.trans hpoll'
    exact ⟨rfl, rfl⟩

/-- What a session does in its last turn: it begins, unless it has begun before, it reacts, and it
parts. -/
theorem exists_parting (hturned : effects =
      if c.isEchoing then told k c.id c.peer (reactions, .ended o)
      else shown k c.id c.peer (reactions, .ended o))
    {front past : List Effect} {opened : UInt64} {sent : List Reply}
    (hpast : past = if c.isEchoing then front ++ begun c opened sent else front)
    (hsent : c.isEchoing = false → sent = []) :
    ∃ opened closed lead, past = (if c.isEchoing then front ++ begun c opened sent else front) ∧
      past ++ lead = front ++ begun c opened sent ∧ bytesOn c.id lead = [] ∧
      effects = lead ++ reactions.map (reactionEffect c.id) ++ parting c o closed ∧
      closed = ((passages (lead ++ reactions.map (reactionEffect c.id))).foldl Passage.count
        k).leave.active := by
  cases hecho : c.isEchoing with
  | true =>
    rw [hecho, if_pos rfl] at hturned hpast
    refine ⟨opened, k.leave.active, [], hpast, ?_, rfl, hturned, ?_⟩
    · rw [List.append_nil]
      exact hpast
    · rw [List.nil_append, passages_reactions]
      rfl
  | false =>
    rw [hecho, if_neg Bool.false_ne_true] at hturned hpast
    rw [hsent hecho]
    refine ⟨k.enter.active, k.enter.leave.active, begun c k.enter.active [], hpast, ?_, rfl,
      hturned, ?_⟩
    · rw [hpast]
    · rw [passages_append, passages_reactions]
      rfl

/-- A session whose reading ends it departs. -/
theorem departs_of_poll (hc : (amid mode earlier actions n).find? id = some c)
    (ht : c.session? = some t) (hcancelled : c.cancelled = false)
    (hpoll : t.poll c.wire = (reactions, .ended o)) :
    ∃ front opened closed sent, t.echoed = .ofNat (sent.countP Reply.isEcho) ∧
      Departs mode earlier actions n c front opened closed sent reactions o := by
  obtain rfl : c.id = id := id_of_find? hc
  have hchronicle := chronicle_amid mode earlier actions n
  obtain ⟨front, opened, sent, hfront, hpast, hsent, hechoed, _, hfeed⟩ :=
    exists_begun (hchronicle.lived _ c hc) ht
  -- The rest of the step has one turn for the session.
  obtain ⟨rest, hend, hrun⟩ := stints_of_moment mode earlier actions n
  have hready : (runReady rest (amid mode earlier actions n) []).1.ready = [] := by
    rw [hend]
    exact ready_reached mode _
  obtain ⟨before, c', k, effects, back, hstints, hothers, hturned, hfind⟩ :=
    hchronicle.sound.turn hc (isSession_of_session? ht)
      (hchronicle.sound.stirred _ c hc (isStirred_of_poll_ended ht hfeed hpoll)) hready
  obtain ⟨hbefore, hback⟩ := List.forall_mem_append.1 hothers
  obtain ⟨hstage, heffects⟩ := hturned.of_poll_ended hcancelled ht hpoll
  obtain ⟨opened, closed, lead, hpast, hlead, hquiet, heffects, hclosed⟩ :=
    exists_parting heffects hpast hsent
  rw [hend] at hfind
  -- Nothing comes behind it.
  have hover := (sound_reached mode (earlier ++ [actions])).share_of_over hfind hstage
  have hlife : ∀ later, share c.id ((empty mode).runStints (earlier ++ actions :: later)) =
      front ++ begun c opened sent ++ reactions.map (reactionEffect c.id) ++
        parting c o closed := by
    intro later
    rw [hrun, hstints, share_append, share_append, share_append, hover, share_of_others hbefore,
      share_cons_self, share_of_others hback, heffects, ← hlead]
    simp only [List.append_assoc, List.nil_append, List.append_nil]
  refine ⟨front, opened, closed, sent, hechoed, hfront, hpast, hlife, ?_, ?_, ?_, ?_, ?_⟩
  · refine ⟨(stintsTo mode earlier actions n ++ before).flatMap (·.effects) ++
      (lead ++ reactions.map (reactionEffect c.id)), ?_, fun later => ?_⟩
    · rw [hclosed, hchronicle.counters]
      simp only [List.flatMap_append, passages_append, List.foldl_append]
    · refine ⟨(back ++ (reached mode (earlier ++ [actions])).runStints later).flatMap
        (·.effects), ?_⟩
      rw [hrun, hstints]
      simp only [List.flatMap_append, List.flatMap_cons, heffects, List.append_assoc]
  · intro later
    rw [← flatMap_runStints, passagesOf_share, hlife]
    rw [passages_append, passages_append, passages_append, hfront.passages, passages_begun,
      passages_reactions, passages_parting]
    exact passagesOf_eq_self (by simp [Passage.id])
  · intro later
    rw [flatMap_output, Entry.output_eq, Entry.joined, ← flatMap_runStints, bytesOn_share, hlife,
      ← hlead]
    simp only [bytesOn_append, hquiet, bytesOn_reactions, bytesOn_parting, List.append_nil]
  · rw [hfind, Option.map_some, hstage]
  · exact fun later hlater => steps_of_over hfind hstage (ready_reached mode _) hlater

/-! ## The client closes -/

/-- A legal close frame is answered once and ends the session, in any state of it and whatever
stands behind the frame, as long as the client receives. -/
theorem close_answered_once (hc : (amid mode earlier actions n).find? id = some c)
    (ht : c.session? = some t) (hcancelled : c.cancelled = false) (hw : c.wire.isWritable = true)
    {frames : List ReceivedFrame} {m : Option Underway} {replies : List Reply}
    (hlegal : Legal t.underway frames m replies) {f : ReceivedFrame} {said : Option Farewell}
    (hclose : f.IsClose said) {rest : Bytes}
    (hbytes : t.buffer ++ c.wire.unread = frames.flatMap (·.bytes) ++ (f.bytes ++ rest)) :
    ∃ front opened closed sent answer, ClosesWith said answer ∧
      Departs mode earlier actions n c front opened closed sent
        (replies.map .send ++ [.note answer, .send (.close answer)])
        (.peerClosed (.ofNat ((sent ++ replies).countP Reply.isEcho))) ∧
      ∀ later, ((empty mode).steps (earlier ++ actions :: later)).2.flatMap (·.output c.id) =
        bytesOn c.id (share c.id (stintsTo mode earlier actions n)) ++
          (replies ++ [Reply.close answer]).flatMap fun reply => reply.frame.bytes := by
  obtain ⟨_, _, _, _, _, _, _, hholds, _⟩ :=
    exists_begun ((chronicle_amid mode earlier actions n).lived id c hc) ht
  have hpoll := Session.poll_of_feed_ended hw (Session.feed_of_close hholds hlegal hclose hbytes)
  obtain ⟨front, opened, closed, sent, hechoed, hdeparts⟩ :=
    departs_of_poll hc ht hcancelled hpoll
  rw [hechoed, ← UInt64.ofNat_add, ← List.countP_append] at hdeparts
  refine ⟨front, opened, closed, sent, _, closesWith_reply said, hdeparts, fun later => ?_⟩
  have hwritten : ∀ answer : Option Farewell,
      [Reaction.note answer, .send (.close answer)].flatMap Reaction.bytes =
        [Reply.close answer].flatMap fun reply => reply.frame.bytes := by
    intro answer
    exact flatMap_send [.close answer]
  rw [hdeparts.output, List.flatMap_append, List.flatMap_append, flatMap_send, hwritten]

/-- Two sessions, one of them inside a fragmented text with a pong just sent. -/
def midText : List (List Action) :=
  [[.connect "b" loopback, .connect "a" loopback],
    [.send "a" (pingAndStart.flatMap (·.bytes))]]

theorem length_goodbyeKey : ([0, 0, 0, 9] : Bytes).length = 4 := rfl

/-- A close frame with the code 1000 and the reason "ok". -/
def goodbye : ReceivedFrame :=
  ⟨⟨0x88, some ⟨[0, 0, 0, 9], length_goodbyeKey⟩, .seven, 4, by decide⟩,
    [0x03, 0xE8, 0x6F, 0x6B], rfl⟩

theorem isClose_goodbye : goodbye.IsClose (some ⟨⟨1000⟩, [0x6F, 0x6B]⟩) where
  opcode := rfl
  fin := rfl
  unreserved := rfl
  masked := by simp [goodbye]
  short := by decide
  payload := rfl
  text := by
    rintro farewell ⟨⟩
    exact ⟨"ok", by decide⟩

/-- The session that waits inside the text. -/
def waitingInText : Session := ⟨[], some ⟨.text, [[0xC3]], .one⟩, 0⟩

/-- Its connection. -/
def clientInText (w : Wire) : Client := ⟨"a", loopback, w, .echoing waitingInText, false⟩

/-- The close frame comes with a byte behind it, while another client sends too. -/
def closingInText : List Action := [.send "a" (goodbye.bytes ++ [0x81]), .send "b" [0x89]]

theorem goodbyeInText_answered :
    (amid .sessions midText closingInText 0).find? "a" =
        some (clientInText ⟨goodbye.bytes ++ [0x81], .present⟩) ∧
      Legal waitingInText.underway [] waitingInText.underway [] ∧
      goodbye.IsClose (some ⟨⟨1000⟩, [0x6F, 0x6B]⟩) ∧
      ((empty .sessions).steps (midText ++ [closingInText])).2.flatMap (·.output "a") =
        [0x8A, 1, 7] ++ [0x88, 4, 0x03, 0xE8, 0x6F, 0x6B] := by
  have hc : (amid .sessions midText closingInText 0).find? "a" =
      some (clientInText ⟨goodbye.bytes ++ [0x81], .present⟩) := by decide +kernel
  refine ⟨hc, .nil _, isClose_goodbye, ?_⟩
  have hbytes : waitingInText.buffer ++ (goodbye.bytes ++ [0x81]) =
      ([] : List ReceivedFrame).flatMap (·.bytes) ++ (goodbye.bytes ++ [0x81]) := rfl
  obtain ⟨front, opened, closed, sent, answer, hanswer, _, houtput⟩ :=
    close_answered_once hc (t := waitingInText) rfl rfl rfl (.nil _) isClose_goodbye hbytes
  have hsame : answer = some ⟨⟨1000⟩, [0x6F, 0x6B]⟩ := by
    cases hanswer with
    | same => rfl
    | refused h => exact absurd (Or.inl (by decide)) h
  have hbefore : bytesOn "a" (share "a" (stintsTo .sessions midText closingInText 0)) =
      [0x8A, 1, 7] := by decide +kernel
  rw [hsame] at houtput
  refine (houtput []).trans ?_
  rw [show (clientInText ⟨goodbye.bytes ++ [0x81], .present⟩).id = "a" from rfl, hbefore]
  rfl

/-! ## The client vanishes -/

theorem bytes_of_meets {m : Option Underway} {bytes : Bytes} {failure : Failure}
    (h : Meets m bytes reactions failure) : reactions.flatMap Reaction.bytes = [] := by
  cases h <;> rfl

/-- A session whose client has vanished ends with the first thing that it meets among the bytes that
are left, and writes nothing. -/
theorem vanished_session_ends (hc : (amid mode earlier actions n).find? id = some c)
    (ht : c.session? = some t) (hcancelled : c.cancelled = false)
    (hw : c.wire.state = .vanished) :
    (∃ reactions failure, Meets t.underway (t.buffer ++ c.wire.unread) reactions failure) ∧
      ∀ reactions failure, Meets t.underway (t.buffer ++ c.wire.unread) reactions failure →
        ∃ front opened closed sent,
          Departs mode earlier actions n c front opened closed sent reactions (.failed failure) ∧
          ∀ later, ((empty mode).steps (earlier ++ actions :: later)).2.flatMap (·.output c.id) =
            bytesOn c.id (share c.id (stintsTo mode earlier actions n)) := by
  refine ⟨Session.exists_meets _ _, fun reactions failure hmeets => ?_⟩
  obtain ⟨_, _, _, _, _, _, _, hholds, _⟩ :=
    exists_begun ((chronicle_amid mode earlier actions n).lived id c hc) ht
  obtain ⟨front, opened, closed, sent, _, hdeparts⟩ :=
    departs_of_poll hc ht hcancelled (Session.poll_of_meets hholds hw hmeets)
  refine ⟨front, opened, closed, sent, hdeparts, fun later => ?_⟩
  rw [hdeparts.output, bytes_of_meets hmeets, List.append_nil]

/-- The client sends the close frame and is gone before the server runs. -/
def vanishingInText : List Action := [.send "a" goodbye.bytes, .vanish "a"]

theorem vanishedInText_ended :
    (amid .sessions midText vanishingInText 0).find? "a" =
        some (clientInText ⟨goodbye.bytes, .vanished⟩) ∧
      Meets waitingInText.underway (waitingInText.buffer ++ goodbye.bytes)
        [.note (some ⟨⟨1000⟩, [0x6F, 0x6B]⟩)] (.network .brokenPipe) ∧
      ((empty .sessions).steps (midText ++ [vanishingInText])).2.flatMap (·.output "a") =
        [0x8A, 1, 7] := by
  have hc : (amid .sessions midText vanishingInText 0).find? "a" =
      some (clientInText ⟨goodbye.bytes, .vanished⟩) := by decide +kernel
  have hmeets : Meets waitingInText.underway (waitingInText.buffer ++ goodbye.bytes)
      [.note (some ⟨⟨1000⟩, [0x6F, 0x6B]⟩)] (.network .brokenPipe) := by
    show Meets _ (([] : List ReceivedFrame).flatMap (·.bytes) ++ (goodbye.bytes ++ [])) _ _
    exact .closed (.nil _) isClose_goodbye rfl []
  refine ⟨hc, hmeets, ?_⟩
  obtain ⟨front, opened, closed, sent, _, houtput⟩ :=
    (vanished_session_ends hc (t := waitingInText) rfl rfl rfl).2 _ _ hmeets
  refine (houtput []).trans ?_
  decide +kernel

end Departs

end Server

end WebSocketEcho
