import WebSocketEcho.Http.Connection

/-!
# Turns of an HTTP connection

What a connection says in its turns, and how much it leaves to be read.

Whatever a client sends, what happens on an HTTP connection is a `Talk`, requests each with its
answer, and then an `Ending` that fits the place where the connection stands: it may have been
refused, or its last request may have stayed without an answer because the client was gone
(`talk_poll`).

A connection is handed over only when its last request was granted a switch of protocols.  Between
the answer and the handing over there may be the rest of a body; `Phase.owesSwitch` tells whether a
connection is in between, and `Talk` carries this flag from one request to the next.

A connection that waits has as much left to be read as there was, or less
(`remaining_poll_waiting`); one that lets others go first has less (`Connection.remaining_poll`).
-/

namespace WebSocketEcho.Http

/-- The connection is handed over as soon as the rest of a body has come. -/
def Phase.owesSwitch : Phase → Bool
  | .head _ => false
  | .body _ next => next == .switch

/-- Requests with their answers.  The flags say whether a switch is owed before and behind them. -/
inductive Talk (handler : Request → Answer) : Bool → List Deed → Bool → Prop where
  | silent (owed : Bool) : Talk handler owed [] owed
  | answered (r : Request) (keepAlive : Bool) {rest : List Deed} {owed : Bool}
      (h : Talk handler ((handler r).status == .switchingProtocols) rest owed) :
      Talk handler false (.handle r :: .write (frame r keepAlive (handler r)).bytes :: rest) owed

/-- What comes behind the answers, and where the connection then stands. -/
inductive Ending (handler : Request → Answer) : Bool → List Deed → Standing → Prop where
  | waiting (c : Connection) : Ending handler c.phase.owesSwitch [] (.waiting c)
  | paused (c : Connection) : Ending handler c.phase.owesSwitch [] (.paused c)
  | closed (owed : Bool) (fault : Option Fault) : Ending handler owed [] (.closed fault)
  | switched (leftover : Bytes) : Ending handler true [] (.switched leftover)
  /-- A faulty head is answered without a request. -/
  | refused (version : Version) {f : Fault} {status : Status} (h : f.status? = some status) :
      Ending handler false [.write (refusal version status).bytes] (.closed (some f))
  /-- The answer could not be written. -/
  | unanswered (r : Request) (h : (handler r).status ≠ .switchingProtocols) :
      Ending handler false [.handle r] (.closed (some .unwritable))
  | abandoned (r : Request) (h : (handler r).status = .switchingProtocols) :
      Ending handler false [.handle r] (.abandoned .unwritable)

/-- Deeds that are a talk and then an ending at this standing. -/
def Says (handler : Request → Answer) (owed : Bool) (deeds : List Deed) (standing : Standing) :
    Prop :=
  ∃ talk tail owed', deeds = talk ++ tail ∧ Talk handler owed talk owed' ∧
    Ending handler owed' tail standing

/-- What one turn says. -/
def Turn.Says (handler : Request → Answer) (owed : Bool) : Turn → Prop
  | .stop deeds standing _ => Http.Says handler owed deeds standing
  | .again deeds phase _ _ => Talk handler owed deeds phase.owesSwitch

section Talk

variable {handler : Request → Answer} {owed owed' owed'' : Bool} {deeds more : List Deed}
  {standing : Standing}

theorem Talk.append (h : Talk handler owed deeds owed') (h' : Talk handler owed' more owed'') :
    Talk handler owed (deeds ++ more) owed'' := by
  induction h with
  | silent => exact h'
  | answered r keepAlive _ ih => exact .answered r keepAlive (ih h')

theorem Talk.saysMore (h : Talk handler owed deeds owed') (h' : Says handler owed' more standing) :
    Says handler owed (deeds ++ more) standing := by
  obtain ⟨talk, tail, owed'', rfl, htalk, hend⟩ := h'
  exact ⟨deeds ++ talk, tail, owed'', (List.append_assoc _ _ _).symm, h.append htalk, hend⟩

/-- Nothing is said behind the answers. -/
theorem Talk.ends (h : Talk handler owed deeds owed') (h' : Ending handler owed' [] standing) :
    Says handler owed deeds standing :=
  ⟨deeds, [], owed', (List.append_nil _).symm, h, h'⟩

theorem Ending.saysOnly (h : Ending handler owed deeds standing) :
    Says handler owed deeds standing :=
  ⟨[], deeds, owed, rfl, .silent owed, h⟩

end Talk

/-! ## One turn -/

section Turns

variable (handler : Request → Answer) (onTheWay : Bool) (p : Head.Parsed) (version : Version)
  (i : Inlet)

/-- A switch follows exactly when the answer grants it. -/
theorem sequel_beq_switch (a : Answer) :
    (sequel p a == .switch) = (a.status == .switchingProtocols) := by
  rw [sequel]
  cases a.status == .switchingProtocols with
  | true => rfl
  | false =>
    rw [if_neg Bool.false_ne_true]
    split <;> rfl

theorem says_refuse (f : Fault) : (refuse version f i).Says handler false := by
  unfold refuse
  split
  · exact (Ending.closed false _).saysOnly
  · split
    · exact (Ending.closed false _).saysOnly
    · rename_i status hstatus
      split
      · exact (Ending.refused version hstatus).saysOnly
      · exact (Ending.closed false _).saysOnly

theorem says_reuse {owed : Bool} {deeds : List Deed} (h : Talk handler owed deeds false)
    (next : Inlet → Turn) (hnext : ∀ j, (next j).Says handler owed) :
    (reuse deeds version i next).Says handler owed := by
  unfold reuse
  split
  · exact hnext _
  · rename_i j _
    exact h.ends (.waiting (.ofInlet j (.head 0) version))
  · exact h.ends (.closed false none)
  · exact h.ends (.closed false (some .reset))

theorem says_respond (body : Body.Attempt) :
    (respond handler onTheWay p body i).Says handler false := by
  have hswitch := sequel_beq_switch p (handler p.request)
  have htalk : Talk handler false
      [.handle p.request, .write (frame p.request p.keepAlive (handler p.request)).bytes]
      (sequel p (handler p.request) == .switch) := by
    rw [hswitch]
    exact .answered p.request p.keepAlive (.silent _)
  unfold respond
  dsimp only
  split
  · split
    · rename_i _ hseq
      rw [hseq] at hswitch
      exact (Ending.abandoned p.request (by simpa using hswitch.symm)).saysOnly
    · rename_i _ hseq
      have hno : (sequel p (handler p.request) == .switch) = false := by simpa using hseq
      rw [hno] at hswitch
      exact (Ending.unanswered p.request (by simpa using hswitch.symm)).saysOnly
  · split
    · rename_i rest
      split
      · exact htalk
      · exact htalk.ends (.paused
          (.ofInlet i.release (.body rest (sequel p (handler p.request))) p.request.version))
    · rename_i rest
      split
      · exact htalk
      · exact htalk.ends (.paused
          (.ofInlet i.release (.body rest (sequel p (handler p.request))) p.request.version))
    · rename_i hseq
      rw [hseq] at htalk
      exact says_reuse handler _ _ htalk _ fun j => htalk
    · rename_i hseq
      rw [hseq] at htalk
      exact htalk.ends (.switched i.release.buffer)
    · exact htalk.ends (.closed _ none)

theorem says_serve : (serve handler onTheWay p i).Says handler false := by
  unfold serve
  split
  · split
    · exact says_respond ..
    · exact says_respond ..
    · exact (Ending.closed false _).saysOnly
    · exact (Ending.closed false _).saysOnly
  · exact says_respond ..

theorem says_headTurn (seen : Nat) :
    (headTurn handler onTheWay seen version i).Says handler false := by
  unfold headTurn
  split
  · exact says_serve ..
  · exact says_refuse ..
  · rename_i j _
    exact (Ending.waiting (.ofInlet j (.head j.buffer.length) version)).saysOnly
  · exact (Ending.closed false _).saysOnly

theorem says_bodyTurn (rest : Body.Rest) (next : Sequel) :
    (bodyTurn handler rest next version i).Says handler (next == .switch) := by
  unfold bodyTurn
  dsimp only
  split
  · exact says_reuse handler _ _ (.silent false) _ fun j => says_headTurn ..
  · exact (Ending.switched _).saysOnly
  · exact (Ending.closed _ none).saysOnly

theorem says_turn (phase : Phase) :
    (turn handler phase version i).Says handler phase.owesSwitch := by
  cases phase with
  | head seen => exact says_headTurn ..
  | body rest next => exact says_bodyTurn ..

end Turns

/-! ## All turns -/

theorem says_takeTurns {handler : Request → Answer} {turns : Nat} {phase : Phase}
    {version : Version} {i : Inlet} {done deeds : List Deed} {standing : Standing} {w : Wire}
    (h : takeTurns handler turns phase version i done = (deeds, standing, w)) :
    ∃ more, deeds = done.reverse ++ more ∧ Says handler phase.owesSwitch more standing := by
  induction turns generalizing phase version i done with
  | zero =>
    cases h
    exact ⟨[], (List.append_nil _).symm, (Ending.paused (.ofInlet i phase version)).saysOnly⟩
  | succ turns ih =>
    have hturn := says_turn handler version i phase
    rw [takeTurns] at h
    split at h
    · rename_i more _ _ hstop
      rw [hstop] at hturn
      cases h
      exact ⟨more, by simp, hturn⟩
    · rename_i front next version' j hagain
      rw [hagain] at hturn
      obtain ⟨more, hdeeds, hsays⟩ := ih h
      exact ⟨front ++ more, by simp [hdeeds], Talk.saysMore hturn hsays⟩

/-- Whatever waits on a connection, what happens on it are answers and an ending. -/
theorem talk_poll {handler : Request → Answer} {c : Connection} {w v : Wire} {deeds : List Deed}
    {standing : Standing} (h : c.poll handler w = (deeds, standing, v)) :
    Says handler c.phase.owesSwitch deeds standing := by
  obtain ⟨more, rfl, hsays⟩ := says_takeTurns h
  exact hsays

/-! ## What is left to be read -/

/-- A connection that waits after a turn has at most `n` bytes left. -/
def Turn.Keeps (n : Nat) : Turn → Prop
  | .stop _ (.waiting c) w => (c.inlet w).remaining ≤ n
  | _ => True

theorem Turn.Keeps.mono {t : Turn} {m n : Nat} (h : t.Keeps m) (hle : m ≤ n) : t.Keeps n := by
  unfold Turn.Keeps at h ⊢
  split
  · exact Nat.le_trans h hle
  · trivial

section Keeps

variable (handler : Request → Answer) (onTheWay : Bool) (p : Head.Parsed) (version : Version)
  (i : Inlet) (n : Nat)

theorem remaining_awaitHead_of_blocked {seen : Nat} {i j : Inlet}
    (h : awaitHead seen i = .blocked j) : j.remaining = i.remaining := by
  fun_induction awaitHead seen i with
  | case1 | case2 | case3 | case6 | case7 => cases h
  | case4 seen i _ _ k hk _ ih => exact (ih h).trans (Inlet.read_filled hk).1
  | case5 seen i _ _ k hk =>
    cases h
    exact Inlet.read_blocked hk

theorem keeps_refuse (f : Fault) : (refuse version f i).Keeps n := by
  unfold refuse
  split
  · trivial
  · split
    · trivial
    · split <;> trivial

theorem keeps_reuse (deeds : List Deed) (next : Inlet → Turn)
    (hnext : ∀ j, j.remaining = i.remaining → (next j).Keeps i.remaining) :
    (reuse deeds version i next).Keeps i.remaining := by
  unfold reuse
  split
  · rename_i hj
    exact hnext _ (Inlet.fill_filled hj)
  · rename_i hj
    exact Nat.le_of_eq (Inlet.fill_blocked hj)
  all_goals trivial

theorem keeps_respond (body : Body.Attempt) :
    (respond handler onTheWay p body i).Keeps i.remaining := by
  unfold respond
  dsimp only
  split
  · split <;> trivial
  · split
    · split <;> trivial
    · split <;> trivial
    · exact keeps_reuse _ i.release _ _ fun _ _ => trivial
    · trivial
    · trivial

theorem keeps_serve : (serve handler onTheWay p i).Keeps i.remaining := by
  have hhold : (if p.retains then i.hold else i).remaining = i.remaining := by split <;> rfl
  have hfirst := remaining_firstAttempt p (if p.retains then i.hold else i)
  rw [hhold] at hfirst
  unfold serve
  split
  · rename_i k hk
    rw [hk] at hfirst
    split
    · rename_i j hj
      exact (keeps_respond ..).mono (Nat.le_trans (Nat.le_of_eq (Inlet.fill_filled hj)) hfirst)
    · rename_i j hj
      exact (keeps_respond ..).mono (Nat.le_trans (Nat.le_of_eq (Inlet.fill_blocked hj)) hfirst)
    all_goals trivial
  · rename_i k _ hk
    rw [hk] at hfirst
    exact (keeps_respond ..).mono hfirst

theorem keeps_headTurn (seen : Nat) :
    (headTurn handler onTheWay seen version i).Keeps i.remaining := by
  unfold headTurn
  split
  · rename_i hj
    exact (keeps_serve ..).mono (Nat.le_of_lt (remaining_awaitHead hj))
  · exact keeps_refuse ..
  · rename_i hj
    exact Nat.le_of_eq (remaining_awaitHead_of_blocked hj)
  · trivial

theorem keeps_turn (phase : Phase) : (turn handler phase version i).Keeps i.remaining := by
  cases phase with
  | head seen => exact keeps_headTurn ..
  | body rest next =>
    have hbody := Body.remaining_attempt rest i
    rw [turn, bodyTurn]
    dsimp only
    split
    · exact (keeps_reuse version (Body.attempt rest i).2.release _ _ fun j hj =>
        (keeps_headTurn ..).mono (Nat.le_of_eq hj)).mono hbody
    · trivial
    · trivial

end Keeps

theorem remaining_takeTurns_waiting {handler : Request → Answer} {turns : Nat} {phase : Phase}
    {version : Version} {i : Inlet} {done deeds : List Deed} {c : Connection} {w : Wire}
    (h : takeTurns handler turns phase version i done = (deeds, .waiting c, w)) :
    (c.inlet w).remaining ≤ i.remaining := by
  induction turns generalizing phase version i done with
  | zero => cases h
  | succ turns ih =>
    have hkeeps := keeps_turn handler version i phase
    have hleaves := leaves_turn handler phase version i
    rw [takeTurns] at h
    split at h
    · rename_i hstop
      rw [hstop] at hkeeps
      cases h
      exact hkeeps
    · rename_i hagain
      rw [hagain] at hleaves
      exact Nat.le_trans (ih h) (Nat.le_of_lt hleaves)

/-- A connection that waits has nothing more to be read than before. -/
theorem remaining_poll_waiting {handler : Request → Answer} {c d : Connection} {w v : Wire}
    {deeds : List Deed} (h : c.poll handler w = (deeds, .waiting d, v)) :
    (d.inlet v).remaining ≤ (c.inlet w).remaining :=
  remaining_takeTurns_waiting h

end WebSocketEcho.Http
