import WebSocketEcho.Proofs.Frame.Received
import WebSocketEcho.Proofs.Session.Conversation
import WebSocketEcho.Proofs.Utf8.Accepted

/-!
# The rules of a session

`rules` lists what a frame can do wrong, in the order in which it counts: what is reported is the
first rule of the list that is broken (`FirstBroken`), however many others the frame breaks.  A rule
is a statement about the frame and the message under way, `Underway`, which is the kind and the
payload so far.

`Legal` are frames that break no rule and do not close, with the replies to them, and `Ends` is what
can come behind them that fails a session.  `course_of_ends` says how a session reads both.  The
induction is over the legal frames, and `Gathering.Holds` is what it carries: what a session
remembers of a message tells the kind, the payload, and where the checker stands behind it.
-/

namespace WebSocketEcho

/-- A message whose last fragment is still to come, with its payload so far. -/
structure Underway where
  kind : Kind
  payload : Bytes

/-- What a session remembers of the message under way. -/
structure Gathering.Holds (g : Gathering) (m : Underway) : Prop where
  kind : g.kind = m.kind
  payload : g.pieces.reverse.flatten = m.payload
  check : m.kind = .text → Utf8.run .boundary m.payload = some g.check

namespace Session

/-! ## What frames mean -/

section Rules

variable (m : Option Underway) (f : ReceivedFrame)

/-- The message that a data frame starts or goes on with, up to the end of that frame. -/
def joined : Opcode → Option Underway
  | .text => some ⟨.text, f.payload⟩
  | .binary => some ⟨.binary, f.payload⟩
  | .continuation => m.map fun m => ⟨m.kind, m.payload ++ f.payload⟩
  | .close | .ping | .pong => none

/-- A text is spoilt when no text begins with it, or when it is all there and not a text. -/
def Spoilt (o : Opcode) : Prop :=
  ∃ t, joined m f o = some t ∧ t.kind = .text ∧
    (¬ Utf8.BeginsText t.payload ∨ f.header.fin = true ∧ ¬ Utf8.IsText t.payload)

/-- What breaks a rule, and how it is reported. -/
def rules (o : Opcode) : List (Prop × Failure) :=
  [(f.header.reserved = true, .protocol .reservedBits),
    (f.header.key = none, .protocol .unmasked),
    (isControl o = true ∧ f.header.fin = false, .protocol .fragmentedControl),
    (isControl o = true ∧ 125 < f.payload.length, .protocol .controlTooBig),
    (o = .close ∧ f.payload.length = 1, .protocol .malformedClose),
    (o = .close ∧ ¬ Utf8.IsText (f.payload.drop 2), .notUtf8),
    (o = .continuation ∧ m = none, .protocol .nothingToContinue),
    (o = .text ∧ m ≠ none, .protocol (.interrupted .text)),
    (o = .binary ∧ m ≠ none, .protocol (.interrupted .binary)),
    (Spoilt m f o, .notUtf8)]

/-- The message under way behind a frame that keeps the rules. -/
def next (o : Opcode) : Option Underway :=
  if isControl o then m else if f.header.fin then none else joined m f o

/-- The replies to a frame that keeps the rules and does not close. -/
def answers (o : Opcode) : List Reply :=
  match o with
  | .ping => [.pong f.payload]
  | .pong | .close => []
  | .continuation | .text | .binary =>
    if f.header.fin then (joined m f o).toList.map fun t => .echo t.kind t.payload else []

end Rules

/-- Every rule is kept. -/
def Keeps (rules : List (Prop × Failure)) : Prop := ∀ rule ∈ rules, ¬ rule.1

/-- The first rule that is broken is reported like this. -/
inductive FirstBroken : List (Prop × Failure) → Failure → Prop where
  | here {broken : Prop} {failure : Failure} {rest : List (Prop × Failure)} (h : broken) :
      FirstBroken ((broken, failure) :: rest) failure
  | later {broken : Prop} {other failure : Failure} {rest : List (Prop × Failure)}
      (h : ¬ broken) (hrest : FirstBroken rest failure) :
      FirstBroken ((broken, other) :: rest) failure

theorem exists_firstBroken_or_keeps (rules : List (Prop × Failure)) :
    (∃ failure, FirstBroken rules failure) ∨ Keeps rules := by
  induction rules with
  | nil => exact Or.inr fun _ h => nomatch h
  | cons rule rest ih =>
    by_cases h : rule.1
    · exact Or.inl ⟨rule.2, .here h⟩
    · rcases ih with ⟨failure, hrest⟩ | hrest
      · exact Or.inl ⟨failure, .later h hrest⟩
      · exact Or.inr (List.forall_mem_cons.2 ⟨h, hrest⟩)

/-- Frames in sequence that keep the rules and do not close: the message under way before and after
them, and the replies. -/
inductive Legal : Option Underway → List ReceivedFrame → Option Underway → List Reply → Prop where
  | nil (m : Option Underway) : Legal m [] m []
  | cons {m m' : Option Underway} {f : ReceivedFrame} {o : Opcode} {frames : List ReceivedFrame}
      {replies : List Reply} (ho : f.header.opcode? = some o) (hclose : o ≠ .close)
      (hkeeps : Keeps (rules m f o)) (h : Legal (next m f o) frames m' replies) :
      Legal m (f :: frames) m' (answers m f o ++ replies)

/-- What comes behind legal frames and fails a session: a header with a reserved opcode or a frame
that breaks a rule, whatever follows, or the end of the stream before either is there. -/
inductive Ends (m : Option Underway) : Bytes → Bool → Failure → Prop where
  | reserved {h : FrameHeader} (hh : h.opcode? = none) (rest : Bytes) (finished : Bool) :
      Ends m (h.bytes ++ rest) finished (.protocol (.reservedOpcode h.opcodeNumber))
  | broken {f : ReceivedFrame} {o : Opcode} {failure : Failure} (ho : f.header.opcode? = some o)
      (hbroken : FirstBroken (rules m f o) failure) (rest : Bytes) (finished : Bool) :
      Ends m (f.bytes ++ rest) finished failure
  | stopped {tail : Bytes} (htail : Partial tail) : Ends m tail true (.protocol .unfinished)

/-- What fails a session that its client has not closed goes on to fail it. -/
theorem Ends.append {m : Option Underway} {tail : Bytes} {failure : Failure}
    (h : Ends m tail false failure) (more : Bytes) (finished : Bool) :
    Ends m (tail ++ more) finished failure := by
  cases h with
  | reserved hh rest =>
    rw [List.append_assoc]
    exact .reserved hh (rest ++ more) finished
  | broken ho hbroken rest =>
    rw [List.append_assoc]
    exact .broken ho hbroken (rest ++ more) finished

/-! ## How a frame is judged -/

section Judge

variable {g : Option Gathering} {m : Option Underway} {f : ReceivedFrame} {o : Opcode}
  {failure : Failure}

/-- The checks that all frames have in common stand in front of those of the opcode. -/
theorem judge_eq (g : Option Gathering) (f : ReceivedFrame) (o : Opcode) :
    judge g (f.frame o) =
      if f.header.reserved = true then .fail (.protocol .reservedBits)
      else if f.header.key = none then .fail (.protocol .unmasked)
      else if isControl o = true ∧ f.header.fin = false then .fail (.protocol .fragmentedControl)
      else if isControl o = true ∧ 125 < f.payload.length then .fail (.protocol .controlTooBig)
      else judgeOpcode g (f.frame o) := by
  have hlong : (f.payload.drop 125).length ≠ 0 ↔ 125 < f.payload.length := by
    rw [List.length_drop]
    omega
  rw [judge]
  simp only [ReceivedFrame.frame, Bool.and_eq_true, Bool.not_eq_true', decide_eq_true_eq, hlong,
    Option.isSome_eq_false_iff, Option.isNone_iff_eq_none]

section Join

variable {a : Gathering} {b : Underway} {fin : Bool} {payload : Bytes}

theorem join_pieces (ha : a.Holds b) (payload : Bytes) :
    Bytes.join (payload :: a.pieces).reverse = b.payload ++ payload := by
  rw [Bytes.join_eq_flatten, ← ha.payload]
  simp

theorem join_of_spoilt (ha : a.Holds b) (hkind : b.kind = .text)
    (h : ¬ Utf8.BeginsText (b.payload ++ payload) ∨
      fin = true ∧ ¬ Utf8.IsText (b.payload ++ payload)) :
    join a fin payload = .fail .notUtf8 := by
  have hrun : Utf8.run .boundary (b.payload ++ payload) = Utf8.run a.check payload := by
    rw [Utf8.run_append, ha.check hkind]
    rfl
  rw [← Utf8.run_eq_none_iff, ← Utf8.run_eq_boundary_iff, hrun] at h
  rw [join, ha.kind, hkind]
  cases hcheck : Utf8.run a.check payload with
  | none => rfl
  | some check =>
    rw [hcheck] at h
    rcases h with h | ⟨rfl, h⟩
    · cases h
    · have hne : check ≠ .boundary := fun heq => h (by rw [heq])
      simp [hne]

/-- The last fragment completes a message that is not spoilt. -/
theorem join_last_of_not_spoilt (ha : a.Holds b)
    (h : b.kind = .text → Utf8.IsText (b.payload ++ payload)) :
    join a true payload = .message b.kind (b.payload ++ payload) := by
  rw [join_last, ha.kind, ha.payload]
  intro hkind
  rw [ha.kind] at hkind
  have hrun := Utf8.run_eq_boundary_iff.2 (h hkind)
  rw [Utf8.run_append, ha.check hkind] at hrun
  exact hrun

/-- Any other fragment leaves a message that is not spoilt to be completed. -/
theorem join_more_of_not_spoilt (ha : a.Holds b)
    (h : b.kind = .text → Utf8.BeginsText (b.payload ++ payload)) :
    ∃ a' : Gathering, join a false payload = .proceed (some a') ∧
      a'.Holds ⟨b.kind, b.payload ++ payload⟩ := by
  have hpieces : (payload :: a.pieces).reverse.flatten = b.payload ++ payload := by
    rw [← Bytes.join_eq_flatten, join_pieces ha]
  cases hkind : b.kind with
  | binary =>
    refine ⟨⟨.binary, payload :: a.pieces, a.check⟩, ?_, rfl, hpieces, fun htext => ?_⟩
    · simp [join, ha.kind, hkind]
    · cases htext
  | text =>
    have hrun : Utf8.run .boundary (b.payload ++ payload) = Utf8.run a.check payload := by
      rw [Utf8.run_append, ha.check hkind]
      rfl
    cases hcheck : Utf8.run a.check payload with
    | none =>
      rw [hcheck, Utf8.run_eq_none_iff] at hrun
      exact absurd (h hkind) hrun
    | some check =>
      refine ⟨⟨.text, payload :: a.pieces, check⟩, ?_, rfl, hpieces, fun _ => hrun.trans hcheck⟩
      simp [join, ha.kind, hkind, hcheck]

end Join

/-- A data frame in its place is a fragment of some message. -/
theorem exists_join (hg : Option.Rel Gathering.Holds g m) (ho : isControl o = false)
    (h₁ : ¬ (o = .continuation ∧ m = none)) (h₂ : ¬ (o = .text ∧ m ≠ none))
    (h₃ : ¬ (o = .binary ∧ m ≠ none)) :
    ∃ (a : Gathering) (b : Underway), a.Holds b ∧
      joined m f o = some ⟨b.kind, b.payload ++ f.payload⟩ ∧
        judgeOpcode g (f.frame o) = join a f.header.fin f.payload := by
  have hempty : ∀ kind : Kind, Gathering.Holds ⟨kind, [], .boundary⟩ ⟨kind, []⟩ :=
    fun kind => ⟨rfl, rfl, fun _ => rfl⟩
  cases hg with
  | none =>
    cases o with
    | continuation => exact absurd ⟨rfl, rfl⟩ h₁
    | text => exact ⟨_, _, hempty .text, rfl, rfl⟩
    | binary => exact ⟨_, _, hempty .binary, rfl, rfl⟩
    | close | ping | pong => cases ho
  | some hholds =>
    cases o with
    | continuation => exact ⟨_, _, hholds, rfl, rfl⟩
    | text => exact absurd ⟨rfl, by simp⟩ h₂
    | binary => exact absurd ⟨rfl, by simp⟩ h₃
    | close | ping | pong => cases ho

/-- A close frame of one byte says nothing, and its reason is a text. -/
theorem judgeClose_of_broken {payload : Bytes}
    (h : payload.length = 1 ∧ failure = .protocol .malformedClose ∨
      payload.length ≠ 1 ∧ ¬ Utf8.IsText (payload.drop 2) ∧ failure = .notUtf8) :
    judgeClose payload = .fail failure := by
  match payload, h with
  | [], .inr ⟨_, htext, _⟩ => exact absurd ⟨"", rfl⟩ htext
  | [_], .inl ⟨_, hfailure⟩ => rw [hfailure, judgeClose]
  | [_], .inr ⟨hlength, _⟩ => exact absurd rfl hlength
  | high :: low :: reason, .inr ⟨_, htext, hfailure⟩ =>
    have hvalid : ¬ Utf8.isValid reason = true := fun h => htext (Utf8.isValid_iff.1 h)
    rw [judgeClose, if_neg hvalid, hfailure]

/-- A frame that breaks a rule of its opcode first. -/
theorem judgeOpcode_of_firstBroken (hg : Option.Rel Gathering.Holds g m)
    (h : FirstBroken ((rules m f o).drop 4) failure) :
    judgeOpcode g (f.frame o) = .fail failure := by
  cases h with
  | here h =>
    obtain ⟨rfl, hlength⟩ := h
    exact judgeClose_of_broken (Or.inl ⟨hlength, rfl⟩)
  | later h₅ h =>
  cases h with
  | here h =>
    obtain ⟨rfl, htext⟩ := h
    exact judgeClose_of_broken (Or.inr ⟨fun hlength => h₅ ⟨rfl, hlength⟩, htext, rfl⟩)
  | later _ h =>
  cases h with
  | here h =>
    obtain ⟨rfl, rfl⟩ := h
    cases hg
    rfl
  | later h₇ h =>
  cases h with
  | here h =>
    obtain ⟨rfl, hm⟩ := h
    cases hg with
    | none => exact absurd rfl hm
    | some => rfl
  | later h₈ h =>
  cases h with
  | here h =>
    obtain ⟨rfl, hm⟩ := h
    cases hg with
    | none => exact absurd rfl hm
    | some => rfl
  | later h₉ h =>
  cases h with
  | here h =>
    obtain ⟨t, ht, hkind, hspoilt⟩ := h
    have ho : isControl o = false := by
      cases o with
      | close | ping | pong => cases ht
      | continuation | text | binary => rfl
    obtain ⟨a, b, hab, hjoined, hjudge⟩ := exists_join (f := f) hg ho h₇ h₈ h₉
    rw [hjoined] at ht
    cases ht
    rw [hjudge]
    exact join_of_spoilt hab hkind hspoilt
  | later _ h => cases h

/-- The first rule that a frame breaks is the verdict on it. -/
theorem judge_of_firstBroken (hg : Option.Rel Gathering.Holds g m)
    (h : FirstBroken (rules m f o) failure) : judge g (f.frame o) = .fail failure := by
  rw [judge_eq]
  cases h with
  | here h => rw [if_pos h]
  | later h₁ h =>
  cases h with
  | here h => rw [if_neg h₁, if_pos h]
  | later h₂ h =>
  cases h with
  | here h => rw [if_neg h₁, if_neg h₂, if_pos h]
  | later h₃ h =>
  cases h with
  | here h => rw [if_neg h₁, if_neg h₂, if_neg h₃, if_pos h]
  | later h₄ h =>
    rw [if_neg h₁, if_neg h₂, if_neg h₃, if_neg h₄]
    exact judgeOpcode_of_firstBroken hg h

end Judge

/-! ## How frames are read -/

section Read

variable {g : Option Gathering} {m m' : Option Underway} {f : ReceivedFrame} {o : Opcode}
  {frames : List ReceivedFrame} {replies : List Reply} {tail : Bytes} {finished : Bool}
  {failure : Failure}

theorem consume_received (ho : f.header.opcode? = some o) (echoed : UInt64) (rest : Bytes) :
    consume g echoed (f.bytes ++ rest) [] =
      match judge g (f.frame o) with
      | .proceed g => consume g echoed rest []
      | .message kind payload =>
        before [.send (.echo kind payload)] (consume none (echoed + 1) rest [])
      | .ping payload => before [.send (.pong payload)] (consume g echoed rest [])
      | .close farewell =>
        ([.note farewell, .send (.close farewell)], .ended (.peerClosed echoed))
      | .fail failure => ([], .ended (.failed failure)) :=
  consume_of_frame (ReceivedFrame.decode_bytes ho rest)

/-- A frame that keeps the rules is answered, and the session goes on with the message that is then
under way. -/
theorem consume_kept (hg : Option.Rel Gathering.Holds g m) (ho : f.header.opcode? = some o)
    (hclose : o ≠ .close) (hkeeps : Keeps (rules m f o)) (echoed : UInt64) :
    ∃ g' echoed', Option.Rel Gathering.Holds g' (next m f o) ∧
      ∀ rest, consume g echoed (f.bytes ++ rest) [] =
        before ((answers m f o).map .send) (consume g' echoed' rest []) := by
  simp only [Keeps, rules, List.forall_mem_cons] at hkeeps
  obtain ⟨h₁, h₂, h₃, h₄, _, _, h₇, h₈, h₉, h₁₀, _⟩ := hkeeps
  have hread := consume_received (g := g) ho echoed
  rw [judge_eq, if_neg h₁, if_neg h₂, if_neg h₃, if_neg h₄] at hread
  by_cases hcontrol : isControl o = true
  · rw [next, if_pos hcontrol]
    cases o with
    | continuation | text | binary => cases hcontrol
    | close => exact absurd rfl hclose
    | ping => exact ⟨g, echoed, hg, hread⟩
    | pong => exact ⟨g, echoed, hg, hread⟩
  · have hdata : isControl o = false := Bool.eq_false_iff.2 hcontrol
    obtain ⟨a, b, hab, hjoined, hjudge⟩ := exists_join (f := f) hg hdata h₇ h₈ h₉
    have hsound : b.kind = .text → Utf8.BeginsText (b.payload ++ f.payload) ∧
        (f.header.fin = true → Utf8.IsText (b.payload ++ f.payload)) := by
      intro hkind
      refine ⟨Classical.byContradiction fun h => h₁₀ ?_, fun hfin =>
        Classical.byContradiction fun h => h₁₀ ?_⟩
      · exact ⟨_, hjoined, hkind, Or.inl h⟩
      · exact ⟨_, hjoined, hkind, Or.inr ⟨hfin, h⟩⟩
    have hanswers : answers m f o =
        if f.header.fin then [.echo b.kind (b.payload ++ f.payload)] else [] := by
      cases o with
      | close | ping | pong => cases hdata
      | continuation | text | binary =>
        rw [answers, hjoined]
        rfl
    rw [next, if_neg hcontrol, hanswers, hjoined]
    rw [hjudge] at hread
    cases hfin : f.header.fin with
    | true =>
      rw [hfin, join_last_of_not_spoilt hab fun hkind => (hsound hkind).2 hfin] at hread
      exact ⟨none, echoed + 1, .none, hread⟩
    | false =>
      obtain ⟨a', hproceed, ha'⟩ := join_more_of_not_spoilt hab fun hkind => (hsound hkind).1
      rw [hfin, hproceed] at hread
      exact ⟨some a', echoed, .some ha', hread⟩

/-- Legal frames are answered one after the other. -/
theorem consume_legal (hlegal : Legal m frames m' replies) (hg : Option.Rel Gathering.Holds g m)
    (echoed : UInt64) :
    ∃ g' echoed', Option.Rel Gathering.Holds g' m' ∧
      ∀ rest, consume g echoed (frames.flatMap (·.bytes) ++ rest) [] =
        before (replies.map .send) (consume g' echoed' rest []) := by
  induction hlegal generalizing g echoed with
  | nil m => exact ⟨g, echoed, hg, fun rest => rfl⟩
  | cons ho hclose hkeeps _ ih =>
    obtain ⟨g₁, echoed₁, hg₁, hfirst⟩ := consume_kept hg ho hclose hkeeps echoed
    obtain ⟨g₂, echoed₂, hg₂, hothers⟩ := ih hg₁ echoed₁
    refine ⟨g₂, echoed₂, hg₂, fun rest => ?_⟩
    rw [List.flatMap_cons, List.append_assoc, hfirst, hothers, before_before, List.map_append]

/-- Behind them the session fails, or it waits for a stream that has ended. -/
theorem consume_of_ends (hends : Ends m tail finished failure)
    (hg : Option.Rel Gathering.Holds g m) (echoed : UInt64) :
    consume g echoed tail [] = ([], .ended (.failed failure)) ∨
      finished = true ∧ failure = .protocol .unfinished ∧
        ∃ s, consume g echoed tail [] = ([], .waiting s) := by
  cases hends with
  | reserved hh rest =>
    exact Or.inl (consume_of_reservedOpcode (FrameHeader.decode_of_reserved hh rest))
  | broken ho hbroken rest =>
    rw [consume_received ho, judge_of_firstBroken hg hbroken]
    exact Or.inl rfl
  | stopped htail =>
    exact Or.inr ⟨rfl, rfl, _, consume_of_incomplete (Frame.decode_of_partial htail)⟩

/-- Every stream is legal frames and then what fails a session when the stream ends there, unless a
close frame that keeps the rules comes first. -/
theorem exists_legal (m : Option Underway) (bytes : Bytes) :
    ∃ frames m' replies tail, Legal m frames m' replies ∧
      bytes = frames.flatMap (·.bytes) ++ tail ∧
        ((∃ failure, Ends m' tail true failure) ∨
          ∃ (f : ReceivedFrame) (rest : Bytes), f.header.opcode? = some .close ∧
            Keeps (rules m' f .close) ∧ tail = f.bytes ++ rest) := by
  induction hn : bytes.length using Nat.strongRecOn generalizing m bytes with
  | ind n ih =>
    cases hd : Frame.decode bytes with
    | incomplete =>
      exact ⟨[], m, [], bytes, .nil m, rfl,
        Or.inl ⟨_, .stopped (Frame.partial_of_incomplete hd)⟩⟩
    | reservedOpcode number =>
      obtain ⟨h, rest, hh, rfl⟩ := Frame.exists_header_of_reservedOpcode hd
      exact ⟨[], m, [], _, .nil m, rfl, Or.inl ⟨_, .reserved hh rest true⟩⟩
    | frame g rest =>
      have hlt := Frame.length_lt_of_decode hd
      obtain ⟨f, o, ho, rfl⟩ := Frame.exists_received_of_decode hd
      rcases exists_firstBroken_or_keeps (rules m f o) with ⟨failure, hbroken⟩ | hkeeps
      · exact ⟨[], m, [], _, .nil m, rfl, Or.inl ⟨_, .broken ho hbroken rest true⟩⟩
      · by_cases hclose : o = .close
        · subst hclose
          exact ⟨[], m, [], _, .nil m, rfl, Or.inr ⟨f, rest, ho, hkeeps, rfl⟩⟩
        · obtain ⟨frames, m', replies, tail, hlegal, rfl, htail⟩ :=
            ih _ (hn ▸ hlt) (next m f o) rest rfl
          refine ⟨f :: frames, m', _, tail, .cons ho hclose hkeeps hlegal, ?_, htail⟩
          rw [List.flatMap_cons, List.append_assoc]

end Read

end Session

end WebSocketEcho
