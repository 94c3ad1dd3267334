import Mathlib.Tactic.ByContra
import WebSocketEcho.Http.Connection
import WebSocketEcho.Proofs.Http.HeadGrammar

/-!
# Heads in pieces

A reader of heads that has decided stays with it, whatever follows (`persists_readRaw`), so before
its end a head is incomplete (`readRaw_of_front`).  A connection looks at its buffer again only when
a blank line has come; a head ends with one by its grammar, and it is never missed
(`attempt_of_head`).

`awaitHead_of_front` and `awaitHead_of_head` say what this means for a connection whose client sends
a head in pieces: it waits as long as the head is not complete, and then it has read the head and
what follows it is left, in the buffer or on the wire.
-/

namespace WebSocketEcho.Http

/-- The same reading in front of more input. -/
def Reading.extended {α : Type} (more : Bytes) : Reading α → Reading α
  | .incomplete => .incomplete
  | .fault f => .fault f
  | .done value rest => .done value (rest ++ more)

/-- What is read does not depend on what follows. -/
def Persists {α : Type} (read : Bytes → Reading α) : Prop :=
  ∀ bytes more, read bytes ≠ .incomplete → read (bytes ++ more) = (read bytes).extended more

namespace Head

section Persists

theorem persists_andThen {α β : Type} {read : Bytes → Reading α} {next : α → Bytes → Reading β}
    (hread : Persists read) (hnext : ∀ a, Persists (next a)) :
    Persists fun bytes => (read bytes).andThen next := by
  intro bytes more h
  dsimp only at h ⊢
  have hdecided : read bytes ≠ .incomplete := by
    intro hb
    rw [hb] at h
    exact h rfl
  rw [hread bytes more hdecided]
  cases hb : read bytes with
  | incomplete => exact absurd hb hdecided
  | fault f => rfl
  | done a mid =>
    rw [hb] at h
    exact hnext a mid more h

theorem persists_done {α : Type} (value : α) : Persists (Reading.done value) :=
  fun _ _ _ => rfl

theorem persists_fault {α : Type} (f : Fault) : Persists fun _ => (Reading.fault f : Reading α) :=
  fun _ _ _ => rfl

/-- A word that ends inside the input is the same in front of more. -/
theorem takeWhile_append_of_drop_ne_nil {isPart : UInt8 → Bool} {bytes : Bytes}
    (h : bytes.drop (bytes.takeWhile isPart).length ≠ []) (more : Bytes) :
    (bytes ++ more).takeWhile isPart = bytes.takeWhile isPart ∧
      (bytes ++ more).drop (bytes.takeWhile isPart).length =
        bytes.drop (bytes.takeWhile isPart).length ++ more := by
  have hlt : (bytes.takeWhile isPart).length < bytes.length := by
    by_contra hle
    exact h (List.drop_eq_nil_of_le (by omega))
  constructor
  · rw [List.takeWhile_append, if_neg (by omega)]
  · exact List.drop_append_of_le_length (by omega)

theorem persists_readWord (isPart : UInt8 → Bool) (stop : UInt8) (fault : Fault) :
    Persists (readWord isPart stop fault) := by
  intro bytes more h
  have hne : bytes.drop (bytes.takeWhile isPart).length ≠ [] := by
    intro hnil
    apply h
    rw [readWord]
    rw [hnil]
  obtain ⟨htake, hdrop⟩ := takeWhile_append_of_drop_ne_nil hne more
  rw [readWord, readWord, htake, hdrop]
  cases hrest : bytes.drop (bytes.takeWhile isPart).length with
  | nil => exact absurd hrest hne
  | cons b rest =>
    dsimp only [List.cons_append]
    split <;> rfl

theorem persists_readTarget : Persists readTarget := by
  refine persists_andThen (persists_readWord _ _ _) fun target => ?_
  split
  · exact persists_done target
  · exact persists_fault _

/-- What is not the beginning of a version does not become one. -/
theorem readVersion_of_short {bytes : Bytes} (hlen : ¬ 8 ≤ bytes.length)
    (h : ¬ bytes <+: Bytes.ofText "HTTP/1.") (more : Bytes) :
    readVersion (bytes ++ more) = .fault .version := by
  have hlast : ∀ d : UInt8, ¬ bytes <+: Bytes.ofText "HTTP/1." ++ [d] := by
    intro d hd
    rcases List.prefix_concat_iff.1 hd with heq | hp
    · rw [heq] at hlen
      exact hlen (by simp [Bytes.ofText])
    · exact h hp
  rw [readVersion, Bytes.split?_eq]
  by_cases hmore : 8 ≤ (bytes ++ more).length
  · have hword : bytes <+: (bytes ++ more).take 8 := by
      rw [List.take_append, List.take_of_length_le (by omega : bytes.length ≤ 8)]
      exact List.prefix_append _ _
    rw [if_pos hmore]
    dsimp only
    rw [if_neg, if_neg]
    · intro heq
      rw [heq] at hword
      exact hlast 0x30 hword
    · intro heq
      rw [heq] at hword
      exact hlast 0x31 hword
  · rw [if_neg hmore]
    dsimp only
    rw [if_neg]
    rw [List.isPrefixOf_iff_prefix]
    exact fun hp => h ((List.prefix_append bytes more).trans hp)

theorem persists_readVersion : Persists readVersion := by
  intro bytes more h
  by_cases hlen : 8 ≤ bytes.length
  · rw [readVersion, readVersion, Bytes.split?_eq, Bytes.split?_eq, if_pos hlen,
      if_pos (by rw [List.length_append]; omega), List.take_append_of_le_length hlen,
      List.drop_append_of_le_length hlen]
    dsimp only
    split
    · rfl
    · split <;> rfl
  · have hread : readVersion bytes =
        if bytes.isPrefixOf (Bytes.ofText "HTTP/1.") then .incomplete else .fault .version := by
      rw [readVersion, Bytes.split?_eq, if_neg hlen]
    have hprefix : ¬ bytes <+: Bytes.ofText "HTTP/1." := by
      intro hp
      rw [hread, if_pos (List.isPrefixOf_iff_prefix.2 hp)] at h
      exact h rfl
    rw [readVersion_of_short hlen hprefix, hread,
      if_neg fun hp => hprefix (List.isPrefixOf_iff_prefix.1 hp)]
    rfl

theorem readLineEnd_of_ne {b : UInt8} (h : b ≠ 0x0A) (h' : b ≠ 0x0D) (rest : Bytes) :
    readLineEnd (b :: rest) = .fault .header := by
  rw [readLineEnd]
  all_goals intro; simp_all

theorem readLineEnd_of_return {b : UInt8} (h : b ≠ 0x0A) (rest : Bytes) :
    readLineEnd (0x0D :: b :: rest) = .fault .header := by
  rw [readLineEnd]
  all_goals intro; simp_all

theorem persists_readLineEnd : Persists readLineEnd := by
  intro bytes more h
  cases bytes with
  | nil => exact absurd rfl h
  | cons b rest =>
    by_cases hfeed : b = 0x0A
    · rw [hfeed]
      rfl
    by_cases hreturn : b = 0x0D
    · rw [hreturn] at h ⊢
      cases rest with
      | nil => exact absurd rfl h
      | cons d rest =>
        by_cases hfeed' : d = 0x0A
        · rw [hfeed']
          rfl
        · rw [readLineEnd_of_return hfeed']
          exact readLineEnd_of_return hfeed' (rest ++ more)
    · rw [readLineEnd_of_ne hfeed hreturn]
      exact readLineEnd_of_ne hfeed hreturn (rest ++ more)

theorem persists_skipEmptyLines : Persists skipEmptyLines := by
  intro bytes more h
  fun_induction skipEmptyLines bytes with
  | case1 => exact absurd rfl h
  | case2 rest ih => exact ih h
  | case3 => exact absurd rfl h
  | case4 rest ih => exact ih h
  | case5 rest hne hfeed =>
    cases rest with
    | nil => exact absurd rfl hne
    | cons b rest =>
      rw [List.cons_append, List.cons_append, skipEmptyLines]
      · rfl
      all_goals simp_all
  | case6 bytes hne hfeed hreturn hcrlf hcr =>
    cases bytes with
    | nil => exact absurd rfl hne
    | cons b rest =>
      rw [List.cons_append, skipEmptyLines]
      · rfl
      all_goals simp_all

theorem persists_readHeader : Persists readHeader := by
  refine persists_andThen (persists_readWord _ _ _) fun name => ?_
  intro bytes more h
  dsimp only at h ⊢
  have hne : bytes.drop (bytes.takeWhile isValueByte).length ≠ [] := by
    intro hnil
    rw [hnil] at h
    exact h rfl
  obtain ⟨htake, hdrop⟩ := takeWhile_append_of_drop_ne_nil hne more
  rw [htake, hdrop]
  exact persists_andThen persists_readLineEnd
    (fun _ => persists_done (⟨name, Ascii.trimBlanks (bytes.takeWhile isValueByte)⟩ : Header))
    _ more h

theorem BeginsField.append {bytes : Bytes} (h : BeginsField bytes) (hne : bytes ≠ [])
    (more : Bytes) : BeginsField (bytes ++ more) := by
  cases bytes with
  | nil => exact absurd rfl hne
  | cons b rest =>
    refine ⟨h.1, fun hb => ?_⟩
    obtain ⟨hrest, hhead⟩ := h.2 hb
    cases rest with
    | nil => exact absurd rfl hrest
    | cons d rest => exact ⟨List.cons_ne_nil _ _, hhead⟩

/-- Where a header line does not begin, there is a blank line or what may become one. -/
theorem blank_of_not_beginsField {bytes : Bytes} (h : ¬ BeginsField bytes) :
    bytes = [0x0D] ∨ (∃ rest, bytes = 0x0A :: rest) ∨ ∃ rest, bytes = 0x0D :: 0x0A :: rest := by
  cases bytes with
  | nil => exact absurd trivial h
  | cons b rest =>
    by_cases hfeed : b = 0x0A
    · exact Or.inr (Or.inl ⟨rest, by rw [hfeed]⟩)
    · by_cases hreturn : b = 0x0D
      · cases rest with
        | nil => exact Or.inl (by rw [hreturn])
        | cons d rest =>
          by_cases hd : d = 0x0A
          · exact Or.inr (Or.inr ⟨rest, by rw [hreturn, hd]⟩)
          · exact absurd ⟨hfeed, fun _ => ⟨List.cons_ne_nil _ _, by simpa using hd⟩⟩ h
      · exact absurd ⟨hfeed, fun hb => absurd hb hreturn⟩ h

/-- The header lines persist if those behind the first do. -/
theorem persists_headers {room : Nat} {done : List Header}
    (hnext : ∀ header : Header, Persists fun rest =>
      match room with
      | 0 => .fault .tooLarge
      | room + 1 => readHeaders room (header :: done) rest) :
    Persists (readHeaders room done) := by
  intro bytes more h
  by_cases hfield : BeginsField bytes
  · rw [readHeaders_of_field hfield] at h ⊢
    have hne : bytes ≠ [] := by
      rintro rfl
      exact h rfl
    rw [readHeaders_of_field (hfield.append hne more)]
    exact persists_andThen persists_readHeader hnext bytes more h
  · rcases blank_of_not_beginsField hfield with rfl | ⟨rest, rfl⟩ | ⟨rest, rfl⟩
    · exact absurd (by rw [readHeaders]) h
    · rw [List.cons_append, readHeaders_feed, readHeaders_feed]
      rfl
    · rw [List.cons_append, List.cons_append, readHeaders_return, readHeaders_return]
      rfl

theorem persists_readHeaders (room : Nat) (done : List Header) :
    Persists (readHeaders room done) := by
  induction room generalizing done with
  | zero => exact persists_headers fun _ => persists_fault _
  | succ room ih => exact persists_headers fun header => ih (header :: done)

/-- What is read of a head does not depend on what follows it. -/
theorem persists_readRaw : Persists readRaw :=
  persists_andThen persists_skipEmptyLines fun _ =>
  persists_andThen (persists_readWord _ _ _) fun _ =>
  persists_andThen persists_readTarget fun _ =>
  persists_andThen persists_readVersion fun _ =>
  persists_andThen persists_readLineEnd fun _ =>
  persists_andThen (persists_readHeaders _ _) fun _ =>
  persists_done _

end Persists

/-- Before its end a head is incomplete. -/
theorem readRaw_of_front {front more : Bytes} {raw : Raw}
    (h : readRaw (front ++ more) = .done raw []) (hmore : more ≠ []) :
    readRaw front = .incomplete := by
  by_contra hdecided
  have hread := persists_readRaw front more hdecided
  rw [h] at hread
  cases hfront : readRaw front with
  | incomplete => exact hdecided hfront
  | fault f =>
    rw [hfront] at hread
    cases hread
  | done raw' rest =>
    rw [hfront] at hread
    simp only [Reading.extended, Reading.done.injEq] at hread
    exact hmore (List.append_eq_nil_iff.1 hread.2.symm).2

/-- A blank line is found wherever it stands. -/
theorem hasBlankLine_append {blank : Bytes} (h : IsBlankLine blank) (front rest : Bytes) :
    hasBlankLine (front ++ (blank ++ rest)) = true := by
  induction front with
  | nil =>
    rcases h with rfl | rfl
    · rfl
    · rfl
  | cons b front ih =>
    rw [List.cons_append, hasBlankLine.eq_def]
    split
    · rfl
    · rfl
    · rename_i heq
      cases heq
      exact ih
    · rename_i heq
      cases heq

/-! ## Attempts -/

/-- These bytes are a head with nothing behind it, and this is what it says. -/
def Spells (head : Bytes) (p : Parsed) : Prop :=
  ∃ raw, readRaw head = .done raw [] ∧ raw.judge = .ok p

/-- A head is spelled as the grammar has it. -/
theorem spells_iff_isHead {head : Bytes} {p : Parsed} :
    Spells head p ↔ ∃ raw, IsHead raw head ∧ raw.judge = .ok p := by
  simp only [Spells, readRaw_eq_done_iff]

theorem spells_iff {head : Bytes} {p : Parsed} :
    Spells head p ↔
      match readRaw head with
      | .done raw [] => raw.judge = .ok p
      | _ => False := by
  rw [Spells]
  cases readRaw head with
  | incomplete => simp
  | fault f => simp
  | done raw rest =>
    cases rest with
    | nil => simp
    | cons b rest => simp

instance (head : Bytes) (p : Parsed) : Decidable (Spells head p) :=
  match h : readRaw head with
  | .done raw [] =>
    match hjudge : raw.judge with
    | .ok q => decidable_of_iff (q = p) (by simp [spells_iff, h, hjudge])
    | .error _ => .isFalse (by simp [spells_iff, h, hjudge])
  | .done _ (_ :: _) | .fault _ | .incomplete => .isFalse (by simp [spells_iff, h])

section Attempts

variable {head : Bytes} {p : Parsed}

theorem attempt_of_front {front more : Bytes} (h : Spells (front ++ more) p) (hmore : more ≠ [])
    (seen : Nat) : attempt seen front = .incomplete := by
  obtain ⟨raw, hraw, _⟩ := h
  rw [attempt]
  split
  · rfl
  · rw [readRaw_of_front hraw hmore]

/-- The attempt is made when the head is complete: its blank line came after the last attempt. -/
theorem attempt_of_head (h : Spells head p) {seen : Nat} (hseen : seen < head.length)
    (more : Bytes) : attempt seen (head ++ more) = .parsed p more := by
  obtain ⟨raw, hhead, hjudge⟩ := spells_iff_isHead.1 h
  have hread := (reads_readRaw (head ++ more) raw more).2 ⟨head, rfl, hhead⟩
  obtain ⟨blank, hblank, front, hfront⟩ := hhead.ends
  have hshort : blank.length ≤ 3 := by
    rcases hblank with rfl | rfl
    · exact Nat.le_succ 2
    · exact Nat.le_refl 3
  have hlength := congrArg List.length hfront
  rw [List.length_append] at hlength
  have hdrop : (head ++ more).drop (seen - 3) = front.drop (seen - 3) ++ (blank ++ more) := by
    rw [← hfront, List.append_assoc, List.drop_append_of_le_length (by omega)]
  rw [attempt, hdrop, hasBlankLine_append hblank, if_neg, hread]
  · dsimp only
    rw [hjudge]
  · have hne : head ++ more ≠ [] := by
      intro hnil
      rw [(List.append_eq_nil_iff.1 hnil).1] at hseen
      exact Nat.not_lt_zero _ hseen
    simp [List.isEmpty_iff, hne]

end Attempts

end Head

/-- What has come of a stream that begins with the head is a front of the head, or the head and
more. -/
theorem front_or_head {head sent b : Bytes} (h : sent <+: head ++ b) :
    (∃ missing, missing ≠ [] ∧ head = sent ++ missing) ∨ ∃ behind, sent = head ++ behind := by
  rcases List.prefix_or_prefix_of_prefix h (List.prefix_append head b) with
    ⟨missing, hfront⟩ | ⟨behind, hbehind⟩
  · by_cases hmissing : missing = []
    · rw [hmissing, List.append_nil] at hfront
      exact Or.inr ⟨[], by rw [hfront, List.append_nil]⟩
    · exact Or.inl ⟨missing, hmissing, hfront.symm⟩
  · exact Or.inr ⟨behind, hbehind.symm⟩

/-! ## Waiting for a head -/

namespace Inlet

/-- While the client is there, a read takes from the wire what it adds to the buffer, and blocks
when there is nothing. -/
theorem read_of_present {i : Inlet} (h : i.wire.state = .present) :
    i.wire.unread = [] ∧ i.read = .blocked i.prepared ∨
      ∃ j, i.read = .filled j ∧ j.wire.state = .present ∧
        j.buffer ++ j.wire.unread = i.buffer ++ i.wire.unread := by
  rw [read, if_neg (by rw [h]; exact fun heq => nomatch heq), if_pos h]
  cases hunread : i.wire.unread with
  | nil => exact Or.inl ⟨rfl, rfl⟩
  | cons b rest =>
    refine Or.inr ⟨_, if_neg Bool.false_ne_true, h, ?_⟩
    rw [List.append_assoc, List.take_append_drop]

end Inlet

section AwaitHead

variable {head : Bytes} {p : Head.Parsed} {seen : Nat} {i : Inlet}

/-- As long as the head is not complete, all that has come is in the buffer. -/
theorem awaitHead_of_front (seen : Nat) {more : Bytes}
    (hhead : Head.Spells (i.buffer ++ i.wire.unread ++ more) p) (hmore : more ≠ [])
    (hsize : (i.buffer ++ i.wire.unread ++ more).length ≤ Pace.most)
    (hpresent : i.wire.state = .present) :
    ∃ j, awaitHead seen i = .blocked j ∧ j.buffer = i.buffer ++ i.wire.unread ∧
      j.wire = ⟨[], .present⟩ := by
  have hincomplete : ∀ n, Head.attempt n i.buffer = .incomplete := by
    rw [List.append_assoc] at hhead
    exact Head.attempt_of_front hhead (by simp [hmore])
  fun_induction awaitHead seen i with
  | case1 seen i f rest hattempt | case2 seen i q rest hattempt =>
    rw [hincomplete] at hattempt
    cases hattempt
  | case3 seen i _ hmost =>
    have hpos := List.length_pos_iff.2 hmore
    simp only [List.length_append] at hsize
    omega
  | case4 seen i _ _ j hread _ ih =>
    rcases Inlet.read_of_present hpresent with ⟨_, hblocked⟩ | ⟨k, hfilled, hpresent', hsame⟩
    · rw [hblocked] at hread
      cases hread
    · rw [hfilled] at hread
      cases hread
      rw [← hsame] at hhead hsize ⊢
      refine ih hhead hsize hpresent' ?_
      rw [List.append_assoc] at hhead
      exact Head.attempt_of_front hhead (by simp [hmore])
  | case5 seen i _ _ j hread =>
    rcases Inlet.read_of_present hpresent with ⟨hunread, hblocked⟩ | ⟨k, hfilled, _⟩
    · rw [hblocked] at hread
      cases hread
      refine ⟨_, rfl, ?_, ?_⟩
      · rw [hunread, List.append_nil]
        rfl
      · show i.wire = _
        rw [← hpresent, ← hunread]
    · rw [hfilled] at hread
      cases hread
  | case6 seen i _ _ hread | case7 seen i _ _ hread =>
    rcases Inlet.read_of_present hpresent with ⟨_, hblocked⟩ | ⟨k, hfilled, _⟩
    · rw [hblocked] at hread
      cases hread
    · rw [hfilled] at hread
      cases hread

/-- Where a head and more have come, an attempt reads the head if the buffer holds it, and else the
rest of the head is on the wire. -/
theorem attempt_of_come {buffer unread more : Bytes} (hhead : Head.Spells head p)
    (hseen : seen < head.length) (hcome : buffer ++ unread = head ++ more) :
    (∃ behind, Head.attempt seen buffer = .parsed p behind ∧ more = behind ++ unread) ∨
      Head.attempt seen buffer = .incomplete ∧ buffer.length < head.length ∧ unread ≠ [] := by
  rcases List.append_eq_append_iff.1 hcome with
    ⟨missing, hfront, hunread⟩ | ⟨behind, hbuffer, hmore⟩
  · by_cases hmissing : missing = []
    · rw [hmissing, List.append_nil] at hfront
      rw [hmissing, List.nil_append] at hunread
      refine Or.inl ⟨[], ?_, hunread.symm⟩
      rw [← List.append_nil buffer, ← hfront]
      exact Head.attempt_of_head hhead hseen []
    · refine Or.inr ⟨?_, ?_, ?_⟩
      · rw [hfront] at hhead
        exact Head.attempt_of_front hhead hmissing seen
      · have hpos := List.length_pos_iff.2 hmissing
        rw [hfront, List.length_append]
        omega
      · rw [hunread]
        exact fun hnil => hmissing (List.append_eq_nil_iff.1 hnil).1
  · rw [hbuffer]
    exact Or.inl ⟨behind, Head.attempt_of_head hhead hseen behind, hmore⟩

/-- Once the head is complete it has been read, and what follows it is left. -/
theorem awaitHead_of_head {more : Bytes} (hhead : Head.Spells head p)
    (hsize : head.length ≤ Pace.most) (hseen : seen < head.length)
    (hcome : i.buffer ++ i.wire.unread = head ++ more) (hpresent : i.wire.state = .present) :
    ∃ j, awaitHead seen i = .parsed p j ∧ j.buffer ++ j.wire.unread = more ∧
      j.wire.state = .present := by
  fun_induction awaitHead seen i with
  | case1 seen i f rest hattempt =>
    rcases attempt_of_come hhead hseen hcome with ⟨behind, hparsed, _⟩ | ⟨hincomplete, _⟩
    · rw [hparsed] at hattempt
      cases hattempt
    · rw [hincomplete] at hattempt
      cases hattempt
  | case2 seen i q rest hattempt =>
    rcases attempt_of_come hhead hseen hcome with ⟨behind, hparsed, hmore⟩ | ⟨hincomplete, _⟩
    · rw [hparsed] at hattempt
      cases hattempt
      exact ⟨_, rfl, hmore.symm, hpresent⟩
    · rw [hincomplete] at hattempt
      cases hattempt
  | case3 seen i hattempt hmost =>
    rcases attempt_of_come hhead hseen hcome with ⟨behind, hparsed, _⟩ | ⟨_, hlength, _⟩
    · rw [hparsed] at hattempt
      cases hattempt
    · omega
  | case4 seen i hattempt _ j hread _ ih =>
    rcases attempt_of_come hhead hseen hcome with ⟨behind, hparsed, _⟩ | ⟨_, hlength, _⟩
    · rw [hparsed] at hattempt
      cases hattempt
    · rcases Inlet.read_of_present hpresent with ⟨_, hblocked⟩ | ⟨k, hfilled, hpresent', hsame⟩
      · rw [hblocked] at hread
        cases hread
      · rw [hfilled] at hread
        cases hread
        exact ih hlength (hsame.trans hcome) hpresent'
  | case5 seen i hattempt _ _ hread
  | case6 seen i hattempt _ hread
  | case7 seen i hattempt _ hread =>
    -- A read that brings nothing would leave the head unread.
    rcases attempt_of_come hhead hseen hcome with ⟨behind, hparsed, _⟩ | ⟨_, _, hunread⟩
    · rw [hparsed] at hattempt
      cases hattempt
    · rcases Inlet.read_of_present hpresent with ⟨hnil, _⟩ | ⟨k, hfilled, _⟩
      · exact absurd hnil hunread
      · rw [hfilled] at hread
        cases hread

end AwaitHead

end WebSocketEcho.Http
