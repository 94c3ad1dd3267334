import WebSocketEcho.Proofs.Report.Numbers

/-!
# Skipped values are values

The machine that skips values keeps the brackets that are still open on a stack.  What it does
behind a value depends on the stack alone (`Skip.closed`), so a value is read in the same way inside
any brackets, and the machine can be compared with the grammar phrase by phrase.

`reads_of_derives` goes by induction over the phrase.  `finds` goes by induction over the length of
the text, and inside it from a value to the parts of a shorter text, and from the parts to the value
that each of them starts with or ends in.
-/

namespace WebSocketEcho.Report.Skip

open Grammar

/-- What the machine finds behind a value inside these brackets. -/
def closed (stack : List Bracket) (rest : Bytes) : Option (Unit × Bytes) :=
  if stack.isEmpty then some ((), rest) else scan? Partial.feed ⟨stack, .afterItem⟩ rest

/-- Where a part of a bracket starts. -/
def Bracket.wanted : Bracket → Phase
  | .list => .value
  | .object => .key

section Steps

variable {stack : List Bracket} {c : Bracket} {p : Partial} {b : UInt8}

theorem closed_cons (c : Bracket) (stack : List Bracket) (rest : Bytes) :
    closed (c :: stack) rest = scan? Partial.feed ⟨c :: stack, .afterItem⟩ rest := rfl

/-- A value that ends with this byte. -/
theorem scan?_of_close (h : p.feed b = close stack) (rest : Bytes) :
    scan? Partial.feed p (b :: rest) = closed stack rest := by
  rw [scan?, h, close, closed]
  cases stack <;> rfl

/-- A value that has ended before this byte. -/
theorem scan?_of_afterItem (h : p.feed b = feedAfterItem stack b) (rest : Bytes) :
    scan? Partial.feed p (b :: rest) = closed stack (b :: rest) := by
  cases stack with
  | nil => exact scan?_of_before h rest
  | cons c stack =>
    rw [scan?, h]
    rfl

/-- What a byte of a token, or the byte behind it, does inside brackets. -/
def resume {α : Type} (stack : List Bracket) (phase : α → Phase) (b : UInt8) :
    Feed α Unit → Feed Partial Unit
  | .more t => .more ⟨stack, phase t⟩
  | .last () => close stack
  | .before () => feedAfterItem stack b
  | .fail cause place => .fail cause place

/-- A token is read by its own machine, and then its bracket goes on. -/
theorem scan?_of_resume {α : Type} {feed : α → UInt8 → Feed α Unit} {phase : α → Phase}
    (hfeed : ∀ t b, Partial.feed ⟨stack, phase t⟩ b = resume stack phase b (feed t b)) (t : α)
    (text : Bytes) :
    scan? Partial.feed ⟨stack, phase t⟩ text =
      (scan? feed t text).bind fun found => closed stack found.2 := by
  induction text generalizing t with
  | nil => rfl
  | cons b text ih =>
    have hb := hfeed t b
    cases hstep : feed t b with
    | more t' =>
      rw [hstep] at hb
      rw [scan?_of_more hb, scan?_of_more hstep, ih]
    | last result =>
      rw [hstep] at hb
      rw [scan?_of_close hb, scan?_of_last hstep]
      rfl
    | before result =>
      rw [hstep] at hb
      rw [scan?_of_afterItem hb, scan?_of_before hstep]
      rfl
    | fail cause place =>
      rw [hstep] at hb
      rw [scan?_of_fail hb, scan?_of_fail hstep]
      rfl

theorem scan?_text (stack : List Bracket) (t : Quoted.Skipped) (text : Bytes) :
    scan? Partial.feed ⟨stack, .text t⟩ text =
      (scan? (flip Quoted.Skipped.feed) t text).bind fun found => closed stack found.2 := by
  apply scan?_of_resume
  intro t b
  rw [Partial.feed, flip]
  dsimp only
  cases t.feed b <;> rfl

theorem scan?_number (stack : List Bracket) (n : NumberPhase) (text : Bytes) :
    scan? Partial.feed ⟨stack, .number n⟩ text =
      (scan? NumberPhase.feed n text).bind fun found => closed stack found.2 := by
  apply scan?_of_resume
  intro n b
  rw [Partial.feed]
  dsimp only
  cases n.feed b <;> rfl

theorem scan?_wordTail (stack : List Bracket) (tail text : Bytes) :
    scan? Partial.feed ⟨stack, .word tail⟩ text =
      (scan? Word.feed tail text).bind fun found => closed stack found.2 := by
  apply scan?_of_resume
  intro tail b
  rw [Partial.feed]
  dsimp only
  cases Word.feed tail b <;> rfl

/-- A skipped string ends with its quote, never before a byte. -/
theorem skipped_feed_ne_before (t : Quoted.Skipped) (b : UInt8) : t.feed b ≠ .before () := by
  cases t with
  | plain =>
    rw [Quoted.Skipped.feed]
    split
    · simp
    · split
      · simp
      · split <;> simp
  | escape =>
    rw [Quoted.Skipped.feed]
    split
    · simp
    · split <;> simp
  | hex digits =>
    rw [Quoted.Skipped.feed]
    split
    · simp
    · split <;> simp

/-- A key is followed by its colon. -/
theorem scan?_keyText (stack : List Bracket) (t : Quoted.Skipped) (text : Bytes) :
    scan? Partial.feed ⟨stack, .keyText t⟩ text =
      (scan? (flip Quoted.Skipped.feed) t text).bind fun found =>
        scan? Partial.feed ⟨stack, .colon⟩ found.2 := by
  induction text generalizing t with
  | nil => rfl
  | cons b text ih =>
    rw [scan?, scan?, Partial.feed, flip]
    dsimp only
    cases hstep : t.feed b with
    | more t' => exact ih t'
    | last result => rfl
    | before result => exact absurd hstep (skipped_feed_ne_before t b)
    | fail cause place => rfl

/-! ## Blanks -/

theorem feed_value_blank (stack : List Bracket) {b : UInt8} (hb : isBlank b = true) :
    Partial.feed ⟨stack, .value⟩ b = .more ⟨stack, .value⟩ := if_pos hb

theorem feed_key_blank (stack : List Bracket) {b : UInt8} (hb : isBlank b = true) :
    Partial.feed ⟨stack, .key⟩ b = .more ⟨stack, .key⟩ := if_pos hb

theorem feed_colon_blank (stack : List Bracket) {b : UInt8} (hb : isBlank b = true) :
    Partial.feed ⟨stack, .colon⟩ b = .more ⟨stack, .colon⟩ := if_pos hb

theorem feed_opened_blank (c : Bracket) (stack : List Bracket) {b : UInt8}
    (hb : isBlank b = true) :
    Partial.feed ⟨c :: stack, .opened⟩ b = .more ⟨c :: stack, .opened⟩ := if_pos hb

theorem feed_afterItem_blank (c : Bracket) (stack : List Bracket) {b : UInt8}
    (hb : isBlank b = true) :
    Partial.feed ⟨c :: stack, .afterItem⟩ b = .more ⟨c :: stack, .afterItem⟩ := if_pos hb

end Steps

/-! ## Phrases are read -/

/-- The words are read, each behind the letter that tells it. -/
theorem scan?_of_word {text tail : Bytes} (h : text ∈ words) (stack : List Bracket) :
    scan? Partial.feed ⟨stack, .value⟩ (text ++ tail) = closed stack tail := by
  have hword : ∀ (w : Word) (letter : UInt8),
      Partial.feed ⟨stack, .value⟩ letter = .more ⟨stack, .word w.tail⟩ →
        scan? Partial.feed ⟨stack, .value⟩ (letter :: (w.tail ++ tail)) = closed stack tail := by
    intro w letter hletter
    have htail : scan? Word.feed w.tail (w.tail ++ tail) = some ((), tail) :=
      (scan?_word (by cases w <;> decide) _ _).2 rfl
    rw [scan?_of_more hletter, scan?_wordTail, htail]
    rfl
  simp only [words, List.mem_cons, List.not_mem_nil, or_false] at h
  rcases h with rfl | rfl | rfl
  · exact hword .null 0x6E rfl
  · exact hword .yes 0x74 rfl
  · exact hword .no 0x66 rfl

/-- The first byte of a number that has no sign. -/
theorem feed_value_digit (stack : List Bracket) {b : UInt8} (hb : Ascii.isDigit b = true) :
    ∃ q, NumberPhase.next? b .minus = some q ∧
      Partial.feed ⟨stack, .value⟩ b = .more ⟨stack, .number q⟩ := by
  have hblank : ¬ isBlank b = true := by
    rw [isBlank_iff]
    rintro (rfl | rfl | rfl | rfl) <;> cases hb
  have hfeed : Partial.feed ⟨stack, .value⟩ b = feedValue stack b := rfl
  rw [hfeed, feedValue, if_neg hblank, if_neg (ne_of_isDigit hb rfl),
    if_neg (ne_of_isDigit hb rfl), if_neg (ne_of_isDigit hb rfl), if_neg (ne_of_isDigit hb rfl)]
  by_cases hzero : b = 0x30
  · exact ⟨.zero, if_pos hzero, if_pos hzero⟩
  · exact ⟨.integer, by rw [NumberPhase.next?, if_neg hzero, if_pos hb],
      by rw [if_neg hzero, if_pos hb]⟩

theorem scan?_of_isNumber {text tail : Bytes} (h : IsNumber text) (htail : Delimited tail)
    (stack : List Bracket) :
    scan? Partial.feed ⟨stack, .value⟩ (text ++ tail) = closed stack tail := by
  cases h with
  | @intro sign whole fraction exponent hsign hw hf he =>
    have hnumber := scan?_of_isWhole hw hf he htail
    rw [List.append_assoc, List.append_assoc, List.append_assoc]
    rcases hsign with rfl | rfl
    · obtain ⟨d, ds, hd, rfl⟩ := hw.exists_cons
      obtain ⟨q, hnext, hfeed⟩ := feed_value_digit stack hd
      rw [List.cons_append, scan?_of_next? hnext] at hnumber
      rw [List.nil_append, List.cons_append, scan?_of_more hfeed, scan?_number, hnumber]
      rfl
    · have hminus : Partial.feed ⟨stack, .value⟩ 0x2D = .more ⟨stack, .number .minus⟩ := rfl
      rw [List.cons_append, scan?_of_more hminus, scan?_number, List.nil_append, hnumber]
      rfl

/-! ### Brackets -/

section Brackets

variable {c : Bracket} {stack : List Bracket} {text : Bytes} {x : Unit × Bytes}

theorem isDelimiter_closing (c : Bracket) : IsDelimiter c.closing := by
  cases c with
  | list => exact Or.inr (Or.inr (Or.inl rfl))
  | object => exact Or.inr (Or.inr (Or.inr rfl))

theorem feed_wanted_blank (c : Bracket) (stack : List Bracket) {b : UInt8}
    (hb : isBlank b = true) :
    Partial.feed ⟨stack, c.wanted⟩ b = .more ⟨stack, c.wanted⟩ := by
  cases c with
  | list => exact feed_value_blank stack hb
  | object => exact feed_key_blank stack hb

/-- Behind an opening bracket a first part is read as it is read behind a comma. -/
theorem feed_opened {b : UInt8} (hblank : isBlank b = false) (hclosing : b ≠ c.closing) :
    Partial.feed ⟨c :: stack, .opened⟩ b = Partial.feed ⟨c :: stack, c.wanted⟩ b := by
  cases c <;> simp [Partial.feed, feedOpened, hblank, hclosing, Bracket.wanted]

theorem feed_opened_closing (c : Bracket) (stack : List Bracket) :
    Partial.feed ⟨c :: stack, .opened⟩ c.closing = close stack := by
  cases c <;> rfl

/-- Behind an opening bracket there is the closing one, or a first part. -/
theorem scan?_opened (c : Bracket) (stack : List Bracket) {blanks : Bytes} (h : Blanks blanks)
    (rest : Bytes) :
    scan? Partial.feed ⟨c :: stack, .opened⟩ (blanks ++ c.closing :: rest) = closed stack rest := by
  rw [scan?_of_blanks (fun b => feed_opened_blank c stack) h,
    scan?_of_close (feed_opened_closing c stack)]

theorem scan?_opened_of_wanted
    (h : scan? Partial.feed ⟨c :: stack, c.wanted⟩ text = some x) :
    scan? Partial.feed ⟨c :: stack, .opened⟩ text = some x := by
  obtain ⟨blanks, rest, hblanks, rfl, hrest⟩ := exists_blanks text
  rw [scan?_of_blanks (fun b => feed_wanted_blank c _) hblanks] at h
  rw [scan?_of_blanks (fun b => feed_opened_blank c stack) hblanks]
  cases rest with
  | nil => cases h
  | cons b rest =>
    by_cases hclosing : b = c.closing
    · -- No part starts with the closing bracket.
      subst hclosing
      cases c <;> cases h
    · rw [scan?, feed_opened (hrest b rfl) hclosing]
      exact h

theorem opened_cases (h : scan? Partial.feed ⟨c :: stack, .opened⟩ text = some x) :
    (∃ blanks tail, Blanks blanks ∧ text = blanks ++ c.closing :: tail ∧
        closed stack tail = some x) ∨
      scan? Partial.feed ⟨c :: stack, c.wanted⟩ text = some x := by
  obtain ⟨blanks, rest, hblanks, rfl, hrest⟩ := exists_blanks text
  rw [scan?_of_blanks (fun b => feed_opened_blank c stack) hblanks] at h
  rw [scan?_of_blanks (fun b => feed_wanted_blank c _) hblanks]
  cases rest with
  | nil => cases h
  | cons b rest =>
    by_cases hclosing : b = c.closing
    · subst hclosing
      rw [scan?_of_close (feed_opened_closing c stack)] at h
      exact Or.inl ⟨blanks, rest, hblanks, rfl, h⟩
    · rw [scan?, feed_opened (hrest b rfl) hclosing] at h
      exact Or.inr h

theorem feed_opening (c : Bracket) (stack : List Bracket) :
    Partial.feed ⟨stack, .value⟩ (opening c) = .more ⟨c :: stack, .opened⟩ := by
  cases c <;> rfl

/-- A part is followed by the closing bracket, or by a comma and another part. -/
theorem closed_closing (c : Bracket) (stack : List Bracket) (rest : Bytes) :
    closed (c :: stack) (c.closing :: rest) = closed stack rest := by
  rw [closed_cons]
  apply scan?_of_close
  cases c <;> rfl

theorem closed_comma (c : Bracket) (stack : List Bracket) (rest : Bytes) :
    closed (c :: stack) (0x2C :: rest) = scan? Partial.feed ⟨c :: stack, c.wanted⟩ rest := by
  rw [closed_cons]
  apply scan?_of_more
  cases c <;> rfl

theorem closed_blanks (c : Bracket) (stack : List Bracket) {blanks : Bytes} (h : Blanks blanks)
    (rest : Bytes) : closed (c :: stack) (blanks ++ rest) = closed (c :: stack) rest :=
  scan?_of_blanks (fun _ => feed_afterItem_blank c stack) h rest

end Brackets

/-- What the machine does with a phrase inside any brackets, when it reads what follows. -/
def Reads : Phrase → Bytes → Prop
  | .value, text => ∀ stack tail x, Delimited tail → closed stack tail = some x →
    scan? Partial.feed ⟨stack, .value⟩ (text ++ tail) = some x
  | .part c, text => ∀ stack tail x, Delimited tail → closed (c :: stack) tail = some x →
    scan? Partial.feed ⟨c :: stack, c.wanted⟩ (text ++ tail) = some x
  | .parts c, text => ∀ stack tail x, closed stack tail = some x →
    scan? Partial.feed ⟨c :: stack, c.wanted⟩ (text ++ c.closing :: tail) = some x

theorem reads_of_derives {phrase : Phrase} {text : Bytes} (h : Derives phrase text) :
    Reads phrase text := by
  induction h with
  | word h =>
    intro stack tail x htail hx
    rw [scan?_of_word h, hx]
  | number h =>
    intro stack tail x htail hx
    rw [scan?_of_isNumber h htail, hx]
  | quoted h =>
    intro stack tail x htail hx
    have hquote : Partial.feed ⟨stack, .value⟩ 0x22 = .more ⟨stack, .text .plain⟩ := rfl
    rw [List.cons_append, scan?_of_more hquote, scan?_text, List.append_assoc,
      List.singleton_append, Quoted.scan?_of_isQuoted h]
    exact hx
  | empty c h =>
    intro stack tail x htail hx
    rw [List.cons_append, scan?_of_more (feed_opening c stack), List.append_assoc,
      List.singleton_append, scan?_opened c stack h, hx]
  | full c h ih =>
    intro stack tail x htail hx
    rw [List.cons_append, scan?_of_more (feed_opening c stack), List.append_assoc,
      List.singleton_append]
    exact scan?_opened_of_wanted (ih stack tail x hx)
  | item hbefore h hafter ih =>
    intro stack tail x htail hx
    have hstart : Bracket.list.wanted = .value := rfl
    rw [hstart, List.append_assoc, List.append_assoc,
      scan?_of_blanks (fun _ => feed_value_blank _) hbefore]
    exact ih _ _ x (htail.append hafter) (by rw [closed_blanks _ _ hafter, hx])
  | member l hkey h ih =>
    intro stack tail x htail hx
    have hstart : Bracket.object.wanted = .key := rfl
    have hquote : Partial.feed ⟨.object :: stack, .key⟩ 0x22 =
        .more ⟨.object :: stack, .keyText .plain⟩ := rfl
    have hcolon : Partial.feed ⟨.object :: stack, .colon⟩ 0x3A =
        .more ⟨.object :: stack, .value⟩ := rfl
    have hvalue : scan? Partial.feed ⟨.object :: stack, .value⟩
        (l.value ++ (l.after ++ tail)) = some x :=
      ih _ _ x (htail.append l.after_blanks) (by rw [closed_blanks _ _ l.after_blanks, hx])
    simp only [Layout.bytes, List.append_assoc, List.cons_append]
    rw [hstart, scan?_of_blanks (fun _ => feed_key_blank _) l.before_blanks, scan?_of_more hquote,
      scan?_keyText, Quoted.scan?_of_isQuoted hkey]
    show scan? _ _ _ = _
    rw [scan?_of_blanks (fun _ => feed_colon_blank _) l.afterKey_blanks, scan?_of_more hcolon,
      scan?_of_blanks (fun _ => feed_value_blank _) l.beforeValue_blanks, hvalue]
  | @last c _ h ih =>
    intro stack tail x hx
    exact ih stack _ x (.cons (isDelimiter_closing c) tail) (by rw [closed_closing, hx])
  | @more c _ _ h hrest ih ihrest =>
    intro stack tail x hx
    rw [List.append_assoc, List.cons_append]
    have hcomma : IsDelimiter 0x2C := Or.inr (Or.inl rfl)
    exact ih stack _ x (.cons hcomma _) (by rw [closed_comma, ihrest stack tail x hx])

/-! ## What is read is a phrase -/

/-- What a text starts with when the machine goes through it. -/
def Finds : Phrase → Bytes → Prop
  | .value, text => ∀ stack x, scan? Partial.feed ⟨stack, .value⟩ text = some x →
    ∃ blanks value tail, Blanks blanks ∧ Derives .value value ∧ text = blanks ++ (value ++ tail) ∧
      closed stack tail = some x
  | .part c, text => ∀ stack x, scan? Partial.feed ⟨c :: stack, c.wanted⟩ text = some x →
    ∃ part tail, Derives (.part c) part ∧ text = part ++ tail ∧
      (∀ b ∈ tail.head?, isBlank b = false) ∧ closed (c :: stack) tail = some x
  | .parts c, text => ∀ stack x, scan? Partial.feed ⟨c :: stack, c.wanted⟩ text = some x →
    ∃ parts tail, Derives (.parts c) parts ∧ text = parts ++ c.closing :: tail ∧
      closed stack tail = some x

theorem isNumber_of_finishes {token : Bytes} (h : Finishes .minus token) :
    IsNumber token ∧ IsNumber (0x2D :: token) := by
  obtain ⟨whole, fraction, exponent, hw, hf, he, rfl⟩ := h
  exact ⟨.intro (Or.inl rfl) hw hf he, .intro (Or.inr rfl) hw hf he⟩

/-- The first letter of a word. -/
theorem feed_value_letter (stack : List Bracket) {b : UInt8} {w : Word}
    (hb : Word.begin? b = some w) :
    b :: w.tail ∈ words ∧ Partial.feed ⟨stack, .value⟩ b = .more ⟨stack, .word w.tail⟩ := by
  unfold Word.begin? at hb
  split at hb
  · rename_i hb'
    cases hb
    subst hb'
    exact ⟨by decide, rfl⟩
  · split at hb
    · rename_i hb'
      cases hb
      subst hb'
      exact ⟨by decide, rfl⟩
    · rw [Option.ite_none_right_eq_some, Option.some.injEq] at hb
      obtain ⟨rfl, rfl⟩ := hb
      exact ⟨by decide, rfl⟩

/-- A byte that starts no value. -/
theorem feed_value_fail (stack : List Bracket) {b : UInt8} (hblank : isBlank b = false)
    (hopening : ∀ c, b ≠ opening c) (hquote : b ≠ 0x22) (hminus : b ≠ 0x2D)
    (hdigit : Ascii.isDigit b = false) (hletter : Word.begin? b = none) :
    Partial.feed ⟨stack, .value⟩ b = .fail .expectedValue .past := by
  have hlist : b ≠ 0x5B := hopening .list
  have hobject : b ≠ 0x7B := hopening .object
  have hzero : b ≠ 0x30 := by
    rintro rfl
    cases hdigit
  simp [Partial.feed, feedValue, hblank, hlist, hobject, hquote, hminus, hzero, hdigit, hletter]

/-- A text starts with a value, without blanks before it, and the stack goes on behind it. -/
def Starts (stack : List Bracket) (text : Bytes) (x : Unit × Bytes) : Prop :=
  ∃ value tail, Derives .value value ∧ text = value ++ tail ∧ closed stack tail = some x

section Starts

variable {stack : List Bracket} {b : UInt8} {rest : Bytes} {x : Unit × Bytes}

theorem starts_brackets {c : Bracket} (h : Finds (.parts c) rest)
    (hx : scan? Partial.feed ⟨stack, .value⟩ (opening c :: rest) = some x) :
    Starts stack (opening c :: rest) x := by
  rw [scan?_of_more (feed_opening c stack)] at hx
  rcases opened_cases hx with ⟨inside, tail, hinside, rfl, htail⟩ | hparts
  · exact ⟨_, tail, .empty c hinside, by simp, htail⟩
  · obtain ⟨parts, tail, hderives, rfl, htail⟩ := h stack x hparts
    exact ⟨_, tail, .full c hderives, by simp, htail⟩

theorem starts_quoted (hx : scan? Partial.feed ⟨stack, .value⟩ (0x22 :: rest) = some x) :
    Starts stack (0x22 :: rest) x := by
  have hfeed : Partial.feed ⟨stack, .value⟩ 0x22 = .more ⟨stack, .text .plain⟩ := rfl
  rw [scan?_of_more hfeed, scan?_text] at hx
  obtain ⟨⟨⟨⟩, tail⟩, htext, htail⟩ := Option.bind_eq_some_iff.1 hx
  obtain ⟨body, hbody, rfl⟩ := Quoted.exists_isQuoted htext
  exact ⟨_, tail, .quoted hbody, by simp, htail⟩

/-- What a phase waits for makes a number of the byte that led to it. -/
theorem starts_number {q : NumberPhase}
    (hfeed : Partial.feed ⟨stack, .value⟩ b = .more ⟨stack, .number q⟩)
    (h : ∀ token, Finishes q token → IsNumber (b :: token))
    (hx : scan? Partial.feed ⟨stack, .value⟩ (b :: rest) = some x) :
    Starts stack (b :: rest) x := by
  rw [scan?_of_more hfeed, scan?_number] at hx
  obtain ⟨⟨⟨⟩, tail⟩, hnumber, htail⟩ := Option.bind_eq_some_iff.1 hx
  obtain ⟨token, htoken, rfl⟩ := exists_finishes hnumber
  exact ⟨b :: token, tail, .number (h token htoken), rfl, htail⟩

theorem starts_word {w : Word} (hletter : Word.begin? b = some w)
    (hx : scan? Partial.feed ⟨stack, .value⟩ (b :: rest) = some x) :
    Starts stack (b :: rest) x := by
  obtain ⟨hword, hfeed⟩ := feed_value_letter stack hletter
  rw [scan?_of_more hfeed, scan?_wordTail] at hx
  obtain ⟨⟨⟨⟩, tail⟩, htext, htail⟩ := Option.bind_eq_some_iff.1 hx
  have hne : w.tail ≠ [] := by cases w <;> decide
  rw [scan?_word hne] at htext
  subst htext
  exact ⟨b :: w.tail, tail, .word hword, rfl, htail⟩

/-- The first byte tells the kind of the value. -/
theorem starts_cons (hblank : isBlank b = false) (h : ∀ c, Finds (.parts c) rest)
    (hx : scan? Partial.feed ⟨stack, .value⟩ (b :: rest) = some x) :
    Starts stack (b :: rest) x := by
  by_cases hopening : ∃ c, b = opening c
  · obtain ⟨c, rfl⟩ := hopening
    exact starts_brackets (h c) hx
  by_cases hquote : b = 0x22
  · subst hquote
    exact starts_quoted hx
  by_cases hminus : b = 0x2D
  · subst hminus
    exact starts_number rfl (fun _ htoken => (isNumber_of_finishes htoken).2) hx
  by_cases hdigit : Ascii.isDigit b = true
  · obtain ⟨q, hnext, hfeed⟩ := feed_value_digit stack hdigit
    exact starts_number hfeed
      (fun _ htoken => (isNumber_of_finishes (finishes_cons hnext htoken)).1) hx
  cases hletter : Word.begin? b with
  | some w => exact starts_word hletter hx
  | none =>
    have hfail := feed_value_fail stack hblank (fun c hc => hopening ⟨c, hc⟩) hquote hminus
      (Bool.eq_false_iff.2 hdigit) hletter
    rw [scan?_of_fail hfail] at hx
    cases hx

end Starts

theorem finds_value {text : Bytes}
    (h : ∀ c rest, rest.length < text.length → Finds (.parts c) rest) : Finds .value text := by
  intro stack x hx
  obtain ⟨blanks, rest, hblanks, rfl, hrest⟩ := exists_blanks text
  rw [scan?_of_blanks (fun _ => feed_value_blank stack) hblanks] at hx
  cases rest with
  | nil => cases hx
  | cons b rest =>
    have hshorter : rest.length < (blanks ++ b :: rest).length := by
      simp only [List.length_append, List.length_cons]
      omega
    obtain ⟨value, tail, hvalue, heq, htail⟩ :=
      starts_cons (hrest b rfl) (fun c => h c rest hshorter) hx
    exact ⟨blanks, value, tail, hblanks, hvalue, by rw [heq], htail⟩

/-- The blanks behind a value belong to its part. -/
theorem exists_after {c : Bracket} {stack : List Bracket} {text : Bytes} {x : Unit × Bytes}
    (h : closed (c :: stack) text = some x) :
    ∃ blanks tail, Blanks blanks ∧ text = blanks ++ tail ∧ (∀ b ∈ tail.head?, isBlank b = false) ∧
      closed (c :: stack) tail = some x := by
  obtain ⟨blanks, tail, hblanks, rfl, htail⟩ := exists_blanks text
  rw [closed_blanks c stack hblanks] at h
  exact ⟨blanks, tail, hblanks, rfl, htail, h⟩

theorem exists_quote {stack : List Bracket} {text : Bytes} {x : Unit × Bytes}
    (h : scan? Partial.feed ⟨stack, .key⟩ text = some x) :
    ∃ blanks rest, Blanks blanks ∧ text = blanks ++ 0x22 :: rest ∧
      scan? Partial.feed ⟨stack, .keyText .plain⟩ rest = some x := by
  obtain ⟨blanks, rest, hblanks, rfl, hrest⟩ := exists_blanks text
  rw [scan?_of_blanks (fun _ => feed_key_blank stack) hblanks] at h
  cases rest with
  | nil => cases h
  | cons b rest =>
    by_cases hquote : b = 0x22
    · subst hquote
      exact ⟨blanks, rest, hblanks, rfl, h⟩
    · rw [scan?_of_fail (show Partial.feed ⟨stack, .key⟩ b = .fail .keyNotString .past by
        simp [Partial.feed, feedKey, hrest b rfl, hquote])] at h
      cases h

theorem exists_colon {stack : List Bracket} {text : Bytes} {x : Unit × Bytes}
    (h : scan? Partial.feed ⟨stack, .colon⟩ text = some x) :
    ∃ blanks rest, Blanks blanks ∧ text = blanks ++ 0x3A :: rest ∧
      scan? Partial.feed ⟨stack, .value⟩ rest = some x := by
  obtain ⟨blanks, rest, hblanks, rfl, hrest⟩ := exists_blanks text
  rw [scan?_of_blanks (fun _ => feed_colon_blank stack) hblanks] at h
  cases rest with
  | nil => cases h
  | cons b rest =>
    by_cases hcolon : b = 0x3A
    · subst hcolon
      exact ⟨blanks, rest, hblanks, rfl, h⟩
    · rw [scan?_of_fail (show Partial.feed ⟨stack, .colon⟩ b = .fail .expectedColon .past by
        simp [Partial.feed, hrest b rfl, hcolon])] at h
      cases h

theorem finds_part {text : Bytes} (h : ∀ rest, rest.length ≤ text.length → Finds .value rest)
    (c : Bracket) : Finds (.part c) text := by
  intro stack x hx
  cases c with
  | list =>
    obtain ⟨before, value, rest, hbefore, hvalue, rfl, hrest⟩ := h text (Nat.le_refl _) _ x hx
    obtain ⟨after, tail, hafter, rfl, hhead, htail⟩ := exists_after hrest
    exact ⟨_, tail, .item hbefore hvalue hafter, by simp, hhead, htail⟩
  | object =>
    obtain ⟨before, inside, hbefore, rfl, hinside⟩ := exists_quote hx
    rw [scan?_keyText] at hinside
    obtain ⟨⟨⟨⟩, behind⟩, hkey, hbehind⟩ := Option.bind_eq_some_iff.1 hinside
    obtain ⟨key, hquoted, rfl⟩ := Quoted.exists_isQuoted hkey
    obtain ⟨afterKey, rest, hafterKey, rfl, hrest⟩ := exists_colon hbehind
    have hshorter : rest.length ≤
        (before ++ 0x22 :: (key ++ 0x22 :: (afterKey ++ 0x3A :: rest))).length := by
      simp only [List.length_append, List.length_cons]
      omega
    obtain ⟨beforeValue, value, others, hbeforeValue, hvalue, rfl, hothers⟩ :=
      h rest hshorter _ x hrest
    obtain ⟨after, tail, hafter, rfl, hhead, htail⟩ := exists_after hothers
    exact ⟨_, tail,
      .member ⟨before, key, afterKey, beforeValue, value, after, hbefore, hafterKey, hbeforeValue,
        hafter⟩ hquoted hvalue, by simp [Layout.bytes], hhead, htail⟩

/-- What the machine goes on with behind a part. -/
theorem afterItem_cases {c : Bracket} {stack : List Bracket} {tail : Bytes} {x : Unit × Bytes}
    (hhead : ∀ b ∈ tail.head?, isBlank b = false) (h : closed (c :: stack) tail = some x) :
    (∃ rest, tail = 0x2C :: rest ∧ scan? Partial.feed ⟨c :: stack, c.wanted⟩ rest = some x) ∨
      ∃ rest, tail = c.closing :: rest ∧ closed stack rest = some x := by
  cases tail with
  | nil => cases h
  | cons b rest =>
    by_cases hcomma : b = 0x2C
    · subst hcomma
      rw [closed_comma] at h
      exact Or.inl ⟨rest, rfl, h⟩
    by_cases hclosing : b = c.closing
    · subst hclosing
      rw [closed_closing] at h
      exact Or.inr ⟨rest, rfl, h⟩
    rw [closed_cons, scan?_of_fail (show Partial.feed ⟨c :: stack, .afterItem⟩ b =
      .fail c.unclosed .past by simp [Partial.feed, feedAfterItem, hhead b rfl, hcomma, hclosing])]
      at h
    cases h

theorem finds_parts {text : Bytes} {c : Bracket} (hpart : Finds (.part c) text)
    (h : ∀ rest, rest.length < text.length → Finds (.parts c) rest) : Finds (.parts c) text := by
  intro stack x hx
  obtain ⟨part, tail, hderives, rfl, hhead, htail⟩ := hpart stack x hx
  rcases afterItem_cases hhead htail with ⟨rest, rfl, hrest⟩ | ⟨rest, rfl, hrest⟩
  · have hshorter : rest.length < (part ++ 0x2C :: rest).length := by
      simp only [List.length_append, List.length_cons]
      omega
    obtain ⟨parts, behind, hparts, rfl, hbehind⟩ := h rest hshorter stack x hrest
    exact ⟨_, behind, .more hderives hparts, by simp, hbehind⟩
  · exact ⟨part, rest, .last hderives, rfl, hrest⟩

/-- The parts of shorter texts give the values of a text, and these its parts. -/
theorem finds (phrase : Phrase) (text : Bytes) : Finds phrase text := by
  have hparts : ∀ (n : Nat) (c : Bracket) (text : Bytes), text.length = n →
      Finds (.parts c) text := by
    intro n
    induction n using Nat.strongRecOn with
    | ind n ih =>
      rintro c text rfl
      have hvalue : ∀ rest : Bytes, rest.length ≤ text.length → Finds .value rest :=
        fun rest hrest => finds_value fun c shorter hshorter =>
          ih _ (Nat.lt_of_lt_of_le hshorter hrest) c shorter rfl
      exact finds_parts (finds_part hvalue c) fun rest hrest => ih _ hrest c rest rfl
  have hvalue : ∀ text, Finds .value text :=
    fun text => finds_value fun c rest _ => hparts _ c rest rfl
  cases phrase with
  | value => exact hvalue text
  | part c => exact finds_part (fun rest _ => hvalue rest) c
  | parts c => exact hparts _ c text rfl

/-! ## Whole values -/

/-- A value is skipped, with the blanks before it, up to what may stand behind it. -/
theorem scan?_of_isValue {blanks value tail : Bytes} (hblanks : Blanks blanks)
    (h : Derives .value value) (htail : Delimited tail) :
    scan? Partial.feed .start (blanks ++ (value ++ tail)) = some ((), tail) := by
  rw [Partial.start, scan?_of_blanks (fun _ => feed_value_blank []) hblanks]
  exact reads_of_derives h [] tail _ htail rfl

/-- What has been skipped is a value, with the blanks before it. -/
theorem exists_isValue {text tail : Bytes} (h : scan? Partial.feed .start text = some ((), tail)) :
    ∃ blanks value, Blanks blanks ∧ Derives .value value ∧ text = blanks ++ (value ++ tail) := by
  obtain ⟨blanks, value, rest, hblanks, hvalue, rfl, hrest⟩ := finds .value text [] _ h
  obtain rfl : rest = tail := by
    rw [closed] at hrest
    exact congrArg Prod.snd (Option.some.inj hrest)
  exact ⟨blanks, value, hblanks, hvalue, rfl⟩

end WebSocketEcho.Report.Skip
