import Mathlib.Data.List.TakeWhile
import WebSocketEcho.Http.Head

/-!
# The grammar of heads

What a head looks like, as a grammar: empty lines, the request line, header lines and a blank line
(`Head.IsHead`).  A reader is done exactly on the texts of its shape, whatever follows them
(`Reads`), so the next one goes on behind them (`Reads.andThen_append`).  `Head.reads_readRaw` says
this of whole heads.
-/

namespace WebSocketEcho.Http

variable {α β : Type}

/-- The reader is done with a value exactly when what it has taken has this shape. -/
def Reads (read : Bytes → Reading α) (shape : α → Bytes → Prop) : Prop :=
  ∀ bytes value rest, read bytes = .done value rest ↔
    ∃ taken, bytes = taken ++ rest ∧ shape value taken

/-- What has the shape is read, and the next reader goes on behind it. -/
theorem Reads.andThen_append {read : Bytes → Reading α} {shape : α → Bytes → Prop}
    (h : Reads read shape) {a : α} {taken : Bytes} (hshape : shape a taken)
    (next : α → Bytes → Reading β) (rest : Bytes) :
    (read (taken ++ rest)).andThen next = next a rest := by
  rw [(h _ a rest).2 ⟨taken, rfl, hshape⟩, Reading.andThen]

namespace Head

/-! ## Shapes -/

/-- A nonempty word of the given bytes. -/
def IsWord (isPart : UInt8 → Bool) (word : Bytes) : Prop := word ≠ [] ∧ ∀ b ∈ word, isPart b = true

/-- The end of a line, which may lack its carriage return. -/
inductive IsLineEnd : Bytes → Prop where
  | feed : IsLineEnd [0x0A]
  | returnFeed : IsLineEnd [0x0D, 0x0A]

inductive IsEmptyLines : Bytes → Prop where
  | none : IsEmptyLines []
  | line {ending rest : Bytes} (hending : IsLineEnd ending) (hrest : IsEmptyLines rest) :
      IsEmptyLines (ending ++ rest)

/-- A header line.  Blanks around the value are no part of it. -/
inductive IsField (header : Header) : Bytes → Prop where
  | intro {padded ending : Bytes} (hname : IsWord isTokenByte header.name)
      (hpadded : ∀ b ∈ padded, isValueByte b = true)
      (hvalue : Ascii.trimBlanks padded = header.value) (hending : IsLineEnd ending) :
      IsField header (header.name ++ 0x3A :: (padded ++ ending))

/-- Header lines and the blank line behind them. -/
inductive IsFields : List Header → Bytes → Prop where
  | blank {ending : Bytes} (hending : IsLineEnd ending) : IsFields [] ending
  | field {header : Header} {headers : List Header} {line rest : Bytes}
      (hline : IsField header line) (hrest : IsFields headers rest) :
      IsFields (header :: headers) (line ++ rest)

/-- The request line. -/
inductive IsRequestLine (raw : Raw) : Bytes → Prop where
  | intro {ending : Bytes} (hmethod : IsWord isTokenByte raw.method)
      (htarget : IsWord isTargetByte raw.target) (hutf8 : Utf8.isValid raw.target = true)
      (hversion : raw.version = .http10 ∨ raw.version = .http11) (hending : IsLineEnd ending) :
      IsRequestLine raw (raw.method ++ 0x20 ::
        (raw.target ++ 0x20 :: (Bytes.ofText raw.version.name ++ ending)))

/-- A head with all that belongs to it. -/
inductive IsHead (raw : Raw) : Bytes → Prop where
  | intro {empty line fields : Bytes} (hempty : IsEmptyLines empty)
      (hline : IsRequestLine raw line) (hfields : IsFields raw.headers fields)
      (hroom : raw.headers.length ≤ maxHeaders) : IsHead raw (empty ++ (line ++ fields))

/-! ## Readers of one line -/

theorem reads_readWord (isPart : UInt8 → Bool) (stop : UInt8) (fault : Fault)
    (hstop : isPart stop = false) :
    Reads (readWord isPart stop fault) fun word taken =>
      taken = word ++ [stop] ∧ IsWord isPart word := by
  intro bytes word rest
  constructor
  · intro h
    rw [readWord] at h
    split at h
    · cases h
    · rename_i b tail hdrop
      split at h
      · rename_i hfound
        cases h
        simp only [Bool.and_eq_true, decide_eq_true_eq, Bool.not_eq_true',
          List.isEmpty_eq_false_iff] at hfound
        obtain ⟨rfl, hne⟩ := hfound
        have hbytes : bytes.takeWhile isPart ++ bytes.drop (bytes.takeWhile isPart).length =
            bytes := List.prefix_iff_eq_append.1 (List.takeWhile_prefix isPart)
        refine ⟨_, ?_, rfl, hne, fun d hd => List.mem_takeWhile_imp hd⟩
        rw [List.append_assoc, List.singleton_append, ← hdrop, hbytes]
      · cases h
  · rintro ⟨_, rfl, rfl, hne, hall⟩
    have hword : (word ++ [stop] ++ rest).takeWhile isPart = word := by
      rw [List.append_assoc, List.takeWhile_append_of_pos hall, List.singleton_append,
        List.takeWhile_cons_of_neg (by rw [hstop]; exact Bool.false_ne_true), List.append_nil]
    rw [readWord, hword, List.append_assoc, List.drop_left]
    dsimp only [List.singleton_append]
    rw [if_pos (by simp [hne])]

theorem reads_readTarget :
    Reads readTarget fun target taken =>
      taken = target ++ [0x20] ∧ IsWord isTargetByte target ∧ Utf8.isValid target = true := by
  have hword := reads_readWord isTargetByte 0x20 .target (by decide)
  intro bytes target rest
  constructor
  · intro h
    obtain ⟨word, mid, hread, hvalid⟩ := Reading.andThen_done h
    obtain ⟨taken, rfl, htaken, hparts⟩ := (hword _ _ _).1 hread
    split at hvalid
    · rename_i hutf8
      cases hvalid
      exact ⟨taken, rfl, htaken, hparts, hutf8⟩
    · cases hvalid
  · rintro ⟨taken, rfl, htaken, hparts, hutf8⟩
    rw [readTarget, hword.andThen_append ⟨htaken, hparts⟩, if_pos hutf8]

theorem reads_readVersion :
    Reads readVersion fun version taken =>
      taken = Bytes.ofText version.name ∧ (version = .http10 ∨ version = .http11) := by
  intro bytes version rest
  rw [readVersion, Bytes.split?_eq]
  constructor
  · intro h
    split at h
    · rename_i word tail hsplit
      split at hsplit
      · cases hsplit
        have hbytes := (List.take_append_drop 8 bytes).symm
        split at h
        · rename_i hword
          cases h
          exact ⟨_, hbytes, hword, Or.inr rfl⟩
        · split at h
          · rename_i hword
            cases h
            exact ⟨_, hbytes, hword, Or.inl rfl⟩
          · cases h
      · cases hsplit
    · split at h <;> cases h
  · rintro ⟨_, rfl, rfl, hversion⟩
    have hlength : (Bytes.ofText version.name).length = 8 := by
      rcases hversion with rfl | rfl <;> decide
    rw [if_pos (by rw [List.length_append, hlength]; omega), List.take_left' hlength,
      List.drop_left' hlength]
    rcases hversion with rfl | rfl
    · rfl
    · rfl

theorem reads_readLineEnd : Reads readLineEnd fun _ taken => IsLineEnd taken := by
  intro bytes u rest
  constructor
  · intro h
    rw [readLineEnd.eq_def] at h
    split at h
    · cases h
    · cases h
      exact ⟨[0x0A], rfl, .feed⟩
    · cases h
    · cases h
      exact ⟨[0x0D, 0x0A], rfl, .returnFeed⟩
    · cases h
  · rintro ⟨_, rfl, hending⟩
    cases hending with
    | feed => rfl
    | returnFeed => rfl

/-- A value ends at the end of its line. -/
theorem IsLineEnd.head_not_value {ending : Bytes} (h : IsLineEnd ending) (rest : Bytes) :
    (ending ++ rest).takeWhile isValueByte = [] := by
  cases h with
  | feed => rfl
  | returnFeed => rfl

theorem reads_readHeader : Reads readHeader IsField := by
  have hword := reads_readWord isTokenByte 0x3A .header (by decide)
  intro bytes header rest
  constructor
  · intro h
    obtain ⟨name, mid, hname, h⟩ := Reading.andThen_done h
    obtain ⟨_, tail, hend, hdone⟩ := Reading.andThen_done h
    obtain ⟨_, rfl, rfl, hparts⟩ := (hword _ _ _).1 hname
    obtain ⟨ending, hrest, hending⟩ := (reads_readLineEnd _ _ _).1 hend
    cases hdone
    have hmid : mid = mid.takeWhile isValueByte ++ (ending ++ rest) := by
      rw [← hrest]
      exact (List.prefix_iff_eq_append.1 (List.takeWhile_prefix isValueByte)).symm
    refine ⟨_, ?_, .intro hparts (fun b hb => List.mem_takeWhile_imp hb) rfl hending⟩
    simpa using hmid
  · rintro ⟨_, rfl, hfield⟩
    cases hfield with
    | @intro padded ending hname hpadded hvalue hending =>
      have hvalues : (padded ++ (ending ++ rest)).takeWhile isValueByte = padded := by
        rw [List.takeWhile_append_of_pos hpadded, hending.head_not_value, List.append_nil]
      have htext : header.name ++ 0x3A :: (padded ++ ending) ++ rest =
          (header.name ++ [0x3A]) ++ (padded ++ (ending ++ rest)) := by simp
      rw [htext, readHeader, hword.andThen_append ⟨rfl, hname⟩]
      dsimp only
      rw [hvalues, List.drop_left, reads_readLineEnd.andThen_append (a := ()) hending, hvalue]

/-! ## Lines in a row -/

/-- No blank line begins here, and what is there does not end inside one. -/
def BeginsField : Bytes → Prop
  | [] => True
  | b :: rest => b ≠ 0x0A ∧ (b = 0x0D → rest ≠ [] ∧ rest.head? ≠ some 0x0A)

/-- Where no blank line begins there is a header line. -/
theorem readHeaders_of_field {bytes : Bytes} (h : BeginsField bytes) (room : Nat)
    (done : List Header) :
    readHeaders room done bytes =
      (readHeader bytes).andThen fun header rest =>
        match room with
        | 0 => .fault .tooLarge
        | room + 1 => readHeaders room (header :: done) rest := by
  fun_cases readHeaders room done bytes with
  | case1 | case2 | case3 => simp [BeginsField] at h
  | case4 hread | case5 hread | case6 hread | case7 hread => simp_all [Reading.andThen]

theorem readHeaders_feed (room : Nat) (done : List Header) (rest : Bytes) :
    readHeaders room done (0x0A :: rest) = .done done.reverse rest := by
  rw [readHeaders]

theorem readHeaders_return (room : Nat) (done : List Header) (rest : Bytes) :
    readHeaders room done (0x0D :: 0x0A :: rest) = .done done.reverse rest := by
  rw [readHeaders]

/-- A word of a head is on one line. -/
theorem IsWord.begins {word : Bytes} (h : IsWord isTokenByte word) (more : Bytes) :
    ∃ b rest, word ++ more = b :: rest ∧ b ≠ 0x0A ∧ b ≠ 0x0D := by
  obtain ⟨hne, hall⟩ := h
  obtain ⟨b, rest, rfl⟩ := List.exists_cons_of_ne_nil hne
  have hpart := hall b List.mem_cons_self
  refine ⟨b, rest ++ more, rfl, ?_, ?_⟩
  · rintro rfl
    exact absurd hpart (by decide)
  · rintro rfl
    exact absurd hpart (by decide)

theorem IsField.beginsField {header : Header} {line : Bytes} (h : IsField header line)
    (more : Bytes) : BeginsField (line ++ more) := by
  cases h with
  | intro hname =>
    obtain ⟨b, rest, heq, hfeed, hreturn⟩ := hname.begins (0x3A :: (_ ++ _) ++ more)
    rw [List.append_assoc, heq]
    exact ⟨hfeed, fun hb => absurd hb hreturn⟩

theorem reads_readHeaders (room : Nat) (done : List Header) :
    Reads (readHeaders room done) fun headers taken =>
      ∃ new, headers = done.reverse ++ new ∧ IsFields new taken ∧ new.length ≤ room := by
  intro bytes headers rest
  constructor
  · intro h
    fun_induction readHeaders room done bytes with
    | case1 =>
      cases h
      exact ⟨[0x0A], rfl, [], (List.append_nil _).symm, .blank .feed, Nat.zero_le _⟩
    | case3 =>
      cases h
      exact ⟨[0x0D, 0x0A], rfl, [], (List.append_nil _).symm, .blank .returnFeed, Nat.zero_le _⟩
    | case2 | case4 | case5 | case6 => cases h
    | case7 done bytes _ _ _ header tail hheader room ih =>
      obtain ⟨line, rfl, hline⟩ := (reads_readHeader _ _ _).1 hheader
      obtain ⟨taken, rfl, new, rfl, hnew, hroom⟩ := ih h
      exact ⟨line ++ taken, (List.append_assoc ..).symm, header :: new, by simp,
        .field hline hnew, Nat.succ_le_succ hroom⟩
  · rintro ⟨taken, rfl, new, rfl, hnew, hroom⟩
    induction hnew generalizing room done with
    | blank hending =>
      rw [List.append_nil]
      cases hending with
      | feed => exact readHeaders_feed room done rest
      | returnFeed => exact readHeaders_return room done rest
    | @field header _ _ _ hline hrest ih =>
      obtain ⟨room, rfl⟩ := Nat.exists_eq_succ_of_ne_zero (Nat.ne_zero_of_lt hroom)
      rw [List.append_assoc, readHeaders_of_field (hline.beginsField _),
        reads_readHeader.andThen_append hline]
      have hnext := ih room (header :: done) (Nat.le_of_succ_le_succ hroom)
      rw [List.reverse_cons, List.append_assoc, List.singleton_append] at hnext
      exact hnext

theorem skipEmptyLines_done {bytes rest : Bytes} {u : Unit}
    (h : skipEmptyLines bytes = .done u rest) :
    ∃ empty, bytes = empty ++ rest ∧ IsEmptyLines empty := by
  fun_induction skipEmptyLines bytes with
  | case1 | case3 | case5 => cases h
  | case2 tail ih =>
    obtain ⟨empty, rfl, hempty⟩ := ih h
    exact ⟨_, rfl, .line .feed hempty⟩
  | case4 tail ih =>
    obtain ⟨empty, rfl, hempty⟩ := ih h
    exact ⟨_, rfl, .line .returnFeed hempty⟩
  | case6 =>
    cases h
    exact ⟨[], rfl, .none⟩

/-- Empty lines are skipped up to the first that is not empty. -/
theorem skipEmptyLines_append {empty : Bytes} (h : IsEmptyLines empty) {b : UInt8}
    (hfeed : b ≠ 0x0A) (hreturn : b ≠ 0x0D) (rest : Bytes) :
    skipEmptyLines (empty ++ b :: rest) = .done () (b :: rest) := by
  induction h with
  | none =>
    rw [List.nil_append, skipEmptyLines]
    all_goals simp_all
  | line hending _ ih =>
    cases hending with
    | feed =>
      rw [List.append_assoc, List.singleton_append, skipEmptyLines]
      exact ih
    | returnFeed =>
      rw [List.append_assoc, List.cons_append, List.singleton_append, skipEmptyLines]
      exact ih

/-! ## The head -/

/-- A head is read up to its end exactly if it is one by the grammar. -/
theorem reads_readRaw : Reads readRaw IsHead := by
  have hmethod := reads_readWord isTokenByte 0x20 .method (by decide)
  intro bytes raw rest
  constructor
  · intro h
    obtain ⟨_, _, hskip, h⟩ := Reading.andThen_done h
    obtain ⟨_, _, hfirst, h⟩ := Reading.andThen_done h
    obtain ⟨_, _, hsecond, h⟩ := Reading.andThen_done h
    obtain ⟨_, _, hthird, h⟩ := Reading.andThen_done h
    obtain ⟨_, _, hend, h⟩ := Reading.andThen_done h
    obtain ⟨_, _, hlines, hdone⟩ := Reading.andThen_done h
    obtain ⟨empty, rfl, hempty⟩ := skipEmptyLines_done hskip
    obtain ⟨_, rfl, rfl, hword⟩ := (hmethod _ _ _).1 hfirst
    obtain ⟨_, rfl, rfl, htarget, hutf8⟩ := (reads_readTarget _ _ _).1 hsecond
    obtain ⟨_, rfl, rfl, hversion⟩ := (reads_readVersion _ _ _).1 hthird
    obtain ⟨ending, rfl, hending⟩ := (reads_readLineEnd _ _ _).1 hend
    obtain ⟨taken, rfl, headers, rfl, hfields, hroom⟩ := (reads_readHeaders _ _ _ _ _).1 hlines
    cases hdone
    exact ⟨_, by simp, .intro hempty (.intro hword htarget hutf8 hversion hending) hfields hroom⟩
  · rintro ⟨_, rfl, hhead⟩
    cases hhead with
    | intro hempty hline hfields hroom =>
    cases hline with
    | @intro ending hword htarget hutf8 hversion hending =>
    rename_i empty fields
    obtain ⟨b, tail, hbegins, hfeed, hreturn⟩ := hword.begins ([0x20] ++
      ((raw.target ++ [0x20]) ++ (Bytes.ofText raw.version.name ++ (ending ++ (fields ++ rest)))))
    rw [← List.append_assoc] at hbegins
    have htext : empty ++ (raw.method ++ 0x20 :: (raw.target ++ 0x20 ::
          (Bytes.ofText raw.version.name ++ ending)) ++ fields) ++ rest =
        empty ++ ((raw.method ++ [0x20]) ++ ((raw.target ++ [0x20]) ++
          (Bytes.ofText raw.version.name ++ (ending ++ (fields ++ rest))))) := by simp
    rw [htext, readRaw, hbegins, skipEmptyLines_append hempty hfeed hreturn, ← hbegins,
      Reading.andThen, readMethod, hmethod.andThen_append ⟨rfl, hword⟩,
      reads_readTarget.andThen_append ⟨rfl, htarget, hutf8⟩,
      reads_readVersion.andThen_append ⟨rfl, hversion⟩,
      reads_readLineEnd.andThen_append (a := ()) hending,
      (reads_readHeaders maxHeaders []).andThen_append ⟨raw.headers, rfl, hfields, hroom⟩]
    rfl

/-- The same for a head with nothing behind it. -/
theorem readRaw_eq_done_iff {head : Bytes} {raw : Raw} :
    readRaw head = .done raw [] ↔ IsHead raw head := by
  rw [reads_readRaw head raw []]
  simp only [List.append_nil, exists_eq_left']

/-! ## The end of a head -/

/-- An empty line and the end of the line before it. -/
def IsBlankLine (blank : Bytes) : Prop := blank = [0x0A, 0x0A] ∨ blank = [0x0A, 0x0D, 0x0A]

theorem IsLineEnd.ends {ending : Bytes} (h : IsLineEnd ending) : [0x0A] <:+ ending := by
  cases h with
  | feed => exact List.suffix_rfl
  | returnFeed => exact List.suffix_cons 0x0D _

theorem IsField.ends {header : Header} {line : Bytes} (h : IsField header line) :
    [0x0A] <:+ line := by
  cases h with
  | intro _ _ _ hending =>
    exact hending.ends.trans ((List.suffix_append _ _).trans
      ((List.suffix_cons _ _).trans (List.suffix_append _ _)))

theorem IsRequestLine.ends {raw : Raw} {line : Bytes} (h : IsRequestLine raw line) :
    [0x0A] <:+ line := by
  cases h with
  | intro _ _ _ _ hending =>
    exact hending.ends.trans ((List.suffix_append _ _).trans ((List.suffix_cons _ _).trans
      ((List.suffix_append _ _).trans ((List.suffix_cons _ _).trans (List.suffix_append _ _)))))

theorem suffix_append_of_ends {line : Bytes} (h : [0x0A] <:+ line) (rest : Bytes) :
    0x0A :: rest <:+ line ++ rest := by
  obtain ⟨front, rfl⟩ := h
  rw [List.append_assoc]
  exact List.suffix_append front _

/-- Header lines end with a blank line, the end of the line before them taken along. -/
theorem IsFields.ends {headers : List Header} {fields : Bytes} (h : IsFields headers fields) :
    ∃ blank, IsBlankLine blank ∧ blank <:+ 0x0A :: fields := by
  induction h with
  | blank hending =>
    refine ⟨_, ?_, List.suffix_rfl⟩
    cases hending with
    | feed => exact Or.inl rfl
    | returnFeed => exact Or.inr rfl
  | field hline _ ih =>
    obtain ⟨blank, hblank, hsuffix⟩ := ih
    exact ⟨blank, hblank,
      hsuffix.trans ((suffix_append_of_ends hline.ends _).trans (List.suffix_cons _ _))⟩

/-- A head ends with a blank line. -/
theorem IsHead.ends {raw : Raw} {head : Bytes} (h : IsHead raw head) :
    ∃ blank, IsBlankLine blank ∧ blank <:+ head := by
  cases h with
  | intro _ hline hfields =>
    obtain ⟨blank, hblank, hsuffix⟩ := hfields.ends
    exact ⟨blank, hblank,
      hsuffix.trans ((suffix_append_of_ends hline.ends _).trans (List.suffix_append _ _))⟩

end Head

end WebSocketEcho.Http
