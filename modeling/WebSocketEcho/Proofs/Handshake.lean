import WebSocketEcho.Handshake

/-!
# What decides an opening handshake

`demands` lists what a handshake must meet, in the order in which it counts, each with the refusal
of a request that does not meet it.  A handshake is accepted when it meets all of them, and refused
by the first that it does not meet (`decided_by_first_unmet`).

The demands are about what a reader of the request sees: the first field of a name, and a value in
which `upgrade` stands between spaces or commas.  The checks work on pieces of the value instead;
`exists_of_mem_pieces` and `mem_pieces` are the two ways between them.
-/

namespace WebSocketEcho.Handshake

open Http

/-! ## What is demanded -/

/-- Equality but for the case of ASCII letters. -/
def SameLetters (a b : Bytes) : Prop := a.map Ascii.lower = b.map Ascii.lower

/-- The first field of this name has this value. -/
def FirstValue (headers : List Header) (name : String) (value : Bytes) : Prop :=
  ∃ before h after, headers = before ++ h :: after ∧ SameLetters h.name (Bytes.ofText name) ∧
    h.value = value ∧ ∀ other ∈ before, ¬ SameLetters other.name (Bytes.ofText name)

/-- The bytes between the words of a value. -/
def IsSeparator (b : UInt8) : Prop := b = 0x20 ∨ b = 0x2C

/-- A value of visible ASCII, spaces and tabs in which `upgrade` is a word: nothing or a separator
stands before it, and behind it. -/
def AsksUpgrade (value : Bytes) : Prop :=
  (∀ b ∈ value, 0x20 ≤ b ∧ b ≤ 0x7E ∨ b = 0x09) ∧
    ∃ pre word post, value = pre ++ word ++ post ∧ SameLetters word (Bytes.ofText "upgrade") ∧
      (∀ b ∈ pre.getLast?, IsSeparator b) ∧ ∀ b ∈ post.head?, IsSeparator b

/-- The major and the minor number of a version. -/
def numbers : Version → Nat × Nat
  | .http09 => (0, 9)
  | .http10 => (1, 0)
  | .http11 => (1, 1)
  | .http2 => (2, 0)
  | .http3 => (3, 0)

/-- Versions from HTTP/1.1 on: the major number counts before the minor one. -/
def AtLeast11 (v : Version) : Prop :=
  1 < (numbers v).1 ∨ (numbers v).1 = 1 ∧ 1 ≤ (numbers v).2

/-- What a handshake must meet, and how a request is refused that does not meet it. -/
def demands (r : Request) : List (Prop × Refusal) :=
  [(r.method = Bytes.ofText "GET", .methodNotAllowed r.method),
    (AtLeast11 r.version, .unsupportedHttpVersion r.version),
    (∃ value, FirstValue r.headers "connection" value ∧ AsksUpgrade value,
      .missingConnectionUpgrade),
    (∃ value, FirstValue r.headers "upgrade" value ∧
      SameLetters value (Bytes.ofText "websocket"), .missingUpgradeWebsocket),
    (FirstValue r.headers "sec-websocket-version" (Bytes.ofText "13"), .unsupportedVersion),
    (∃ value, FirstValue r.headers "sec-websocket-key" value ∧
      ∃ b ∈ value, Ascii.isWhitespace b = false, .missingKey)]

/-- The refusal for the first demand that is not met. -/
inductive FirstUnmet : List (Prop × Refusal) → Refusal → Prop where
  | here {demand : Prop} {why : Refusal} {rest : List (Prop × Refusal)} (h : ¬ demand) :
      FirstUnmet ((demand, why) :: rest) why
  | later {demand : Prop} {other why : Refusal} {rest : List (Prop × Refusal)} (h : demand)
      (hrest : FirstUnmet rest why) : FirstUnmet ((demand, other) :: rest) why

theorem firstUnmet_or_met (demands : List (Prop × Refusal)) :
    (∃ why, FirstUnmet demands why) ∨ ∀ demand ∈ demands, demand.1 := by
  induction demands with
  | nil => exact Or.inr fun _ h => nomatch h
  | cons demand rest ih =>
    by_cases h : demand.1
    · rcases ih with ⟨why, hrest⟩ | hrest
      · exact Or.inl ⟨why, .later h hrest⟩
      · exact Or.inr (List.forall_mem_cons.2 ⟨h, hrest⟩)
    · exact Or.inl ⟨demand.2, .here h⟩

/-! ## Fields -/

section Fields

variable {headers : List Header} {name : String} {value : Bytes}

/-- A name in lower case is compared letter by letter. -/
theorem isNamed_iff (hname : (Bytes.ofText name).map Ascii.lower = Bytes.ofText name) (h : Header) :
    h.isNamed name = true ↔ SameLetters h.name (Bytes.ofText name) := by
  rw [Header.isNamed, SameLetters, hname, beq_iff_eq]

theorem firstValue?_eq_some_iff
    (hname : (Bytes.ofText name).map Ascii.lower = Bytes.ofText name) :
    firstValue? headers name = some value ↔ FirstValue headers name value := by
  rw [firstValue?, Option.map_eq_some_iff, FirstValue]
  constructor
  · rintro ⟨h, hfind, rfl⟩
    obtain ⟨hnamed, before, after, rfl, hbefore⟩ := List.find?_eq_some_iff_append.1 hfind
    refine ⟨before, h, after, rfl, (isNamed_iff hname h).1 hnamed, rfl, ?_⟩
    intro other hother hsame
    have hnot := hbefore other hother
    rw [(isNamed_iff hname other).2 hsame] at hnot
    exact absurd hnot (by decide)
  · rintro ⟨before, h, after, rfl, hsame, rfl, hbefore⟩
    refine ⟨h, List.find?_eq_some_iff_append.2 ⟨(isNamed_iff hname h).2 hsame, ?_⟩, rfl⟩
    refine ⟨before, after, rfl, ?_⟩
    intro other hother
    rw [Bool.not_eq_true', ← Bool.not_eq_true, isNamed_iff hname]
    exact hbefore other hother

/-- A check of the first value passes when there is one that passes. -/
theorem any_firstValue?_iff (headers : List Header) {check : Bytes → Bool} {Passes : Bytes → Prop}
    (hname : (Bytes.ofText name).map Ascii.lower = Bytes.ofText name)
    (hcheck : ∀ value, check value = true ↔ Passes value) :
    (firstValue? headers name).any check = true ↔
      ∃ value, FirstValue headers name value ∧ Passes value := by
  rw [Option.any_eq_true]
  simp only [firstValue?_eq_some_iff hname, hcheck]

/-- A field behind another one of its name is not looked at. -/
theorem firstValue?_of_later {before between after : List Header} {h later : Header}
    (hsame : SameLetters later.name h.name) (name : String) :
    firstValue? (before ++ h :: (between ++ later :: after)) name =
      firstValue? (before ++ h :: (between ++ after)) name := by
  rw [firstValue?, firstValue?]
  congr 1
  simp only [List.find?_append, List.find?_cons]
  have hnamed : later.isNamed name = h.isNamed name := by
    rw [Header.isNamed, Header.isNamed, hsame]
  rw [hnamed]
  cases h.isNamed name <;> simp

end Fields

/-! ## Values -/

section Values

variable {value word : Bytes}

theorem isSeparator_iff {b : UInt8} : (b == 0x20 || b == 0x2C) = true ↔ IsSeparator b := by
  rw [Bool.or_eq_true, beq_iff_eq, beq_iff_eq, IsSeparator]

/-- A piece stands between the ends of the value or separators. -/
theorem exists_of_mem_pieces (h : word ∈ pieces value) :
    ∃ pre post, value = pre ++ word ++ post ∧ (∀ b ∈ pre.getLast?, IsSeparator b) ∧
      ∀ b ∈ post.head?, IsSeparator b := by
  induction hn : value.length using Nat.strongRecOn generalizing value with
  | ind n ih =>
    by_cases hplain : ∀ b ∈ value, (b == 0x20 || b == 0x2C) = false
    · rw [pieces, List.splitOnP_eq_singleton hplain, List.mem_singleton] at h
      exact ⟨[], [], by simp [h], by simp, by simp⟩
    -- Pieces are those before some separator and those behind it.
    · obtain ⟨sep, hsep⟩ := Classical.not_forall.1 hplain
      rw [Classical.not_imp, Bool.not_eq_false] at hsep
      obtain ⟨hmem, hsep⟩ := hsep
      obtain ⟨a, c, rfl⟩ := List.append_of_mem hmem
      rw [List.length_append, List.length_cons] at hn
      rw [pieces, List.splitOnP_append_cons a c hsep, List.mem_append] at h
      rcases h with h | h
      · obtain ⟨pre, post, rfl, hpre, hpost⟩ := ih _ (by omega) h rfl
        refine ⟨pre, post ++ sep :: c, by simp, hpre, ?_⟩
        cases post with
        | nil => simpa using isSeparator_iff.1 hsep
        | cons b rest => exact hpost
      · obtain ⟨pre, post, rfl, hpre, hpost⟩ := ih _ (by omega) h rfl
        refine ⟨a ++ sep :: pre, post, by simp, ?_, hpost⟩
        rw [List.getLast?_append, List.getLast?_cons]
        cases hlast : pre.getLast? with
        | none => simpa using isSeparator_iff.1 hsep
        | some b => simpa using hpre b hlast

/-- A word without separators that stands between ends of the value or separators is a piece. -/
theorem mem_pieces {pre post : Bytes} (hword : ∀ b ∈ word, ¬ IsSeparator b)
    (hpre : ∀ b ∈ pre.getLast?, IsSeparator b) (hpost : ∀ b ∈ post.head?, IsSeparator b) :
    word ∈ pieces (pre ++ word ++ post) := by
  have hwhole : word ∈ pieces (word ++ post) := by
    cases post with
    | nil =>
      rw [List.append_nil, pieces, List.splitOnP_eq_singleton, List.mem_singleton]
      intro b hb
      rw [← Bool.not_eq_true, isSeparator_iff]
      exact hword b hb
    | cons sep rest =>
      have hsep := isSeparator_iff.2 (hpost sep rfl)
      rw [pieces, List.splitOnP_append_cons word rest hsep, List.splitOnP_eq_singleton]
      · simp
      · intro b hb
        rw [← Bool.not_eq_true, isSeparator_iff]
        exact hword b hb
  rcases List.eq_nil_or_concat pre with rfl | ⟨front, sep, hfront⟩
  · exact hwhole
  · rw [List.concat_eq_append] at hfront
    subst hfront
    have hsep : (sep == 0x20 || sep == 0x2C) = true := isSeparator_iff.2 (hpre sep (by simp))
    have happend : front ++ [sep] ++ word ++ post = front ++ sep :: (word ++ post) := by simp
    rw [happend, pieces, List.splitOnP_append_cons front _ hsep]
    exact List.mem_append_right _ hwhole

/-- In the letters of `upgrade` there is no separator. -/
theorem not_isSeparator_of_sameLetters (h : SameLetters word (Bytes.ofText "upgrade")) :
    ∀ b ∈ word, ¬ IsSeparator b := by
  intro b hb hsep
  have hlower : Ascii.lower b ∈ (Bytes.ofText "upgrade").map Ascii.lower := by
    rw [← h]
    exact List.mem_map_of_mem hb
  rcases hsep with rfl | rfl
  · exact absurd hlower (by decide)
  · exact absurd hlower (by decide)

theorem sameWord_iff {a b : Bytes} : Ascii.sameWord a b = true ↔ SameLetters b a := by
  rw [Ascii.sameWord, beq_iff_eq, SameLetters]
  exact eq_comm

theorem asksUpgrade_iff : asksUpgrade value = true ↔ AsksUpgrade value := by
  have hplain : isPlainValue value = true ↔ ∀ b ∈ value, 0x20 ≤ b ∧ b ≤ 0x7E ∨ b = 0x09 := by
    simp [isPlainValue]
  rw [asksUpgrade, Bool.and_eq_true, hplain, List.any_eq_true, AsksUpgrade]
  constructor
  · rintro ⟨hvisible, word, hmem, hsame⟩
    obtain ⟨pre, post, heq, hpre, hpost⟩ := exists_of_mem_pieces hmem
    exact ⟨hvisible, pre, word, post, heq, sameWord_iff.1 hsame, hpre, hpost⟩
  · rintro ⟨hvisible, pre, word, post, rfl, hsame, hpre, hpost⟩
    exact ⟨hvisible, word, mem_pieces (not_isSeparator_of_sameLetters hsame) hpre hpost,
      sameWord_iff.2 hsame⟩

theorem namesWebsocket_iff :
    namesWebsocket value = true ↔ SameLetters value (Bytes.ofText "websocket") :=
  sameWord_iff

theorem not_isBlankKey_iff :
    (!isBlankKey value) = true ↔ ∃ b ∈ value, Ascii.isWhitespace b = false := by
  rw [Bool.not_eq_true', isBlankKey, List.all_eq_false]
  simp only [Bool.not_eq_true]

end Values

/-! ## The decision -/

section Decision

variable {r : Request} {why : Refusal}

theorem atLeast11_iff (v : Version) : v.atLeast11 = true ↔ AtLeast11 v := by
  unfold AtLeast11
  cases v <;> decide

/-- The demands are what is checked. -/
theorem demands_eq (r : Request) : demands r =
    [(r.method = Bytes.ofText "GET", .methodNotAllowed r.method),
      (r.version.atLeast11 = true, .unsupportedHttpVersion r.version),
      ((firstValue? r.headers "connection").any asksUpgrade = true, .missingConnectionUpgrade),
      ((firstValue? r.headers "upgrade").any namesWebsocket = true, .missingUpgradeWebsocket),
      (firstValue? r.headers "sec-websocket-version" = some (Bytes.ofText "13"),
        .unsupportedVersion),
      ((firstValue? r.headers "sec-websocket-key").any (fun key => !isBlankKey key) = true,
        .missingKey)] := by
  have hlower : ∀ name ∈ ["connection", "upgrade", "sec-websocket-version", "sec-websocket-key"],
      (Bytes.ofText name).map Ascii.lower = Bytes.ofText name := by
    decide
  have hconnection := any_firstValue?_iff r.headers (hlower "connection" (by simp))
    @asksUpgrade_iff
  have hupgrade := any_firstValue?_iff r.headers (hlower "upgrade" (by simp))
    @namesWebsocket_iff
  have hversion := @firstValue?_eq_some_iff r.headers "sec-websocket-version" (Bytes.ofText "13")
    (hlower "sec-websocket-version" (by simp))
  have hkey := any_firstValue?_iff r.headers (hlower "sec-websocket-key" (by simp))
    @not_isBlankKey_iff
  rw [demands, ← propext (atLeast11_iff r.version), ← propext hconnection, ← propext hupgrade,
    ← propext hversion, ← propext hkey]

/-- The first demand that is not met is the reason of the refusal. -/
theorem key_of_firstUnmet (h : FirstUnmet (demands r) why) : key r = .error why := by
  rw [demands_eq] at h
  unfold key offeredKey
  cases h with
  | here h₁ => simp [h₁, Refusal.ofObjection]
  | later h₁ h =>
  cases h with
  | here h₂ => simp [h₁, h₂, Refusal.ofObjection]
  | later h₂ h =>
  cases h with
  | here h₃ => simp [h₁, h₂, h₃, Refusal.ofObjection]
  | later h₃ h =>
  cases h with
  | here h₄ => simp [h₁, h₂, h₃, h₄, Refusal.ofObjection]
  | later h₄ h =>
  cases h with
  | here h₅ => simp [h₁, h₂, h₃, h₄, h₅, spokenVersion, Refusal.ofObjection]
  | later h₅ h =>
  cases h with
  | here h₆ =>
    -- The key is absent, which the protocol objects to, or blank, which the server does.
    cases hkey : firstValue? r.headers "sec-websocket-key" with
    | none => simp [h₁, h₂, h₃, h₄, h₅, spokenVersion, Refusal.ofObjection]
    | some value =>
      rw [hkey] at h₆
      simp_all [spokenVersion]
  | later h₆ h => nomatch h

/-- A handshake that meets all demands is accepted with the key that it brings. -/
theorem key_of_met (h : ∀ demand ∈ demands r, demand.1) :
    ∃ value, firstValue? r.headers "sec-websocket-key" = some value ∧ key r = .ok value := by
  rw [demands_eq] at h
  simp only [List.forall_mem_cons] at h
  obtain ⟨h₁, h₂, h₃, h₄, h₅, h₆, -⟩ := h
  obtain ⟨value, hkey, hblank⟩ := (Option.any_eq_true _ _).1 h₆
  refine ⟨value, hkey, ?_⟩
  unfold key offeredKey
  rw [Bool.not_eq_true'] at hblank
  simp [h₁, h₂, h₃, h₄, h₅, hkey, hblank, spokenVersion]

theorem exists_key_of_met (h : ∀ demand ∈ demands r, demand.1) : ∃ value, key r = .ok value :=
  (key_of_met h).imp fun _ hkey => hkey.2

theorem answer_eq_error_iff : answer r = .error why ↔ key r = .error why := by
  unfold answer
  cases key r <;> simp [Except.map]

theorem answer_eq_error_iff_firstUnmet : answer r = .error why ↔ FirstUnmet (demands r) why := by
  rw [answer_eq_error_iff]
  refine ⟨fun herror => ?_, key_of_firstUnmet⟩
  rcases firstUnmet_or_met (demands r) with ⟨other, hother⟩ | hmet
  · have heq := (key_of_firstUnmet hother).symm.trans herror
    cases heq
    exact hother
  · obtain ⟨value, hok⟩ := exists_key_of_met hmet
    rw [hok] at herror
    cases herror

theorem exists_answer_iff : (∃ response, answer r = .ok response) ↔ ∃ value, key r = .ok value := by
  unfold answer
  cases key r <;> simp [Except.map]

/-- A refusal names one of the demands. -/
theorem FirstUnmet.mem {demands : List (Prop × Refusal)} (h : FirstUnmet demands why) :
    why ∈ demands.map (·.2) := by
  induction h with
  | here h => exact List.mem_cons_self
  | later h hrest ih => exact List.mem_cons_of_mem _ ih

theorem answer_of_later {before between after : List Header} {h later : Header}
    (hheaders : r.headers = before ++ h :: (between ++ later :: after))
    (hsame : SameLetters later.name h.name) :
    answer { r with headers := before ++ h :: (between ++ after) } = answer r := by
  have hfirst : ∀ name, firstValue? (before ++ h :: (between ++ after)) name =
      firstValue? r.headers name := by
    intro name
    rw [hheaders, firstValue?_of_later hsame]
  unfold answer key offeredKey
  simp only [hfirst]
  rfl

/-- A handshake is accepted when it meets all demands, and refused for the first that it does not
meet, which is always one of them.  Fields behind the first of their name play no part. -/
theorem decided_by_first_unmet (r : Request) :
    ((∃ response, answer r = .ok response) ↔ ∀ demand ∈ demands r, demand.1) ∧
      (∀ why, answer r = .error why ↔ FirstUnmet (demands r) why) ∧
      (∀ text, answer r ≠ .error (.invalid text)) ∧
      ∀ (before between after : List Header) (h later : Header),
        r.headers = before ++ h :: (between ++ later :: after) →
        SameLetters later.name h.name →
          answer { r with headers := before ++ h :: (between ++ after) } = answer r := by
  refine ⟨?_, fun _ => answer_eq_error_iff_firstUnmet, ?_, ?_⟩
  · rw [exists_answer_iff]
    refine ⟨fun ⟨value, hok⟩ => ?_, exists_key_of_met⟩
    rcases firstUnmet_or_met (demands r) with ⟨other, hother⟩ | hmet
    · rw [key_of_firstUnmet hother] at hok
      cases hok
    · exact hmet
  · intro text herror
    have hmem := (answer_eq_error_iff_firstUnmet.1 herror).mem
    simp [demands] at hmem
  · intro before between after h later hheaders hsame
    exact answer_of_later hheaders hsame

end Decision

end WebSocketEcho.Handshake
