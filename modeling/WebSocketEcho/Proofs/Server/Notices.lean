import WebSocketEcho.Proofs.Server.Echo

/-!
# The log, read back

The line of a session that opens and the line of one that closes end in the number of sessions that
are then active.  `Log.notice?` reads such a line, and `Log.recount` reads the counters off any
number of lines, from their texts alone.

`notice?_line` says that the reader takes from a text what the event behind it tells.
-/

namespace WebSocketEcho

namespace Decimal

theorem digitValue?_ofNat {d : Nat} (h : d < 10) :
    digitValue? (Char.ofNat (0x30 + d)) = some d := by
  have hall : ∀ k < 10, digitValue? (Char.ofNat (0x30 + k)) = some k := by decide
  exact hall d h

/-- A numeral spells its number. -/
theorem ofChars?_chars (n : Nat) : ofChars? (chars n) = some n := by
  have hvalues : ∀ ds : List Nat, (∀ d ∈ ds, d < 10) →
      (ds.map fun d => Char.ofNat (0x30 + d)).mapM digitValue? = some ds := by
    intro ds hds
    induction ds with
    | nil => rfl
    | cons d rest ih =>
      rw [List.map_cons, List.mapM_cons, digitValue?_ofNat (hds d List.mem_cons_self),
        ih fun e he => hds e (List.mem_cons_of_mem d he)]
      rfl
  have hne : chars n ≠ [] := by
    rw [chars_eq_toDigits]
    exact Nat.toDigits_ne_nil
  rw [ofChars?, if_neg (by simpa using hne), chars, hvalues _ fun d hd => lt_ten_of_mem_digits hd,
    Option.map_some, ofDigits_digits]

/-- A numeral has neither blanks nor brackets. -/
theorem plain_of_mem_chars {n : Nat} {c : Char} (h : c ∈ chars n) : c ≠ ' ' ∧ c ≠ '(' := by
  obtain ⟨d, hd, rfl⟩ := List.mem_map.1 h
  have hall : ∀ k < 10, Char.ofNat (0x30 + k) ≠ ' ' ∧ Char.ofNat (0x30 + k) ≠ '(' := by decide
  exact hall d (lt_ten_of_mem_digits hd)

end Decimal

namespace Log

/-- A session has opened or closed, and so many are active now. -/
inductive Notice where
  | opened (active : Nat)
  | closed (active : Nat)
deriving DecidableEq, Repr

/-- What is counted when a notice has been read. -/
def Notice.recount (k : Counters) : Notice → Counters
  | .opened n =>
    ⟨UInt64.ofNat n, if k.max < UInt64.ofNat n then UInt64.ofNat n else k.max⟩
  | .closed n => { k with active := UInt64.ofNat n }

/-- What an event tells of the sessions. -/
def Event.notice? : Event → Option Notice
  | .sessionOpened _ active => some (.opened active.toNat)
  | .sessionClosed _ active => some (.closed active.toNat)
  | _ => none

/-! ## The reader -/

/-- The part of a line up to its last bracket, and the part behind it. -/
def splitAtBracket (line : List Char) : List Char × List Char :=
  ((line.reverse.dropWhile (· != '(')).reverse, (line.reverse.takeWhile (· != '(')).reverse)

/-- What the text of a line tells of the sessions. -/
def notice? (line : String) : Option Notice :=
  if "INFO echo session ".toList.isPrefixOf line.toList then
    let (head, tail) := splitAtBracket line.toList
    let active? := Decimal.ofChars? (tail.takeWhile (· != ' '))
    if " opened (".toList.isSuffixOf head then active?.map .opened
    else if " closed (".toList.isSuffixOf head then active?.map .closed
    else none
  else none

/-- The counters that the texts of the lines tell. -/
def recount (lines : List String) : Counters :=
  (lines.filterMap notice?).foldl Notice.recount .zero

theorem splitAtBracket_append (head : List Char) {tail : List Char} (h : ∀ c ∈ tail, c ≠ '(') :
    splitAtBracket (head ++ '(' :: tail) = (head ++ ['('], tail) := by
  have hreverse : (head ++ '(' :: tail).reverse = tail.reverse ++ '(' :: head.reverse := by
    simp [List.append_assoc]
  have htail : ∀ c ∈ tail.reverse, (c != '(') = true := by
    intro c hc
    exact bne_iff_ne.2 (h c (List.mem_reverse.1 hc))
  rw [splitAtBracket, hreverse, List.takeWhile_append_of_pos htail,
    List.dropWhile_append_of_pos htail]
  simp

/-- A line that ends in a numeral and a word is taken apart at the numeral. -/
theorem split_of_numeral (head : List Char) (n : Nat) :
    let line := head ++ '(' :: (Decimal.chars n ++ " active)".toList)
    (splitAtBracket line).1 = head ++ ['('] ∧
      Decimal.ofChars? ((splitAtBracket line).2.takeWhile (· != ' ')) = some n := by
  have hplain : ∀ c ∈ Decimal.chars n ++ " active)".toList, c ≠ '(' := by
    intro c hc
    rcases List.mem_append.1 hc with hc | hc
    · exact (Decimal.plain_of_mem_chars hc).2
    · have hword : ∀ c ∈ " active)".toList, c ≠ '(' := by simp
      exact hword c hc
  have hdigits : ∀ c ∈ Decimal.chars n, (c != ' ') = true := fun c hc =>
    bne_iff_ne.2 (Decimal.plain_of_mem_chars hc).1
  dsimp only
  rw [splitAtBracket_append head hplain]
  refine ⟨rfl, ?_⟩
  rw [List.takeWhile_append_of_pos hdigits]
  show Decimal.ofChars? (Decimal.chars n ++ []) = some n
  rw [List.append_nil, Decimal.ofChars?_chars]

/-- Lines of other levels say nothing of the number of sessions. -/
theorem notice?_of_level {e : Event} (h : e.level ≠ .info) : notice? e.line = none := by
  have hprefix : "INFO echo session ".toList.isPrefixOf e.line.toList = false := by
    rw [Event.line]
    cases hlevel : e.level with
    | info => exact absurd hlevel h
    | debug | warn | error =>
      rw [String.toList_append, String.toList_append]
      rfl
  rw [notice?, hprefix]
  rfl

/-- A line that shows a number behind `verb` is read by its verb. -/
theorem notice?_of_shown (peer verb : List Char) (n : Nat) {line : String}
    (hline : line.toList = "INFO echo session ".toList ++ peer ++ verb ++
      '(' :: (Decimal.chars n ++ " active)".toList)) :
    notice? line =
      if " opened (".toList.reverse.isPrefixOf ('(' :: verb.reverse ++ peer.reverse ++
        "INFO echo session ".toList.reverse) then some (.opened n)
      else if " closed (".toList.reverse.isPrefixOf ('(' :: verb.reverse ++ peer.reverse ++
        "INFO echo session ".toList.reverse) then some (.closed n)
      else none := by
  have hprefix : "INFO echo session ".toList.isPrefixOf line.toList = true := by
    rw [hline, List.isPrefixOf_iff_prefix, List.append_assoc, List.append_assoc]
    exact List.prefix_append _ _
  obtain ⟨hhead, hnumber⟩ := split_of_numeral ("INFO echo session ".toList ++ peer ++ verb) n
  rw [← hline] at hhead hnumber
  rw [notice?, if_pos hprefix]
  dsimp only
  rw [hnumber, hhead, List.isSuffixOf, List.isSuffixOf]
  simp only [List.reverse_append, List.reverse_singleton, List.append_assoc, List.cons_append,
    List.nil_append, Option.map_some]

/-- The text of a line tells what its event tells. -/
theorem notice?_line (e : Event) : notice? e.line = e.notice? := by
  have htext : ∀ (peer : SocketAddress) (verb : String) (active : UInt64),
      ("INFO echo session " ++ peer.text ++ verb ++ toString active ++ " active)").toList =
        "INFO echo session ".toList ++ (peer.chars ++ (verb.toList ++
          (Decimal.chars active.toNat ++ " active)".toList))) := by
    intro peer verb active
    have hnumber : (toString active).toList = Decimal.chars active.toNat := by
      rw [show toString active = toString active.toNat from rfl, ← Decimal.text_eq_toString,
        Decimal.text, String.toList_ofList]
    simp only [String.toList_append, hnumber, SocketAddress.text, String.toList_ofList,
      List.append_assoc]
  cases e with
  | connected | acceptFailed | requested | handshakeRefused | connectionFailed | upgradeFailed
  | closeReceived | sessionEnded => exact notice?_of_level (by simp [Event.level])
  | listening port =>
    have hprefix : "INFO echo session ".toList.isPrefixOf
        ("INFO" ++ " " ++ ("Listening on port " ++ Decimal.text port.toNat)).toList = false := by
      rw [String.toList_append, String.toList_append, String.toList_append]
      rfl
    show notice? ("INFO" ++ " " ++ ("Listening on port " ++ Decimal.text port.toNat)) = none
    rw [notice?, hprefix]
    rfl
  | sessionOpened peer active =>
    rw [Server.line_sessionOpened, notice?_of_shown peer.chars " opened ".toList
      active.toNat ((htext peer " opened (" active).trans (by simp))]
    rfl
  | sessionClosed peer active =>
    rw [Server.line_sessionClosed, notice?_of_shown peer.chars " closed ".toList
      active.toNat ((htext peer " closed (" active).trans (by simp))]
    rfl

end Log

end WebSocketEcho
