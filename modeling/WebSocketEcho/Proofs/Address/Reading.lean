import WebSocketEcho.Proofs.Address.Numerals

/-!
# Addresses are read as what they are

`IpAddress.ofChars?_eq_some_iff`: a whole text is read as an address just if it is one by the grammar.

The readers are greedy.  An IPv4 address is tried before every group of an IPv6 address, and a group
never passes for the beginning of one, because the digits of an octet are followed by a dot
(`readIpv4_eq_none_of_group`).  A row of groups is read to its end when what follows cannot go on
with it; `Closes` lists what may follow.
-/

namespace WebSocketEcho.Address

theorem skip_eq_some_iff {mark : Char} {cs rest : List Char} :
    skip mark cs = some rest ↔ cs = mark :: rest := by
  cases cs with
  | nil => simp [skip]
  | cons c cs => simp [skip]

/-! ## IPv4 -/

section Ipv4

variable {text rest cs : List Char} {v : Ipv4} {g : UInt16}

theorem readIpv4_append (h : IsIpv4 text v) (hrest : DigitFree 10 rest) :
    readIpv4 (text ++ rest) = some (v, rest) := by
  have hdot : ∀ more, DigitFree 10 ('.' :: more) := digitFree_cons rfl
  have hskip : ∀ more, skip '.' ('.' :: more) = some more := fun more => skip_eq_some_iff.2 rfl
  cases h with
  | intro ha hb hc hd =>
    simp only [readIpv4, List.append_assoc, List.cons_append, readOctet_append ha (hdot _),
      readOctet_append hb (hdot _), readOctet_append hc (hdot _), readOctet_append hd hrest, hskip,
      Option.bind_eq_bind, Option.bind_some, Option.pure_def]

theorem exists_ipv4_of_readIpv4 (h : readIpv4 cs = some (v, rest)) :
    ∃ text, IsIpv4 text v ∧ cs = text ++ rest := by
  simp only [readIpv4, Option.bind_eq_bind, Option.bind_eq_some_iff, skip_eq_some_iff,
    Prod.exists, Option.pure_def, Option.some_inj, Prod.mk.injEq] at h
  obtain ⟨a, _, ha, _, rfl, b, _, hb, _, rfl, c, _, hc, _, rfl, d, _, hd, rfl, rfl⟩ := h
  obtain ⟨ta, hta, rfl⟩ := exists_octet_of_readOctet ha
  obtain ⟨tb, htb, rfl⟩ := exists_octet_of_readOctet hb
  obtain ⟨tc, htc, rfl⟩ := exists_octet_of_readOctet hc
  obtain ⟨td, htd, rfl⟩ := exists_octet_of_readOctet hd
  exact ⟨_, .intro hta htb htc htd, by simp⟩

/-- An IPv4 address begins with digits and a dot. -/
theorem IsIpv4.exists_octet (h : IsIpv4 text v) :
    ∃ octet o more, IsOctet octet o ∧ text = octet ++ '.' :: more := by
  cases h with
  | intro ha _ _ _ => exact ⟨_, _, _, ha, rfl⟩

theorem readIpv4_of_digitFree (h : DigitFree 10 cs) : readIpv4 cs = none := by
  rw [readIpv4, readOctet_of_digitFree h]
  rfl

end Ipv4

/-! ## Groups and what comes behind them -/

/-- What may come behind a row: the end of the text, a closing bracket, or a `::`. -/
inductive Closes : List Char → Prop where
  | nil : Closes []
  | bracket (rest : List Char) : Closes (']' :: rest)
  | gap (rest : List Char) : Closes (':' :: ':' :: rest)

/-- What may come behind a group: what closes a row, or the colon before another group. -/
def Ends (rest : List Char) : Prop := ∀ c ∈ rest.head?, c = ':' ∨ c = ']'

theorem ends_colon (rest : List Char) : Ends (':' :: rest) := by
  rintro c ⟨⟩
  exact Or.inl rfl

theorem Closes.ends {rest : List Char} (h : Closes rest) : Ends rest := by
  intro c hc
  cases h with
  | nil => cases hc
  | bracket =>
    cases hc
    exact Or.inr rfl
  | gap =>
    cases hc
    exact Or.inl rfl

theorem Ends.digitFree {rest : List Char} {base : Nat} (h : Ends rest)
    (hcolon : digitValue? base ':' = none) (hbracket : digitValue? base ']' = none) :
    DigitFree base rest := by
  intro c hc
  rcases h c hc with rfl | rfl
  · exact hcolon
  · exact hbracket

/-- A group is not the beginning of an IPv4 address. -/
theorem readIpv4_eq_none_of_group {text rest : List Char} {g : UInt16} (h : IsGroup text g)
    (hrest : Ends rest) : readIpv4 (text ++ rest) = none := by
  by_contra hsome
  obtain ⟨⟨v, left⟩, hread⟩ := Option.ne_none_iff_exists'.1 hsome
  obtain ⟨_, hipv4, heq⟩ := exists_ipv4_of_readIpv4 hread
  obtain ⟨octet, o, more, ⟨⟨_, _, hoctet, _⟩, _⟩, rfl⟩ := hipv4.exists_octet
  obtain ⟨⟨_, _, hgroup, _⟩, _⟩ := h
  rw [List.append_assoc, List.cons_append] at heq
  -- The dot is behind the group, where only a colon or a bracket may be, or it is one of its digits.
  rcases List.append_eq_append_iff.1 heq with ⟨behind, hfront, hback⟩ | ⟨behind, hfront, hback⟩
  · cases behind with
    | nil =>
      have hdot := hrest '.' (by rw [hback]; rfl)
      revert hdot
      decide
    | cons c behind =>
      have hmem : c ∈ octet := by rw [hfront]; simp
      rcases hrest c (by rw [hback]; rfl) with rfl | rfl
      · exact not_mem_of_digits (by decide) hoctet rfl hmem
      · exact not_mem_of_digits (by decide) hoctet rfl hmem
  · cases behind with
    | nil =>
      have hdot := hrest '.' (by rw [← List.nil_append rest, ← hback]; rfl)
      revert hdot
      decide
    | cons c behind =>
      obtain rfl : '.' = c := (List.cons.inj hback).1
      exact not_mem_of_digits (by decide) hgroup (show digitValue? 16 '.' = none from rfl)
        (by rw [hfront]; simp)

/-! ## Rows -/

/-- What stands in front of a group: a colon, unless it is the first. -/
def lead (first : Bool) : List Char := if first then [] else [':']

section Row

variable {text rest cs start : List Char} {g : UInt16} {gs : List UInt16} {v : Ipv4} {room : Nat}
  {first dotted : Bool}

theorem start_eq_some_iff :
    (if first then some cs else skip ':' cs) = some start ↔ cs = lead first ++ start := by
  cases first <;> simp [lead, skip_eq_some_iff]

theorem readGroups_of_ipv4 (hroom : room ≠ 0) (h : readIpv4 start = some (v, rest)) :
    readGroups (room + 1) first (lead first ++ start) = (pairOfIpv4 v, true, rest) := by
  rw [readGroups, start_eq_some_iff.2 rfl]
  dsimp only
  rw [if_neg hroom, h]

theorem readGroups_of_group (hipv4 : readIpv4 start = none) (h : readGroup start = some (g, rest)) :
    readGroups (room + 1) first (lead first ++ start) =
      (g :: (readGroups room false rest).1, (readGroups room false rest).2) := by
  rw [readGroups, start_eq_some_iff.2 rfl]
  dsimp only
  rw [hipv4, ite_self, h]

/-- Where a row may end no other group begins. -/
theorem readGroups_of_closes (h : Closes rest) :
    readGroups room first rest = ([], false, rest) := by
  cases room with
  | zero => rfl
  | succ room =>
    rw [readGroups]
    cases hstart : (if first then some rest else skip ':' rest) with
    | none => rfl
    | some start =>
      have hends : Ends start := by
        rw [start_eq_some_iff] at hstart
        cases first with
        | true =>
          rw [← show rest = start from hstart]
          exact h.ends
        | false =>
          cases h <;> cases hstart
          exact ends_colon _
      dsimp only
      rw [readIpv4_of_digitFree (hends.digitFree rfl rfl), ite_self,
        readGroup_of_digitFree (hends.digitFree rfl rfl)]

/-- A row is read to its end. -/
theorem readGroups_append (h : IsRow dotted text gs) (hroom : gs.length ≤ room)
    (hrest : Closes rest) :
    readGroups room first (lead first ++ (text ++ rest)) = (gs, dotted, rest) := by
  induction h generalizing room first with
  | group hg =>
    obtain ⟨room, rfl⟩ := Nat.exists_eq_add_of_le' hroom
    rw [List.length_singleton, readGroups_of_group (readIpv4_eq_none_of_group hg hrest.ends)
      (readGroup_append hg (hrest.ends.digitFree rfl rfl)), readGroups_of_closes hrest]
  | ipv4 hv =>
    obtain ⟨room, rfl⟩ := Nat.exists_eq_add_of_le' hroom
    exact readGroups_of_ipv4 (Nat.succ_ne_zero room)
      (readIpv4_append hv (hrest.ends.digitFree rfl rfl))
  | cons hg hrow ih =>
    rename_i text' rest' g' gs'
    rw [List.length_cons] at hroom
    obtain ⟨room, rfl⟩ := Nat.exists_eq_add_of_le' (Nat.le_trans (Nat.le_add_left 1 _) hroom)
    have hnext : readGroups room false (':' :: (rest' ++ rest)) = (gs', _, rest) :=
      ih (Nat.le_of_succ_le_succ hroom)
    rw [List.append_assoc, List.cons_append,
      readGroups_of_group (readIpv4_eq_none_of_group hg (ends_colon _))
        (readGroup_append hg ((ends_colon _).digitFree rfl rfl)), hnext]

/-- What has been read is a row, unless nothing has been read. -/
theorem exists_row_of_readGroups (h : readGroups room first cs = (gs, dotted, rest)) :
    gs.length ≤ room ∧ (gs = [] ∧ dotted = false ∧ rest = cs ∨
      ∃ text, IsRow dotted text gs ∧ cs = lead first ++ (text ++ rest)) := by
  induction room generalizing first cs gs dotted rest with
  | zero =>
    cases h
    exact ⟨Nat.le_refl 0, Or.inl ⟨rfl, rfl, rfl⟩⟩
  | succ room ih =>
    rw [readGroups] at h
    cases hstart : (if first then some cs else skip ':' cs) with
    | none =>
      rw [hstart] at h
      cases h
      exact ⟨Nat.zero_le _, Or.inl ⟨rfl, rfl, rfl⟩⟩
    | some start =>
      rw [hstart] at h
      rw [start_eq_some_iff] at hstart
      subst hstart
      dsimp only at h
      split at h
      · rename_i v left hread
        rw [Option.ite_none_left_eq_some] at hread
        obtain ⟨text, htext, rfl⟩ := exists_ipv4_of_readIpv4 hread.2
        cases h
        refine ⟨?_, Or.inr ⟨text, .ipv4 htext, rfl⟩⟩
        show 2 ≤ room + 1
        omega
      · split at h
        · cases h
          exact ⟨Nat.zero_le _, Or.inl ⟨rfl, rfl, rfl⟩⟩
        · rename_i g left hread
          obtain ⟨text, htext, rfl⟩ := exists_group_of_readGroup hread
          cases h
          obtain ⟨hlength, hrow⟩ := ih (show readGroups room false left = (_, _, _) from rfl)
          refine ⟨Nat.succ_le_succ hlength, Or.inr ?_⟩
          rcases hrow with ⟨hgs, hdotted, hrest⟩ | ⟨more, hmore, hleft⟩
          · rw [hgs, hdotted, hrest]
            exact ⟨text, .group htext, rfl⟩
          · refine ⟨text ++ ':' :: more, .cons htext hmore, ?_⟩
            rw [List.append_assoc, List.cons_append]
            exact congrArg (fun left => lead first ++ (text ++ left)) hleft

end Row

/-! ## IPv6 -/

section Ipv6

variable {text rest cs : List Char} {gs : List UInt16} {v : Ipv6} {room : Nat} {dotted : Bool}

theorem readGroups_of_isSide (h : IsSide dotted text gs) (hroom : gs.length ≤ room)
    (hrest : Closes rest) :
    ∃ ending, readGroups room true (text ++ rest) = (gs, ending, rest) ∧
      (dotted = false → ending = false) := by
  cases h with
  | nil => exact ⟨false, readGroups_of_closes hrest, fun _ => rfl⟩
  | row h => exact ⟨dotted, readGroups_append h hroom hrest, id⟩

theorem isSide_of_readGroups (h : readGroups room true cs = (gs, dotted, rest)) :
    gs.length ≤ room ∧ ∃ text, IsSide dotted text gs ∧ cs = text ++ rest := by
  obtain ⟨hlength, ⟨rfl, rfl, rfl⟩ | ⟨text, hrow, hcs⟩⟩ := exists_row_of_readGroups h
  · exact ⟨hlength, [], .nil, rfl⟩
  · exact ⟨hlength, text, .row hrow, hcs⟩

/-- An IPv6 address is read as what it is, at the end of a text and in brackets. -/
theorem readIpv6_append (h : IsIpv6 text v) (hrest : rest = [] ∨ ∃ more, rest = ']' :: more) :
    readIpv6 (text ++ rest) = some (v, rest) := by
  have hcloses : Closes rest := by
    rcases hrest with rfl | ⟨more, rfl⟩
    · exact .nil
    · exact .bracket more
  obtain ⟨groups, hgroups⟩ := v
  cases h with
  | full hrow =>
    have hread : readGroups 8 true (text ++ rest) = (groups, _, rest) :=
      readGroups_append hrow (Nat.le_of_eq hgroups) hcloses
    rw [readIpv6, hread]
    dsimp only
    rw [dif_pos hgroups]
  | gap hhead htail hroom hv =>
    rename_i dotted head tail before behind
    have hskip : ∀ more, skip ':' (':' :: more) = some more := fun _ => skip_eq_some_iff.2 rfl
    obtain ⟨ending, hbefore, hending⟩ :=
      readGroups_of_isSide hhead (show before.length ≤ 8 by omega) (.gap (tail ++ rest))
    obtain ⟨_, hbehind, _⟩ :=
      readGroups_of_isSide htail (show behind.length ≤ 7 - before.length by omega) hcloses
    rw [List.append_assoc, List.cons_append, List.cons_append, readIpv6, hbefore, hending rfl]
    dsimp only at hv ⊢
    subst hv
    rw [dif_neg (by omega), if_neg Bool.false_ne_true]
    simp only [Option.bind_eq_bind, Option.bind_some, hskip, hbehind]
    rw [dif_pos hgroups]

/-- What has been read as an IPv6 address is one. -/
theorem exists_ipv6_of_readIpv6 (h : readIpv6 cs = some (v, rest)) :
    ∃ text, IsIpv6 text v ∧ cs = text ++ rest := by
  unfold readIpv6 at h
  cases hhead : readGroups 8 true cs with
  | mk before more =>
    obtain ⟨dotted, left⟩ := more
    obtain ⟨hlength, head, hside, rfl⟩ := isSide_of_readGroups hhead
    rw [hhead] at h
    dsimp only at h
    split at h
    · rename_i hfull
      cases h
      cases hside with
      | nil => cases hfull
      | row hrow => exact ⟨head, .full hrow, rfl⟩
    · rename_i hfull
      split at h
      · cases h
      · rename_i hdotted
        rw [Bool.not_eq_true] at hdotted
        subst hdotted
        simp only [Option.bind_eq_bind, Option.bind_eq_some_iff, skip_eq_some_iff] at h
        obtain ⟨_, rfl, left, rfl, h⟩ := h
        cases htail : readGroups (7 - before.length) true left with
        | mk behind more =>
          obtain ⟨ending, left'⟩ := more
          obtain ⟨hlength', tail, hside', rfl⟩ := isSide_of_readGroups htail
          rw [htail] at h
          dsimp only at h
          split at h
          · cases h
            refine ⟨head ++ ':' :: ':' :: tail, .gap hside hside' (by omega) rfl, by simp⟩
          · cases h

/-- A row does not begin like an IPv4 address, unless it is one. -/
theorem readIpv4_eq_none_of_row (h : IsRow dotted text gs) (hgs : dotted = true → gs.length ≠ 2)
    (hrest : Ends rest) : readIpv4 (text ++ rest) = none := by
  cases h with
  | group hg => exact readIpv4_eq_none_of_group hg hrest
  | ipv4 => exact absurd rfl (hgs rfl)
  | cons hg =>
    rw [List.append_assoc, List.cons_append]
    exact readIpv4_eq_none_of_group hg (ends_colon _)

theorem readIpv4_eq_none_of_ipv6 (h : IsIpv6 text v) : readIpv4 text = none := by
  cases h with
  | full hrow =>
    have hnone := readIpv4_eq_none_of_row hrow (by simp [v.length_groups]) Closes.nil.ends
    rwa [List.append_nil] at hnone
  | gap hhead =>
    cases hhead with
    | nil => exact readIpv4_of_digitFree ((ends_colon _).digitFree rfl rfl)
    | row hrow => exact readIpv4_eq_none_of_row hrow (fun h => by cases h) (ends_colon _)

end Ipv6

/-! ## Addresses -/

theorem whole_eq_some_iff {α : Type} {r : Option (α × List Char)} {a : α} :
    whole r = some a ↔ r = some (a, []) := by
  unfold whole
  split
  · simp
  · rename_i hnot
    constructor
    · intro h
      cases h
    · intro h
      exact absurd h (hnot a)

/-- The texts that are read as addresses are those that are addresses. -/
theorem ofChars?_eq_some_iff {cs : List Char} {a : IpAddress} :
    IpAddress.ofChars? cs = some a ↔ IsIpAddress cs a := by
  rw [IpAddress.ofChars?, whole_eq_some_iff]
  constructor
  · intro h
    cases hipv4 : readIpv4 cs with
    | some found =>
      rw [hipv4] at h
      obtain ⟨rfl, hrest⟩ := Prod.mk.inj (Option.some.inj h)
      obtain ⟨text, htext, rfl⟩ := exists_ipv4_of_readIpv4 hipv4
      rw [hrest, List.append_nil]
      exact .v4 htext
    | none =>
      rw [hipv4] at h
      obtain ⟨found, hipv6, heq⟩ := Option.map_eq_some_iff.1 h
      obtain ⟨rfl, hrest⟩ := Prod.mk.inj heq
      obtain ⟨text, htext, rfl⟩ := exists_ipv6_of_readIpv6 hipv6
      rw [hrest, List.append_nil]
      exact .v6 htext
  · intro h
    cases h with
    | v4 h =>
      have hread := readIpv4_append h (digitFree_nil 10)
      rw [List.append_nil] at hread
      rw [hread]
      rfl
    | v6 h =>
      have hread := readIpv6_append h (Or.inl rfl)
      rw [List.append_nil] at hread
      rw [readIpv4_eq_none_of_ipv6 h, hread]
      rfl

end WebSocketEcho.Address
