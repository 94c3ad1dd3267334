import WebSocketEcho.Proofs.Address.Reading

/-!
# Printed addresses

What an address is printed as is a text of it by the grammar, so reading gives it back
(`ofChars?_chars`, and `SocketAddress.ofChars?_chars` with a port).

The longest run of zeros is found by a search over all places; all that matters here is that there
are zeros where it says so (`longestZeros_spec`), because then leaving them out and counting eight
groups puts them back.
-/

namespace WebSocketEcho.Address

theorem isNumeral_chars (n : Nat) : IsNumeral 10 (Decimal.chars n) n := by
  rw [Decimal.chars_eq_toDigits]
  exact isNumeral_toDigits (by decide) (by decide) n

theorem isIpv4_chars (v : Ipv4) : IsIpv4 v.chars v := by
  have h := IsIpv4.intro (isOctet_chars v.a) (isOctet_chars v.b) (isOctet_chars v.c)
    (isOctet_chars v.d)
  simpa [Ipv4.chars, List.intercalate] using h

/-! ## Groups -/

theorem isRow_groupChars (g : UInt16) (gs : List UInt16) :
    IsRow false (groupChars (g :: gs)) (g :: gs) := by
  induction gs generalizing g with
  | nil => simpa [groupChars, List.intercalate] using IsRow.group (isGroup_hexChars g)
  | cons g' gs ih =>
    have h := IsRow.cons (isGroup_hexChars g) (ih g')
    simpa [groupChars, List.intercalate] using h

theorem isSide_groupChars (gs : List UInt16) : IsSide false (groupChars gs) gs := by
  cases gs with
  | nil => exact .nil
  | cons g gs => exact .row (isRow_groupChars g gs)

/-! ## Zeros -/

/-- As many zeros as a list begins with may be taken off its front. -/
theorem eq_replicate_append {gs : List UInt16} {n : Nat}
    (h : n ≤ (gs.takeWhile (· == 0)).length) : gs = List.replicate n 0 ++ gs.drop n := by
  induction n generalizing gs with
  | zero => rfl
  | succ n ih =>
    cases gs with
    | nil => simp at h
    | cons g gs =>
      rw [List.takeWhile_cons] at h
      split at h
      · rename_i hg
        rw [beq_iff_eq.1 hg, List.replicate_succ, List.cons_append, List.drop_succ_cons,
          ← ih (Nat.le_of_succ_le_succ h)]
      · simp at h

/-- There are zeros where the search says so. -/
theorem longestZeros_spec (gs : List UInt16) :
    (longestZeros gs).2 ≤ zerosAt gs (longestZeros gs).1 := by
  unfold longestZeros
  refine List.foldlRecOn (motive := fun best : Nat × Nat => best.2 ≤ zerosAt gs best.1) _ _
    (Nat.zero_le _) ?_
  intro best hbest i _
  split
  · exact Nat.le_refl _
  · exact hbest

/-- Groups with zeros between the first and the last of them. -/
theorem groups_eq {gs : List UInt16} {start count : Nat} (h : count ≤ zerosAt gs start) :
    gs = gs.take start ++ (List.replicate count 0 ++ gs.drop (start + count)) := by
  have hdrop : gs.drop start = _ := eq_replicate_append h
  rw [List.drop_drop] at hdrop
  rw [← hdrop, List.take_append_drop]

/-! ## IPv6 -/

/-- Two bytes of a group make up the group. -/
theorem ofNat_bytes (g : UInt16) :
    UInt16.ofNat (256 * (g >>> 8).toUInt8.toNat + g.toUInt8.toNat) = g := by
  have hlt := g.toNat_lt
  apply UInt16.toNat_inj.1
  simp [UInt16.toNat_shiftRight, Nat.shiftRight_eq_div_pow]
  omega

theorem groups_of_mapped? {v : Ipv6} {w : Ipv4} (h : v.mapped? = some w) :
    v.groups = List.replicate 5 0 ++ 0xFFFF :: pairOfIpv4 w := by
  unfold Ipv6.mapped? at h
  split at h
  · rename_i g k hgroups
    cases h
    rw [hgroups, pairOfIpv4, ofNat_bytes, ofNat_bytes]
    rfl
  · cases h

/-- An IPv6 address is printed as a text of it. -/
theorem isIpv6_chars (v : Ipv6) : IsIpv6 v.chars v := by
  unfold Ipv6.chars
  cases hmapped : v.mapped? with
  | some w =>
    have hgroup : IsGroup "ffff".toList 0xFFFF := isGroup_hexChars 0xFFFF
    have htail : IsSide true ("ffff".toList ++ ':' :: w.chars) (0xFFFF :: pairOfIpv4 w) :=
      .row (.cons hgroup (.ipv4 (isIpv4_chars w)))
    exact .gap .nil htail (show 0 + 3 < 8 by decide) (groups_of_mapped? hmapped)
  | none =>
    have hzeros := longestZeros_spec v.groups
    dsimp only
    generalize (longestZeros v.groups).1 = start at hzeros ⊢
    generalize (longestZeros v.groups).2 = count at hzeros ⊢
    split
    · -- All groups are printed.
      obtain ⟨g, gs, hgs⟩ : ∃ g gs, v.groups = g :: gs :=
        List.exists_cons_of_ne_nil fun hnil => by
          have hlength := v.length_groups
          rw [hnil] at hlength
          cases hlength
      refine .full (show IsRow false _ _ from ?_)
      rw [hgs]
      exact isRow_groupChars g gs
    · have hgroups := groups_eq hzeros
      have hlength := congrArg List.length hgroups
      rw [v.length_groups, List.length_append, List.length_append, List.length_replicate] at hlength
      rw [List.append_assoc]
      refine .gap (isSide_groupChars _) (isSide_groupChars _) (by omega) ?_
      rw [List.append_assoc, show 8 - (v.groups.take start).length -
        (v.groups.drop (start + count)).length = count by omega]
      exact hgroups

/-! ## Printed forms are read back -/

theorem isIpAddress_chars (a : IpAddress) : IsIpAddress a.chars a := by
  cases a with
  | v4 v => exact .v4 (isIpv4_chars v)
  | v6 v => exact .v6 (isIpv6_chars v)

/-- A printed address with a port is read back, with or without brackets. -/
theorem socketAddress_ofChars?_chars (s : SocketAddress) :
    SocketAddress.ofChars? s.chars = some s := by
  obtain ⟨ip, port⟩ := s
  have hport : readPort (Decimal.chars port.toNat) = some (port, []) := by
    have hread := readPort_append (isNumeral_chars port.toNat) (digitFree_nil 10)
    rwa [List.append_nil] at hread
  have hskip : ∀ mark more, skip mark (mark :: more) = some more :=
    fun _ _ => skip_eq_some_iff.2 rfl
  rw [SocketAddress.ofChars?, whole_eq_some_iff]
  cases ip with
  | v4 v =>
    have hv := readIpv4_append (isIpv4_chars v)
      (digitFree_cons (show digitValue? 10 ':' = none from rfl) (Decimal.chars port.toNat))
    simp only [SocketAddress.chars, hv, hskip, hport, Option.bind_eq_bind, Option.bind_some,
      Option.pure_def]
    rfl
  | v6 v =>
    have hchars : SocketAddress.chars ⟨.v6 v, port⟩ =
        '[' :: (v.chars ++ ']' :: ':' :: Decimal.chars port.toNat) := by
      simp [SocketAddress.chars]
    have hnone : ∀ more, readIpv4 ('[' :: more) = none := fun more =>
      readIpv4_of_digitFree (digitFree_cons rfl more)
    have hv := readIpv6_append (isIpv6_chars v) (Or.inr ⟨':' :: Decimal.chars port.toNat, rfl⟩)
    simp only [hchars, hnone, hv, hskip, hport, Option.bind_eq_bind, Option.bind_some,
      Option.bind_none, Option.pure_def]
    rfl

end WebSocketEcho.Address
