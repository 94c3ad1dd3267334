import WebSocketEcho.CommandLine
import WebSocketEcho.Proofs.Address.Printing

/-!
# From the command line to the address

What a host and a port on the command line must be for the program to start, and the address that it
then starts with.

The port is read as a signed number first, and its range is looked at afterwards
(`readSigned_eq_ok_iff`, `readPort_eq_ok_iff`).  `runWith` is a run of the program with anything in
place of a start, so that a run which does not depend on it starts nothing (`EndsBeforeStart`).  The
main result is `bound_as_asked`.
-/

namespace WebSocketEcho.CommandLine

open Address (IsDigit IsNumeral IsIpAddress)

/-! ## Signed numbers -/

/-- Digits after at most one sign, and the number that they spell. -/
inductive IsSigned : List Char → Int → Prop where
  | plain {ds : List Char} {n : Nat} (h : IsNumeral 10 ds n) : IsSigned ds n
  | plus {ds : List Char} {n : Nat} (h : IsNumeral 10 ds n) : IsSigned ('+' :: ds) n
  | minus {ds : List Char} {n : Nat} (h : IsNumeral 10 ds n) : IsSigned ('-' :: ds) (-(n : Int))

/-- A signed number from 0 to 65535, as a port. -/
def IsPort (text : List Char) (port : UInt16) : Prop := IsSigned text port.toNat

theorem digitValue?_eq (c : Char) : Decimal.digitValue? c = Address.digitValue? 10 c := by
  unfold Decimal.digitValue? Address.digitValue?
  simp only [Bool.and_eq_true, decide_eq_true_eq]
  by_cases hc : '0' ≤ c ∧ c ≤ '9'
  · have hhigh : c.toNat ≤ 57 := UInt32.le_iff_toNat_le.1 hc.2
    rw [if_pos hc, if_pos hc, if_pos (by omega)]
  · rw [if_neg hc, if_neg hc, if_neg]
    split
    · omega
    · split <;> omega

/-- Digits that lead from the value of those before them to a number. -/
def LeadsTo (value : Nat) (cs : List Char) (n : Nat) : Prop :=
  ∃ ds, List.Forall₂ (IsDigit 10) cs ds ∧ ds.foldl (fun value d => 10 * value + d) value = n

section Signed

variable {bound value n : Nat} {excess : PortFault} {c : Char} {cs : List Char} {i : Int}

theorem leadsTo_nil : LeadsTo value [] n ↔ value = n := by
  constructor
  · rintro ⟨ds, hds, rfl⟩
    cases hds
    rfl
  · rintro rfl
    exact ⟨[], .nil, rfl⟩

theorem leadsTo_cons : LeadsTo value (c :: cs) n ↔
    ∃ d, Decimal.digitValue? c = some d ∧ LeadsTo (10 * value + d) cs n := by
  rw [digitValue?_eq]
  constructor
  · rintro ⟨ds, hds, rfl⟩
    cases hds with
    | cons hd hds => exact ⟨_, (Address.digitValue?_eq_some_iff (by decide)).2 hd, _, hds, rfl⟩
  · rintro ⟨d, hd, ds, hds, rfl⟩
    exact ⟨d :: ds, .cons ((Address.digitValue?_eq_some_iff (by decide)).1 hd) hds, rfl⟩

theorem LeadsTo.le (h : LeadsTo value cs n) : value ≤ n := by
  obtain ⟨ds, hds, rfl⟩ := h
  refine Nat.le_trans ?_ (Address.foldl_digits_bounds (Address.lt_of_mem_digits hds) value).1
  exact Nat.le_mul_of_pos_left value (Nat.pow_pos (by decide))

/-- Digits are read as long as their number stays within the bound, since it never falls again. -/
theorem boundedDigits_eq_ok_iff (hvalue : value ≤ bound) :
    boundedDigits bound excess value cs = .ok n ↔ LeadsTo value cs n ∧ n ≤ bound := by
  induction cs generalizing value with
  | nil =>
    rw [boundedDigits, Except.ok.injEq, leadsTo_nil]
    constructor
    · rintro rfl
      exact ⟨rfl, hvalue⟩
    · exact And.left
  | cons c cs ih =>
    rw [boundedDigits, leadsTo_cons]
    cases Decimal.digitValue? c with
    | none => simp
    | some d =>
      simp only [Option.some_inj, exists_eq_left']
      split
      · rename_i hle
        exact ih hle
      · rename_i hlarge
        constructor
        · intro h
          cases h
        · rintro ⟨hleads, hn⟩
          exact absurd (Nat.le_trans hleads.le hn) hlarge

/-- A run of digits behind its sign. -/
theorem map_boundedDigits_eq_ok_iff (f : Nat → Int) (hne : cs ≠ []) :
    (boundedDigits bound excess 0 cs).map f = .ok i ↔
      ∃ n, IsNumeral 10 cs n ∧ n ≤ bound ∧ f n = i := by
  have hdigits : ∀ n, boundedDigits bound excess 0 cs = .ok n ↔ IsNumeral 10 cs n ∧ n ≤ bound := by
    intro n
    rw [boundedDigits_eq_ok_iff (Nat.zero_le bound)]
    exact and_congr_left' ⟨fun h => ⟨hne, h⟩, And.right⟩
  cases hread : boundedDigits bound excess 0 cs with
  | error why =>
    simp only [hread, reduceCtorEq, false_iff] at hdigits
    simp only [Except.map, reduceCtorEq, false_iff]
    rintro ⟨n, hn, hle, _⟩
    exact hdigits n ⟨hn, hle⟩
  | ok m =>
    simp only [hread, Except.ok.injEq] at hdigits
    simp only [Except.map, Except.ok.injEq, ← and_assoc, ← hdigits, exists_eq_left']

theorem not_isNumeral_of_sign (hc : Address.digitValue? 10 c = none) :
    ¬ IsNumeral 10 (c :: cs) n := by
  rintro ⟨_, ds, hds, _⟩
  exact Address.not_mem_of_digits (by decide) hds hc List.mem_cons_self

theorem isSigned_plus_iff :
    IsSigned ('+' :: cs) i ↔ ∃ n : Nat, IsNumeral 10 cs n ∧ (n : Int) = i := by
  constructor
  · intro h
    cases h with
    | plain h => exact absurd h (not_isNumeral_of_sign rfl)
    | plus h => exact ⟨_, h, rfl⟩
  · rintro ⟨n, h, rfl⟩
    exact .plus h

theorem isSigned_minus_iff :
    IsSigned ('-' :: cs) i ↔ ∃ n : Nat, IsNumeral 10 cs n ∧ -(n : Int) = i := by
  constructor
  · intro h
    cases h with
    | plain h => exact absurd h (not_isNumeral_of_sign rfl)
    | minus h => exact ⟨_, h, rfl⟩
  · rintro ⟨n, h, rfl⟩
    exact .minus h

theorem isSigned_plain_iff (hplus : ∀ rest, cs ≠ '+' :: rest) (hminus : ∀ rest, cs ≠ '-' :: rest) :
    IsSigned cs i ↔ ∃ n : Nat, IsNumeral 10 cs n ∧ (n : Int) = i := by
  constructor
  · intro h
    cases h with
    | plain h => exact ⟨_, h, rfl⟩
    | plus => exact absurd rfl (hplus _)
    | minus => exact absurd rfl (hminus _)
  · rintro ⟨n, h, rfl⟩
    exact .plain h

/-- Digits that stand for a number of their own sign. -/
theorem read_positive_iff (hne : cs ≠ []) :
    (boundedDigits 0x7FFFFFFFFFFFFFFF .tooLarge 0 cs).map Int.ofNat = .ok i ↔
      (∃ n : Nat, IsNumeral 10 cs n ∧ (n : Int) = i) ∧
        -0x8000000000000000 ≤ i ∧ i ≤ 0x7FFFFFFFFFFFFFFF := by
  rw [map_boundedDigits_eq_ok_iff _ hne]
  simp only [Int.ofNat_eq_natCast]
  constructor
  · rintro ⟨n, h, hle, rfl⟩
    exact ⟨⟨n, h, rfl⟩, by omega, by omega⟩
  · rintro ⟨⟨n, h, rfl⟩, _, hle⟩
    exact ⟨n, h, by omega, rfl⟩

/-- A number is read if it is one by its digits and sign, and fits 64 bits with its sign. -/
theorem readSigned_eq_ok_iff :
    readSigned cs = .ok i ↔
      IsSigned cs i ∧ -0x8000000000000000 ≤ i ∧ i ≤ 0x7FFFFFFFFFFFFFFF := by
  have hempty : ∀ n, ¬ IsNumeral 10 [] n := fun n h => h.1 rfl
  unfold readSigned
  split
  case h_1 => simp [isSigned_plain_iff, hempty]
  case h_2 => simp [isSigned_plus_iff, hempty]
  case h_3 => simp [isSigned_minus_iff, hempty]
  case h_4 rest hne => rw [read_positive_iff hne, isSigned_plus_iff]
  case h_5 rest hne =>
    have hmap : ∀ r : Except PortFault Nat, (do let a ← r; pure (a : Int)).map (fun n => -n) =
        Except.map (fun n : Nat => -(n : Int)) r := by
      intro r
      cases r <;> rfl
    rw [hmap, map_boundedDigits_eq_ok_iff _ hne, isSigned_minus_iff]
    constructor
    · rintro ⟨n, h, hle, rfl⟩
      exact ⟨⟨n, h, rfl⟩, by omega, by omega⟩
    · rintro ⟨⟨n, h, rfl⟩, hle, _⟩
      exact ⟨n, h, by omega, rfl⟩
  case h_6 hnil hplus hminus hplus' hminus' =>
    rw [read_positive_iff hnil, isSigned_plain_iff hplus' hminus']

end Signed

/-- The ports that are read. -/
theorem readPort_eq_ok_iff {text : String} {port : UInt16} :
    readPort text = .ok port ↔ IsPort text.toList port := by
  have hport := port.toNat_lt
  unfold readPort IsPort
  constructor
  · intro h
    split at h
    · cases h
    · rename_i i hread
      split at h
      · rename_i hrange
        cases h
        rw [UInt16.toNat_ofNat_of_lt' (by simp; omega), Int.toNat_of_nonneg hrange.1]
        exact (readSigned_eq_ok_iff.1 hread).1
      · cases h
  · intro h
    have hread := readSigned_eq_ok_iff.2 ⟨h, by omega, by omega⟩
    rw [hread]
    dsimp only
    rw [if_pos (by omega), Int.toNat_natCast, UInt16.ofNat_toNat]

example : readPort "-0" = .ok 0 ∧ readPort "+00065536" = .error (.outOfRange 65536) := by decide

/-! ## Two arguments -/

/-- A host and a port as arguments, with an equals sign each. -/
def hostAndPort (host port : String) : List String := ["--host=" ++ host, "--port=" ++ port]

/-- Without its two dashes, a setting with a value is the name, an equals sign and all of the
value. -/
theorem long_setting (a : Arguments) (s : Setting) (value : String) :
    Reading.long ⟨a, none, false⟩ (s.flag.name.toList ++ '=' :: value.toList) = a.take s value := by
  have hequals : ∀ c ∈ s.flag.name.toList, (c != '=') = true := by
    cases s <;> exact List.all_eq_true.1 rfl
  have hname : (s.flag.name.toList ++ '=' :: value.toList).takeWhile (· != '=') =
      s.flag.name.toList := by
    rw [List.takeWhile_append_of_pos hequals, List.takeWhile_cons_of_neg (by decide),
      List.append_nil]
  simp only [Reading.long, hname, List.drop_left, List.tail?_cons, Option.map_some,
    String.ofList_toList]
  cases s <;> rfl

/-- A setting with its value behind an equals sign is judged at once. -/
theorem next_setting (a : Arguments) (s : Setting) (value : String) :
    Reading.next ⟨a, none, false⟩ ("--" ++ s.flag.name ++ "=" ++ value) = a.take s value := by
  have hchars : ("--" ++ s.flag.name ++ "=" ++ value).toList =
      '-' :: '-' :: (s.flag.name.toList ++ '=' :: value.toList) := by
    simp
  rw [← long_setting, Reading.next, if_neg Bool.false_ne_true, hchars]
  cases s <;> rfl

/-- The settings of a host and a port. -/
theorem read_hostAndPort (host port : String) :
    Arguments.read (hostAndPort host port) =
      match readPort port with
      | .ok n => .ok ⟨some host, some n, [.host, .port]⟩
      | .error why => .error (.error (.invalidPort port why)) := by
  have hhost : Reading.next ⟨.none, none, false⟩ ("--host=" ++ host) =
      .ok ⟨⟨some host, none, [.host]⟩, none, false⟩ := next_setting .none .host host
  have hport : Reading.next ⟨⟨some host, none, [.host]⟩, none, false⟩ ("--port=" ++ port) =
      Arguments.take .port port ⟨some host, none, [.host]⟩ := next_setting _ .port port
  have htake : Arguments.take .port port ⟨some host, none, [.host]⟩ =
      match readPort port with
      | .ok n => .ok ⟨⟨some host, some n, [.host, .port]⟩, none, false⟩
      | .error why => .error (.error (.invalidPort port why)) := by
    simp only [Arguments.take, Arguments.settle]
    cases readPort port <;> rfl
  simp only [Arguments.read, hostAndPort, List.foldlM_cons, List.foldlM_nil, hhost, bind,
    Except.bind, hport, htake]
  cases readPort port <;> rfl

/-! ## Runs -/

/-- A run of the program with anything in place of a start. -/
def runWith (begin : Settings → Output) (arguments : List String) : Output :=
  match Arguments.read arguments with
  | .error stop => stop.output
  | .ok a =>
    match a.settings with
    | .error failure => ⟨1, "", failure.report⟩
    | .ok s => begin s

theorem run_eq_runWith (arguments : List String) (filter : Option String) :
    run arguments filter = runWith (start filter) arguments := rfl

/-- The settings that arguments make, if nothing stops the program before a start. -/
def settings? (arguments : List String) : Option Settings :=
  match Arguments.read arguments with
  | .error _ => none
  | .ok a => a.settings.toOption

/-- A run that ends with a message about an error and starts nothing: it is the same whatever a
start does. -/
structure EndsBeforeStart (arguments : List String) (o : Output) : Prop where
  failed : o.code ≠ 0
  silent : o.out = ""
  message : o.err ≠ ""
  startsNothing : ∀ begin, runWith begin arguments = o

/-- With a host and a port, the port is judged before the host. -/
theorem runWith_hostAndPort (begin : Settings → Output) (host port : String) :
    runWith begin (hostAndPort host port) =
      match readPort port with
      | .error why => ⟨2, "", (UsageError.invalidPort port why).text⟩
      | .ok n =>
        match IpAddress.ofChars? host.toList with
        | none => ⟨1, "", (StartFailure.badHost host).report⟩
        | some ip => begin ⟨⟨ip, n⟩⟩ := by
  unfold runWith
  rw [read_hostAndPort]
  cases readPort port with
  | error why => rfl
  | ok n =>
    simp only [Arguments.settings, settings, Option.getD_some]
    cases IpAddress.ofChars? host.toList <;> rfl

theorem settings?_hostAndPort (host port : String) :
    settings? (hostAndPort host port) =
      (readPort port).toOption.bind fun n =>
        (IpAddress.ofChars? host.toList).map fun ip => ⟨⟨ip, n⟩⟩ := by
  unfold settings?
  rw [read_hostAndPort]
  cases readPort port with
  | error why => rfl
  | ok n =>
    simp only [Arguments.settings, settings, Option.getD_some]
    cases IpAddress.ofChars? host.toList <;> rfl


/-- A host and a port make the settings of the address and the port that they spell. -/
theorem settings?_eq_some_iff {host port : String} {s : Settings} :
    settings? (hostAndPort host port) = some s ↔
      IsIpAddress host.toList s.bind.ip ∧ IsPort port.toList s.bind.port := by
  rw [settings?_hostAndPort, ← Address.ofChars?_eq_some_iff, ← readPort_eq_ok_iff]
  cases readPort port with
  | error why => simp [Except.toOption]
  | ok n =>
    simp only [Except.toOption, Option.bind_some, Option.map_eq_some_iff, Except.ok.injEq]
    constructor
    · rintro ⟨ip, hip, rfl⟩
      exact ⟨hip, rfl⟩
    · rintro ⟨hip, rfl⟩
      exact ⟨_, hip, rfl⟩

/-- A run that makes settings starts with them. -/
theorem runWith_of_settings? {arguments : List String} {s : Settings}
    (h : settings? arguments = some s) (begin : Settings → Output) :
    runWith begin arguments = begin s := by
  unfold settings? at h
  unfold runWith
  cases hread : Arguments.read arguments with
  | error stop => simp [hread] at h
  | ok a =>
    cases hsettings : a.settings with
    | error failure => simp [hread, hsettings, Except.toOption] at h
    | ok s' =>
      simp only [hread, hsettings, Except.toOption, Option.some.injEq] at h
      simp only [hsettings, h]

/-- A run of a host and a port that makes no settings ends at the port or at the host. -/
theorem endsBeforeStart_of_settings? {host port : String} (filter : Option String)
    (h : settings? (hostAndPort host port) = none) :
    EndsBeforeStart (hostAndPort host port) (run (hostAndPort host port) filter) := by
  rw [run_eq_runWith]
  cases hport : readPort port with
  | error why =>
    have hrun : ∀ begin, runWith begin (hostAndPort host port) =
        ⟨2, "", (UsageError.invalidPort port why).text⟩ := by
      intro begin
      rw [runWith_hostAndPort, hport]
    rw [hrun]
    exact ⟨Nat.succ_ne_zero 1, rfl, by simp [UsageError.text], hrun⟩
  | ok n =>
    cases hhost : IpAddress.ofChars? host.toList with
    | some ip => simp [settings?_hostAndPort, hport, hhost, Except.toOption] at h
    | none =>
      have hrun : ∀ begin, runWith begin (hostAndPort host port) =
          ⟨1, "", (StartFailure.badHost host).report⟩ := by
        intro begin
        rw [runWith_hostAndPort, hport]
        dsimp only
        rw [hhost]
      rw [hrun]
      exact ⟨Nat.succ_ne_zero 0, rfl, by simp [StartFailure.report], hrun⟩

/-- What a printed address and a printed port make. -/
theorem settings?_printed (ip : IpAddress) (n : UInt16) :
    settings? (hostAndPort (String.ofList ip.chars) (Decimal.text n.toNat)) = some ⟨⟨ip, n⟩⟩ := by
  rw [settings?_eq_some_iff, Decimal.text, String.toList_ofList, String.toList_ofList]
  exact ⟨Address.isIpAddress_chars ip, .plain (Address.isNumeral_chars n.toNat)⟩

/-- A host and a port make settings exactly if the host is the text of an address and the port a
number from 0 to 65535 with or without a sign; the program then starts with that address and that
port, and otherwise it ends with an error before anything has been started.  Every address and every
port is made by what it is printed as, and the two printed together are read back as well. -/
theorem bound_as_asked (host port : String) (filter : Option String) :
    (∀ s, settings? (hostAndPort host port) = some s ↔
      IsIpAddress host.toList s.bind.ip ∧ IsPort port.toList s.bind.port) ∧
    (match settings? (hostAndPort host port) with
      | some s => run (hostAndPort host port) filter = start filter s
      | none => EndsBeforeStart (hostAndPort host port) (run (hostAndPort host port) filter)) ∧
    (∀ ip n, settings? (hostAndPort (String.ofList ip.chars) (Decimal.text n.toNat)) =
      some ⟨⟨ip, n⟩⟩) ∧
    ∀ a : SocketAddress, SocketAddress.ofChars? a.text.toList = some a := by
  refine ⟨fun s => settings?_eq_some_iff, ?_, settings?_printed, fun a => ?_⟩
  · cases hsettings : settings? (hostAndPort host port) with
    | some s => exact runWith_of_settings? hsettings (start filter)
    | none => exact endsBeforeStart_of_settings? filter hsettings
  · rw [SocketAddress.text, String.toList_ofList]
    exact Address.socketAddress_ofChars?_chars a

end WebSocketEcho.CommandLine
