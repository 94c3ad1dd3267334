import Mathlib.Data.List.Forall2
import WebSocketEcho.Address

/-!
# Texts that are addresses

What the texts of IPv4 and IPv6 addresses are, as predicates that join their parts with `++` and so
say nothing about how a text is read.

An IPv6 address is eight groups, or fewer on the two sides of one `::`.  The groups of a text form a
row (`IsRow`): they stand between colons, and an IPv4 address may take the place of the last two.
Such a row is called dotted; it may end an address, but not stand before the `::`.
-/

namespace WebSocketEcho.Address

/-! ## Numerals -/

/-- A digit of a base and its value.  Letters may be of either case. -/
def IsDigit (base : Nat) (c : Char) (d : Nat) : Prop :=
  d < base ∧ (c = d.digitChar ∨ c = d.digitChar.toUpper)

/-- One digit or more, and the number that they spell.  Zeros in front count for nothing. -/
def IsNumeral (base : Nat) (text : List Char) (n : Nat) : Prop :=
  text ≠ [] ∧ ∃ ds, List.Forall₂ (IsDigit base) text ds ∧ ofDigits base ds = n

/-! ## IPv4 -/

/-- A number below 256 in decimal, without a zero in front of another digit. -/
structure IsOctet (text : List Char) (o : UInt8) : Prop where
  numeral : IsNumeral 10 text o.toNat
  noZero : text.head? = some '0' → text = ['0']

/-- Four octets with dots between them. -/
inductive IsIpv4 : List Char → Ipv4 → Prop where
  | intro {ta tb tc td : List Char} {a b c d : UInt8} (ha : IsOctet ta a) (hb : IsOctet tb b)
      (hc : IsOctet tc c) (hd : IsOctet td d) :
      IsIpv4 (ta ++ '.' :: (tb ++ '.' :: (tc ++ '.' :: td))) ⟨a, b, c, d⟩

/-! ## IPv6 -/

/-- One to four hexadecimal digits. -/
structure IsGroup (text : List Char) (g : UInt16) : Prop where
  numeral : IsNumeral 16 text g.toNat
  short : text.length ≤ 4

/-- Groups with colons between them.  A dotted row has an IPv4 address in place of the last two. -/
inductive IsRow : Bool → List Char → List UInt16 → Prop where
  | group {text : List Char} {g : UInt16} (h : IsGroup text g) : IsRow false text [g]
  | ipv4 {text : List Char} {v : Ipv4} (h : IsIpv4 text v) : IsRow true text (pairOfIpv4 v)
  | cons {dotted : Bool} {text rest : List Char} {g : UInt16} {gs : List UInt16}
      (h : IsGroup text g) (hrest : IsRow dotted rest gs) :
      IsRow dotted (text ++ ':' :: rest) (g :: gs)

/-- What stands on one side of a `::`: a row, or nothing. -/
inductive IsSide (dotted : Bool) : List Char → List UInt16 → Prop where
  | nil : IsSide dotted [] []
  | row {text : List Char} {gs : List UInt16} (h : IsRow dotted text gs) : IsSide dotted text gs

/-- Eight groups, or fewer with `::` in place of the zeros that are left out. -/
inductive IsIpv6 : List Char → Ipv6 → Prop where
  | full {dotted : Bool} {text : List Char} {v : Ipv6} (h : IsRow dotted text v.groups) :
      IsIpv6 text v
  | gap {dotted : Bool} {head tail : List Char} {before behind : List UInt16} {v : Ipv6}
      (hhead : IsSide false head before) (htail : IsSide dotted tail behind)
      (hroom : before.length + behind.length < 8)
      (hv : v.groups =
        before ++ List.replicate (8 - before.length - behind.length) 0 ++ behind) :
      IsIpv6 (head ++ ':' :: ':' :: tail) v

/-- A text that is an address, and the address. -/
inductive IsIpAddress : List Char → IpAddress → Prop where
  | v4 {text : List Char} {v : Ipv4} (h : IsIpv4 text v) : IsIpAddress text (.v4 v)
  | v6 {text : List Char} {v : Ipv6} (h : IsIpv6 text v) : IsIpAddress text (.v6 v)

end WebSocketEcho.Address
