import WebSocketEcho.Decimal

/-!
# Internet addresses

IPv4 and IPv6 addresses, alone and with a port: what their texts may be, and the one text that each
is printed as.  IPv6 is printed as RFC 5952 says: groups in lower-case hexadecimal without leading
zeros, the first longest run of at least two zero groups as `::`, and a mapped IPv4 address in
dotted form.
-/

namespace WebSocketEcho

structure Ipv4 where
  a : UInt8
  b : UInt8
  c : UInt8
  d : UInt8
deriving DecidableEq, Repr, Inhabited

structure Ipv6 where
  groups : List UInt16
  length_groups : groups.length = 8
deriving DecidableEq, Repr

inductive IpAddress where
  | v4 (address : Ipv4)
  | v6 (address : Ipv6)
deriving DecidableEq, Repr

structure SocketAddress where
  ip : IpAddress
  port : UInt16
deriving DecidableEq, Repr

/-! ## Reading

A reader takes what it can from the front of a text and leaves the rest. -/

namespace Address

/-- The value of a digit below `base`, in either case. -/
def digitValue? (base : Nat) (c : Char) : Option Nat :=
  let value :=
    if '0' ≤ c ∧ c ≤ '9' then c.toNat - 0x30
    else if 'a' ≤ c ∧ c ≤ 'z' then c.toNat - 0x61 + 10
    else if 'A' ≤ c ∧ c ≤ 'Z' then c.toNat - 0x41 + 10
    else base
  if value < base then some value else none

/-- The digits at the front, as values, and what follows them. -/
def spanDigits (base : Nat) : List Char → List Nat × List Char
  | [] => ([], [])
  | c :: rest =>
    match digitValue? base c with
    | none => ([], c :: rest)
    | some d =>
      let (ds, rest) := spanDigits base rest
      (d :: ds, rest)

/-- The number that digits spell in a base. -/
def ofDigits (base : Nat) (ds : List Nat) : Nat :=
  ds.foldl (fun value d => base * value + d) 0

/-- One dotted part: one to three decimal digits, no zero before another digit, at most 255. -/
def readOctet (cs : List Char) : Option (UInt8 × List Char) :=
  let (ds, rest) := spanDigits 10 cs
  if ds.isEmpty || 3 < ds.length || (1 < ds.length && ds.head? == some 0) then none
  else if ofDigits 10 ds < 256 then some (UInt8.ofNat (ofDigits 10 ds), rest)
  else none

/-- One group: one to four hexadecimal digits. -/
def readGroup (cs : List Char) : Option (UInt16 × List Char) :=
  let (ds, rest) := spanDigits 16 cs
  if ds.isEmpty || 4 < ds.length then none else some (UInt16.ofNat (ofDigits 16 ds), rest)

/-- A port: decimal digits, zeros in front allowed, at most 65535. -/
def readPort (cs : List Char) : Option (UInt16 × List Char) :=
  let (ds, rest) := spanDigits 10 cs
  if ds.isEmpty then none
  else if ofDigits 10 ds < 65536 then some (UInt16.ofNat (ofDigits 10 ds), rest)
  else none

def skip (mark : Char) : List Char → Option (List Char)
  | [] => none
  | c :: rest => if c = mark then some rest else none

def readIpv4 (cs : List Char) : Option (Ipv4 × List Char) := do
  let (a, cs) ← readOctet cs
  let (b, cs) ← readOctet (← skip '.' cs)
  let (c, cs) ← readOctet (← skip '.' cs)
  let (d, cs) ← readOctet (← skip '.' cs)
  return (⟨a, b, c, d⟩, cs)

/-- The two groups that an IPv4 address takes inside an IPv6 address. -/
def pairOfIpv4 (v : Ipv4) : List UInt16 :=
  [UInt16.ofNat (256 * v.a.toNat + v.b.toNat), UInt16.ofNat (256 * v.c.toNat + v.d.toNat)]

/-- The groups at the front, at most `room`, with colons between them (and one before the first
unless `first`).  The flag tells that the last two were written as an IPv4 address, which ends the
groups. -/
def readGroups : Nat → Bool → List Char → List UInt16 × Bool × List Char
  | 0, _, cs => ([], false, cs)
  | room + 1, first, cs =>
    match if first then some cs else skip ':' cs with
    | none => ([], false, cs)
    | some start =>
      match if room = 0 then none else readIpv4 start with
      | some (v, rest) => (pairOfIpv4 v, true, rest)
      | none =>
        match readGroup start with
        | none => ([], false, cs)
        | some (g, rest) =>
          let (gs, dotted, rest) := readGroups room false rest
          (g :: gs, dotted, rest)

/-- Eight groups, or fewer on both sides of one `::`. -/
def readIpv6 (cs : List Char) : Option (Ipv6 × List Char) :=
  let (head, dotted, rest) := readGroups 8 true cs
  if h : head.length = 8 then some (⟨head, h⟩, rest)
  else if dotted then none
  else do
    let rest ← skip ':' (← skip ':' rest)
    let (tail, _, rest) := readGroups (7 - head.length) true rest
    let groups := head ++ List.replicate (8 - head.length - tail.length) 0 ++ tail
    if h : groups.length = 8 then some (⟨groups, h⟩, rest) else none

/-- Takes a reading only if it leaves nothing. -/
def whole {α : Type} : Option (α × List Char) → Option α
  | some (value, []) => some value
  | _ => none

/-! ## Writing -/

def hexChars (n : Nat) : List Char := Nat.toDigits 16 n

def groupChars (gs : List UInt16) : List Char :=
  List.intercalate [':'] (gs.map fun g => hexChars g.toNat)

/-- How many of the groups from `i` on are zero before one that is not. -/
def zerosAt (gs : List UInt16) (i : Nat) : Nat :=
  ((gs.drop i).takeWhile (· == 0)).length

/-- Start and length of the first longest run of zero groups. -/
def longestZeros (gs : List UInt16) : Nat × Nat :=
  (List.range gs.length).foldl
    (fun best i => if best.2 < zerosAt gs i then (i, zerosAt gs i) else best) (0, 0)

end Address

open Address

def Ipv4.chars (v : Ipv4) : List Char :=
  List.intercalate ['.'] ([v.a, v.b, v.c, v.d].map fun o => Decimal.chars o.toNat)

/-- The IPv4 address that an IPv6 address stands for, if it is a mapped one. -/
def Ipv6.mapped? (v : Ipv6) : Option Ipv4 :=
  match v.groups with
  | [0, 0, 0, 0, 0, 0xFFFF, g, h] => some ⟨(g >>> 8).toUInt8, g.toUInt8, (h >>> 8).toUInt8, h.toUInt8⟩
  | _ => none

/-- The form of RFC 5952. -/
def Ipv6.chars (v : Ipv6) : List Char :=
  match v.mapped? with
  | some v4 => "::ffff:".toList ++ v4.chars
  | none =>
    let (start, count) := longestZeros v.groups
    if count < 2 then groupChars v.groups
    else groupChars (v.groups.take start) ++ "::".toList ++ groupChars (v.groups.drop (start + count))

namespace IpAddress

/-- The address that a whole text spells: four decimal octets, or IPv6 without zone and brackets. -/
def ofChars? (cs : List Char) : Option IpAddress :=
  whole (((readIpv4 cs).map fun (v, rest) => (.v4 v, rest)) <|>
    ((readIpv6 cs).map fun (v, rest) => (.v6 v, rest)))

def chars : IpAddress → List Char
  | .v4 v => v.chars
  | .v6 v => v.chars

end IpAddress

namespace SocketAddress

/-- The address and port that a whole text spells, IPv6 in brackets.  A scope behind an IPv6 address,
as in `[fe80::1%3]:80`, is left out: a text that has one spells no address here. -/
def ofChars? (cs : List Char) : Option SocketAddress :=
  let v4 : Option (SocketAddress × List Char) := do
    let (v, rest) ← readIpv4 cs
    let (port, rest) ← readPort (← skip ':' rest)
    return (⟨.v4 v, port⟩, rest)
  let v6 : Option (SocketAddress × List Char) := do
    let (v, rest) ← readIpv6 (← skip '[' cs)
    let (port, rest) ← readPort (← skip ':' (← skip ']' rest))
    return (⟨.v6 v, port⟩, rest)
  whole (v4 <|> v6)

def chars (s : SocketAddress) : List Char :=
  (match s.ip with
    | .v4 v => v.chars
    | .v6 v => '[' :: v.chars ++ [']']) ++ ':' :: Decimal.chars s.port.toNat

def text (s : SocketAddress) : String := String.ofList s.chars

end SocketAddress

end WebSocketEcho
