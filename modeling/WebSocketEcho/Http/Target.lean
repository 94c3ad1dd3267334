import WebSocketEcho.Http.Fault

/-!
# Request targets

The texts that may stand as the target of a request (RFC 3986, with the liberties that clients
take): a path with a query, `*`, an absolute URI, or an authority alone.  A fragment is read and
left out.
-/

namespace WebSocketEcho.Http.Target

/-! ## Characters -/

/-- Letters, digits and `+`, `-`, `.`. -/
def isSchemeByte (b : UInt8) : Bool :=
  Ascii.isLetter b || Ascii.isDigit b || b == 0x2B || b == 0x2D || b == 0x2E

/-- What may stand in an authority as it is: the unreserved characters and the delimiters. -/
def isAuthorityByte (b : UInt8) : Bool :=
  Ascii.isLetter b || Ascii.isDigit b || (Bytes.ofText "!#$&'()*+,-./:;=?@[]_~").contains b

def isPathByte (b : UInt8) : Bool :=
  b == 0x21 || b == 0x22 || (0x24 ≤ b && b ≤ 0x3B) || b == 0x3D || (0x40 ≤ b && b ≤ 0x5F) ||
    (0x61 ≤ b && b ≤ 0x7E) || 0x7F ≤ b

def isQueryByte (b : UInt8) : Bool :=
  b == 0x21 || (0x24 ≤ b && b ≤ 0x3B) || b == 0x3D || (0x3F ≤ b && b ≤ 0x7E) || 0x7F ≤ b

/-! ## Path and query -/

/-- Everything before a fragment. -/
def dropFragment (bytes : Bytes) : Bytes := bytes.takeWhile (· != 0x23)

/-- A path with an optional query. -/
def readPath? (scheme authority : Option Bytes) (bytes : Bytes) : Option Target :=
  let bytes := dropFragment bytes
  let path := bytes.takeWhile (· != 0x3F)
  let query := (bytes.drop path.length).tail?
  if path.all isPathByte && (query.getD []).all isQueryByte && Utf8.isValid bytes then
    some { scheme, authority, path, query }
  else none

/-! ## Authority -/

/-- What is known of an authority after some of its bytes. -/
structure AuthorityScan where
  /-- Colons that do not belong to a user or to brackets. -/
  colons : Nat
  opened : Bool
  closed : Bool
  /-- A percent sign outside user and brackets. -/
  percent : Bool
  /-- The last byte was an at sign. -/
  atSign : Bool
deriving DecidableEq, Repr

/-- One byte of an authority. -/
def AuthorityScan.next? (s : AuthorityScan) (b : UInt8) : Option AuthorityScan :=
  let s := { s with atSign := false }
  if b == 0x3A then if 8 ≤ s.colons then none else some { s with colons := s.colons + 1 }
  else if b == 0x5B then if s.percent || s.opened then none else some { s with opened := true }
  else if b == 0x5D then
    if !s.opened || s.closed then none
    else some { s with closed := true, colons := 0, percent := false }
  else if b == 0x40 then some { s with atSign := true, colons := 0, percent := false }
  else if b == 0x25 then some { s with percent := true }
  else if isAuthorityByte b then some s
  else none

/-- What an authority must be as a whole. -/
def AuthorityScan.isSound (s : AuthorityScan) : Bool :=
  s.opened == s.closed && s.colons ≤ 1 && !s.atSign && !s.percent

/-- The authority at the front, up to a slash, question mark or number sign, if it is sound. -/
def readAuthority? (bytes : Bytes) : Option (Bytes × Bytes) :=
  let authority := bytes.takeWhile fun b => b != 0x2F && b != 0x3F && b != 0x23
  match authority.foldlM AuthorityScan.next? ⟨0, false, false, false, false⟩ with
  | some scan => if scan.isSound then some (authority, bytes.drop authority.length) else none
  | none => none

/-! ## Whole targets -/

/-- Scheme and separator at the front. -/
inductive SchemePart where
  | absent
  | tooLong
  | found (scheme rest : Bytes)
deriving DecidableEq, Repr

def separator : Bytes := Bytes.ofText "://"

/-- Reads a scheme.  The web's own schemes are written in lower case whatever they came in. -/
def readScheme (bytes : Bytes) : SchemePart :=
  let scheme := bytes.takeWhile isSchemeByte
  let rest := bytes.drop scheme.length
  if bytes.length ≤ 3 || rest.take 3 ≠ separator then .absent
  else if Ascii.sameWord scheme (Bytes.ofText "http") || Ascii.sameWord scheme (Bytes.ofText "https")
  then .found (scheme.map Ascii.lower) (rest.drop 3)
  else if 64 < scheme.length then .tooLong
  else .found scheme (rest.drop 3)

/-- The target that a text of at least one byte spells. -/
def read? (bytes : Bytes) : Option Target :=
  if bytes.head? = some 0x2F then readPath? none none bytes
  else if bytes = [0x2A] then some (.ofPath bytes)
  else
    match readScheme bytes with
    | .tooLong => none
    | .absent =>
      match readAuthority? bytes with
      | some (authority, []) => some ⟨none, some authority, [], none⟩
      | _ => none
    | .found scheme rest =>
      match readAuthority? rest with
      | some (authority, path) =>
        if authority.isEmpty then none else readPath? (some scheme) (some authority) path
      | none => none

/-- The longest target that is taken. -/
def maxLength : Nat := 65534

end WebSocketEcho.Http.Target
