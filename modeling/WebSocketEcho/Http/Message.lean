import WebSocketEcho.Decimal
import WebSocketEcho.Utf8

/-!
# HTTP messages

Versions, header fields, requests and responses, and the wire form of a response.
-/

namespace WebSocketEcho.Http

inductive Version where
  | http09
  | http10
  | http11
  | http2
  | http3
deriving DecidableEq, Repr, Inhabited

def Version.name : Version → String
  | .http09 => "HTTP/0.9"
  | .http10 => "HTTP/1.0"
  | .http11 => "HTTP/1.1"
  | .http2 => "HTTP/2.0"
  | .http3 => "HTTP/3.0"

/-- HTTP/1.1 and everything after it. -/
def Version.atLeast11 : Version → Bool
  | .http09 | .http10 => false
  | .http11 | .http2 | .http3 => true

/-! ## Header fields -/

/-- A header field.  Names are compared without regard to case. -/
structure Header where
  name : Bytes
  value : Bytes
deriving DecidableEq, Repr

def Header.isNamed (h : Header) (name : String) : Bool :=
  h.name.map Ascii.lower == Bytes.ofText name

/-- The value of the first field of a name. -/
def firstValue? (headers : List Header) (name : String) : Option Bytes :=
  (headers.find? (·.isNamed name)).map (·.value)

/-- A value that is plain text: visible ASCII, spaces and tabs. -/
def isPlainValue (value : Bytes) : Bool :=
  value.all fun b => (0x20 ≤ b && b ≤ 0x7E) || b == 0x09

/-! ## Requests -/

/-- The target of a request, its fragment left out. -/
structure Target where
  /-- The scheme of an absolute target, in lower case if it is a known one. -/
  scheme : Option Bytes
  authority : Option Bytes
  /-- Empty when the target has none. -/
  path : Bytes
  query : Option Bytes
deriving DecidableEq, Repr

namespace Target

/-- A target that is just a path. -/
def ofPath (path : Bytes) : Target := ⟨none, none, path, none⟩

/-- The path, where an absolute target without one has the root. -/
def effectivePath (t : Target) : Bytes :=
  if t.path.isEmpty && t.scheme.isSome then Bytes.ofText "/" else t.path

def text (t : Target) : String :=
  Utf8.text ((match t.scheme with
    | some s => s ++ Bytes.ofText "://"
    | none => []) ++ t.authority.getD [] ++ t.effectivePath ++
    (match t.query with
    | some q => Bytes.ofText "?" ++ q
    | none => []))

end Target

structure Request where
  method : Bytes
  target : Target
  version : Version
  headers : List Header
deriving DecidableEq, Repr

/-! ## Responses -/

inductive Status where
  | switchingProtocols
  | ok
  | badRequest
  | methodNotAllowed
  | uriTooLong
  | upgradeRequired
  | headersTooLarge
deriving DecidableEq, Repr

def Status.code : Status → Nat
  | .switchingProtocols => 101
  | .ok => 200
  | .badRequest => 400
  | .methodNotAllowed => 405
  | .uriTooLong => 414
  | .upgradeRequired => 426
  | .headersTooLarge => 431

def Status.reason : Status → String
  | .switchingProtocols => "Switching Protocols"
  | .ok => "OK"
  | .badRequest => "Bad Request"
  | .methodNotAllowed => "Method Not Allowed"
  | .uriTooLong => "URI Too Long"
  | .upgradeRequired => "Upgrade Required"
  | .headersTooLarge => "Request Header Fields Too Large"

/-- A response.  Field names are in lower case. -/
structure Response where
  version : Version
  status : Status
  headers : List Header
  body : Bytes
deriving DecidableEq, Repr

def lineEnd : Bytes := [0x0D, 0x0A]

def Header.line (h : Header) : Bytes :=
  h.name ++ Bytes.ofText ": " ++ h.value ++ lineEnd

/-- The head: status line, header lines, blank line. -/
def Response.head (r : Response) : Bytes :=
  Bytes.ofText r.version.name ++ [0x20] ++ Decimal.bytes r.status.code ++ [0x20] ++
    Bytes.ofText r.status.reason ++ lineEnd ++ r.headers.flatMap Header.line ++ lineEnd

def Header.ofText (name value : String) : Header := ⟨Bytes.ofText name, Bytes.ofText value⟩

end WebSocketEcho.Http
