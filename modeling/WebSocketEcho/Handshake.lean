import WebSocketEcho.Base64
import WebSocketEcho.Http.Message
import WebSocketEcho.Sha1

/-!
# The opening handshake

A request for the echo endpoint is accepted when it is a WebSocket opening handshake (RFC 6455,
section 4.2).  The checks of the protocol come first (`offeredKey`): they run in a fixed order, each
looks at the first field of its name only, and the first that fails is the objection.  They are
content with any key, so the server looks at the key itself after them (`key`).
-/

namespace WebSocketEcho.Handshake

open Http

/-- The only protocol version that is spoken. -/
def spokenVersion : String := "13"

/-- What the protocol objects to in an opening handshake. -/
inductive Objection where
  | wrongMethod
  | wrongHttpVersion
  | noConnectionUpgrade
  | noUpgradeWebsocket
  | otherVersion
  | noKey
  /-- Anything else, in its own words. -/
  | other (text : String)
deriving DecidableEq, Repr

/-- Why an opening handshake is refused. -/
inductive Refusal where
  | methodNotAllowed (method : Bytes)
  | unsupportedHttpVersion (version : Version)
  | missingConnectionUpgrade
  | missingUpgradeWebsocket
  | unsupportedVersion
  | missingKey
  | invalid (text : String)
deriving DecidableEq, Repr

/-- The refusal of a request that the protocol objects to. -/
def Refusal.ofObjection (r : Request) : Objection → Refusal
  | .wrongMethod => .methodNotAllowed r.method
  | .wrongHttpVersion => .unsupportedHttpVersion r.version
  | .noConnectionUpgrade => .missingConnectionUpgrade
  | .noUpgradeWebsocket => .missingUpgradeWebsocket
  | .otherVersion => .unsupportedVersion
  | .noKey => .missingKey
  | .other text => .invalid text

def Refusal.message : Refusal → String
  | .methodNotAllowed method => "WebSocket upgrade requires GET, got " ++ Bytes.toText method
  | .unsupportedHttpVersion version => "WebSocket upgrade requires HTTP/1.1, got " ++ version.name
  | .missingConnectionUpgrade => "missing `Connection: upgrade` header"
  | .missingUpgradeWebsocket => "missing `Upgrade: websocket` header"
  | .unsupportedVersion => "unsupported WebSocket version, only " ++ spokenVersion ++ " is spoken"
  | .missingKey => "missing Sec-WebSocket-Key header"
  | .invalid text => "invalid WebSocket handshake: " ++ text

def Refusal.status : Refusal → Status
  | .methodNotAllowed _ => .methodNotAllowed
  | .unsupportedVersion => .upgradeRequired
  | .unsupportedHttpVersion _ | .missingConnectionUpgrade | .missingUpgradeWebsocket
  | .missingKey | .invalid _ => .badRequest

/-! ## Checks -/

/-- The pieces of a value between spaces and commas. -/
def pieces (value : Bytes) : List Bytes :=
  value.splitOnP fun b => b == 0x20 || b == 0x2C

/-- A plain value one of whose pieces is `upgrade`. -/
def asksUpgrade (value : Bytes) : Bool :=
  isPlainValue value && (pieces value).any (Ascii.sameWord (Bytes.ofText "upgrade"))

/-- A value that is `websocket` and nothing else. -/
def namesWebsocket (value : Bytes) : Bool :=
  Ascii.sameWord (Bytes.ofText "websocket") value

/-- A key of nothing but blanks, the empty one among them. -/
def isBlankKey (key : Bytes) : Bool := key.all Ascii.isWhitespace

/-- The key of a handshake that the protocol accepts, or its first objection. -/
def offeredKey (r : Request) : Except Objection Bytes :=
  if r.method ≠ Bytes.ofText "GET" then .error .wrongMethod
  else if !r.version.atLeast11 then .error .wrongHttpVersion
  else if !(firstValue? r.headers "connection").any asksUpgrade then .error .noConnectionUpgrade
  else if !(firstValue? r.headers "upgrade").any namesWebsocket then .error .noUpgradeWebsocket
  else if firstValue? r.headers "sec-websocket-version" ≠ some (Bytes.ofText spokenVersion) then
    .error .otherVersion
  else
    match firstValue? r.headers "sec-websocket-key" with
    | none => .error .noKey
    | some key => .ok key

/-- The key of an acceptable handshake, or the first reason against it. -/
def key (r : Request) : Except Refusal Bytes :=
  match offeredKey r with
  | .error objection => .error (.ofObjection r objection)
  | .ok key =>
    if (firstValue? r.headers "sec-websocket-key").any isBlankKey then .error .missingKey
    else .ok key

/-! ## Answers -/

/-- What every key is joined with before it is hashed. -/
def keySuffix : Bytes := Bytes.ofText "258EAFA5-E914-47DA-95CA-C5AB0DC85B11"

/-- The proof that the server has read the key. -/
def acceptValue (key : Bytes) : Bytes := Base64.encode (Sha1.digest (key ++ keySuffix))

/-- The answer to an acceptable handshake with this key. -/
def switching (version : Version) (key : Bytes) : Response :=
  { version
    status := .switchingProtocols
    headers := [Header.ofText "connection" "Upgrade", Header.ofText "upgrade" "websocket",
      ⟨Bytes.ofText "sec-websocket-accept", acceptValue key⟩]
    body := [] }

/-- The answer to a handshake, or the reason of its refusal. -/
def answer (r : Request) : Except Refusal Response :=
  (key r).map (switching r.version)

/-- The fields and the body that answer a refusal: the reason phrase of its status, and the spoken
version where another was asked for. -/
def Refusal.fields (why : Refusal) : List Header :=
  if why.status = .upgradeRequired then [Header.ofText "sec-websocket-version" spokenVersion]
  else []

def Refusal.body (why : Refusal) : Bytes := Bytes.ofText why.status.reason

end WebSocketEcho.Handshake
