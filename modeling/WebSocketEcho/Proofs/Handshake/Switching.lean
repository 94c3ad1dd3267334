import WebSocketEcho.Proofs.Base64
import WebSocketEcho.Proofs.Handshake
import WebSocketEcho.Proofs.Sha1

/-!
# The proof that a handshake was read

The answer to an accepted handshake switches protocols and proves that the server has read the key:
its accept value decodes to the hash of the key and a fixed suffix (`accepted_with_proof`).  The key
is the first of its name, taken as it stands, and any key that is not blank is as good as any other.

`Proves` says what an accept value must be, with the hash of the standard in place of the one that
is computed.
-/

namespace WebSocketEcho.Handshake

open Http

/-! ## What the answer is -/

/-- The value is the base64 text of the hash of the key and the suffix. -/
structure Proves (key value : Bytes) : Prop where
  letters : ∃ letters, value = letters ++ Bytes.ofText "=" ∧ letters.length = 27 ∧
    ∀ b ∈ letters, b ∈ Base64.alphabet
  decoded : ∃ digest, Base64.decode? value = some digest ∧ digest.length = 20 ∧
    digest.bits = Sha1.Standard.digest
      (Bytes.bits (key ++ Bytes.ofText "258EAFA5-E914-47DA-95CA-C5AB0DC85B11"))

/-- The response switches protocols and proves that this key was read. -/
structure Switches (version : Version) (key : Bytes) (response : Response) : Prop where
  code : response.status.code = 101
  version : response.version = version
  headers : ∃ value, Proves key value ∧
    response.headers =
      [⟨Bytes.ofText "connection", Bytes.ofText "Upgrade"⟩,
        ⟨Bytes.ofText "upgrade", Bytes.ofText "websocket"⟩,
        ⟨Bytes.ofText "sec-websocket-accept", value⟩]
  body : response.body = []

theorem proves_acceptValue (key : Bytes) : Proves key (acceptValue key) := by
  constructor
  · have hlength := Sha1.length_digest (key ++ keySuffix)
    have hover : (Sha1.digest (key ++ keySuffix)).length % 3 = 2 := by rw [hlength]
    obtain ⟨letters, hencode, hcount, hletters⟩ := Base64.encode_eq_append hover
    rw [hlength] at hcount
    exact ⟨letters, hencode, hcount, hletters⟩
  · exact ⟨_, Base64.decode?_encode _, Sha1.length_digest _, Sha1.bits_digest _⟩

theorem switches_switching (version : Version) (key : Bytes) :
    Switches version key (switching version key) :=
  ⟨rfl, rfl, ⟨_, proves_acceptValue key, rfl⟩, rfl⟩

/-! ## Which key is read -/

section Key

variable {r : Request} {response : Response} {before after : List Header} {field : Header}
  {key value : Bytes}

theorem met_of_key (h : Handshake.key r = .ok value) : ∀ demand ∈ demands r, demand.1 := by
  rcases firstUnmet_or_met (demands r) with ⟨why, hunmet⟩ | hmet
  · rw [key_of_firstUnmet hunmet] at h
    cases h
  · exact hmet

/-- The key is the value of the first field of its name. -/
theorem firstValue?_of_key (h : Handshake.key r = .ok value) :
    firstValue? r.headers "sec-websocket-key" = some value := by
  obtain ⟨other, hfirst, hother⟩ := key_of_met (met_of_key h)
  rw [h] at hother
  cases hother
  exact hfirst

theorem key_of_answer (h : answer r = .ok response) :
    ∃ value, Handshake.key r = .ok value ∧ response = switching r.version value := by
  rw [answer] at h
  cases hkey : Handshake.key r with
  | error why =>
    rw [hkey] at h
    cases h
  | ok value =>
    rw [hkey] at h
    cases h
    exact ⟨value, rfl, rfl⟩

/-- Another value in one field leaves the first values of other names as they are. -/
theorem firstValue?_of_other {name : String} (hname : field.isNamed name = false) (value : Bytes) :
    firstValue? (before ++ { field with value } :: after) name =
      firstValue? (before ++ field :: after) name := by
  have hname' : Header.isNamed { field with value } name = false := hname
  rw [firstValue?, firstValue?]
  simp only [List.find?_append, List.find?_cons, hname, hname']

/-- A handshake that is accepted is accepted with any other key that is not blank. -/
theorem met_of_other_key (h : ∀ demand ∈ demands r, demand.1)
    (hheaders : r.headers = before ++ field :: after)
    (hfield : SameLetters field.name (Bytes.ofText "sec-websocket-key"))
    (hbefore : ∀ other ∈ before, ¬ SameLetters other.name (Bytes.ofText "sec-websocket-key"))
    (hkey : ∃ b ∈ key, Ascii.isWhitespace b = false) :
    firstValue? (before ++ { field with value := key } :: after) "sec-websocket-key" = some key ∧
      ∀ demand ∈ demands { r with headers := before ++ { field with value := key } :: after },
        demand.1 := by
  have hlower : (Bytes.ofText "sec-websocket-key").map Ascii.lower =
      Bytes.ofText "sec-websocket-key" := by decide
  have hfirst : firstValue? (before ++ { field with value := key } :: after)
      "sec-websocket-key" = some key :=
    (firstValue?_eq_some_iff hlower).2 ⟨before, _, after, rfl, hfield, rfl, hbefore⟩
  have hother : ∀ name ∈ ["connection", "upgrade", "sec-websocket-version"],
      firstValue? (before ++ { field with value := key } :: after) name =
        firstValue? r.headers name := by
    intro name hname
    rw [hheaders]
    refine firstValue?_of_other ?_ key
    rw [Header.isNamed, hfield, hlower]
    revert name
    decide
  refine ⟨hfirst, ?_⟩
  rw [demands_eq] at h ⊢
  simp only [List.forall_mem_cons] at h ⊢
  obtain ⟨hmethod, hversion, hconnection, hupgrade, hspoken, -, hnil⟩ := h
  refine ⟨hmethod, hversion, ?_, ?_, ?_, ?_, hnil⟩
  · rw [hother "connection" (by simp)]
    exact hconnection
  · rw [hother "upgrade" (by simp)]
    exact hupgrade
  · rw [hother "sec-websocket-version" (by simp)]
    exact hspoken
  · rw [hfirst]
    exact not_isBlankKey_iff.2 hkey

end Key

/-! ## The result -/

/-- The answer to an accepted handshake proves that its key was read, the first of its name and
taken as it stands.  Any other key would be accepted and proved likewise, unless it is blank. -/
theorem accepted_with_proof {r : Request} {response : Response} (h : answer r = .ok response) :
    (∃ key, FirstValue r.headers "sec-websocket-key" key ∧ Switches r.version key response) ∧
      ∀ (before after : List Header) (field : Header) (key : Bytes),
        r.headers = before ++ field :: after →
        SameLetters field.name (Bytes.ofText "sec-websocket-key") →
        (∀ other ∈ before, ¬ SameLetters other.name (Bytes.ofText "sec-websocket-key")) →
        (∃ b ∈ key, Ascii.isWhitespace b = false) →
          ∃ other, answer { r with headers := before ++ { field with value := key } :: after } =
            .ok other ∧ Switches r.version key other := by
  obtain ⟨value, hkey, rfl⟩ := key_of_answer h
  have hlower : (Bytes.ofText "sec-websocket-key").map Ascii.lower =
      Bytes.ofText "sec-websocket-key" := by decide
  refine ⟨⟨value, (firstValue?_eq_some_iff hlower).1 (firstValue?_of_key hkey),
    switches_switching _ _⟩, ?_⟩
  intro before after field key hheaders hfield hbefore hplain
  obtain ⟨hfirst, hmet⟩ := met_of_other_key (met_of_key hkey) hheaders hfield hbefore hplain
  obtain ⟨other, hother, haccepted⟩ := key_of_met hmet
  rw [hfirst] at hother
  cases hother
  refine ⟨switching r.version key, ?_, switches_switching _ _⟩
  rw [answer, haccepted]
  rfl

/-- The fields of a handshake before its key. -/
def fieldsBeforeKey : List Header :=
  [.ofText "Connection" "keep-alive, Upgrade", .ofText "Upgrade" "WebSocket",
    .ofText "Sec-WebSocket-Version" "13"]

/-- A key with blanks around it and a byte outside ASCII.  With the suffix it is 56 bytes long, so
that the padding needs a second block. -/
def spillingKey : Bytes := Bytes.ofText " é not base64! ~~~ \t"

/-- A handshake with this key and another one behind it. -/
def spillingHandshake : Request where
  method := Bytes.ofText "GET"
  target := .ofPath (Bytes.ofText "/ws")
  version := .http11
  headers := fieldsBeforeKey ++ ⟨Bytes.ofText "Sec-WebSocket-Key", spillingKey⟩ ::
    [.ofText "Sec-WebSocket-Key" "dGhlIHNhbXBsZSBub25jZQ=="]

def spillingResponse : Response where
  version := .http11
  status := .switchingProtocols
  headers := [.ofText "connection" "Upgrade", .ofText "upgrade" "websocket",
    .ofText "sec-websocket-accept" "ohpepGnLQ4Pbwkh2NnLra/TVJ44="]
  body := []

theorem spillingHandshake_accepted :
    answer spillingHandshake = .ok spillingResponse ∧
      (∃ key, FirstValue spillingHandshake.headers "sec-websocket-key" key ∧
        Switches .http11 key spillingResponse) ∧
      ∃ other, answer { spillingHandshake with
          headers := fieldsBeforeKey ++ ⟨Bytes.ofText "Sec-WebSocket-Key", [0xFF]⟩ ::
            [.ofText "Sec-WebSocket-Key" "dGhlIHNhbXBsZSBub25jZQ=="] } = .ok other ∧
        Switches .http11 [0xFF] other := by
  have haccepted : answer spillingHandshake = .ok spillingResponse := by decide +kernel
  obtain ⟨hswitches, hothers⟩ := accepted_with_proof haccepted
  have hfield : SameLetters (Bytes.ofText "Sec-WebSocket-Key")
      (Bytes.ofText "sec-websocket-key") := by
    unfold SameLetters
    decide
  have hbefore : ∀ other ∈ fieldsBeforeKey,
      ¬ SameLetters other.name (Bytes.ofText "sec-websocket-key") := by
    unfold SameLetters
    decide
  exact ⟨haccepted, hswitches, hothers _ _ _ [0xFF] rfl hfield hbefore ⟨0xFF, by simp, rfl⟩⟩

end WebSocketEcho.Handshake
