import WebSocketEcho.Http.Connection
import WebSocketEcho.Session

/-!
# Status lines

What is written on a connection tells its status, if it is an answer to a request: the bytes in
front of the reason phrase are those of no other status (`shows_bytes_iff`), and no frame of an echo
session begins like an answer (`not_shows_reply`).
-/

namespace WebSocketEcho.Http

/-- The status line up to the reason phrase. -/
def statusLine (version : Version) (status : Status) : Bytes :=
  Bytes.ofText version.name ++ [0x20] ++ Decimal.bytes status.code ++ [0x20]

/-- These bytes are an answer with this status. -/
def Shows (status : Status) (bytes : Bytes) : Prop :=
  ∃ version, statusLine version status <+: bytes

theorem length_name (version : Version) : (Bytes.ofText version.name).length = 8 := by
  cases version <;> decide

theorem length_code (status : Status) : (Decimal.bytes status.code).length = 3 := by
  cases status <;> decide +kernel

theorem length_statusLine (version : Version) (status : Status) :
    (statusLine version status).length = 13 := by
  simp [statusLine, length_name, length_code]

theorem code_injective {status status' : Status}
    (h : Decimal.bytes status.code = Decimal.bytes status'.code) : status = status' := by
  revert h
  cases status <;> cases status' <;> decide +kernel

theorem status_of_statusLine {version version' : Version} {status status' : Status}
    (h : statusLine version status = statusLine version' status') : status = status' := by
  rw [statusLine, statusLine] at h
  have hfront := List.append_inj_left' h rfl
  have hlength : (Bytes.ofText version.name ++ [0x20]).length =
      (Bytes.ofText version'.name ++ [0x20]).length := by
    simp [length_name]
  exact code_injective (List.append_inj_right hfront hlength)

theorem statusLine_head (r : Response) : statusLine r.version r.status <+: r.bytes := by
  refine ⟨Bytes.ofText r.status.reason ++ lineEnd ++ r.headers.flatMap Header.line ++ lineEnd ++
    r.body, ?_⟩
  simp only [statusLine, Response.bytes, Response.head, List.append_assoc]

/-- A response shows its status and no other. -/
theorem shows_bytes_iff (r : Response) (status : Status) :
    Shows status r.bytes ↔ r.status = status := by
  constructor
  · rintro ⟨version, hline⟩
    have hlength : (statusLine version status).length = (statusLine r.version r.status).length := by
      rw [length_statusLine, length_statusLine]
    have hfront := List.prefix_of_prefix_length_le hline (statusLine_head r) (Nat.le_of_eq hlength)
    exact (status_of_statusLine (hfront.eq_of_length hlength)).symm
  · rintro rfl
    exact ⟨r.version, statusLine_head r⟩

theorem head?_statusLine (version : Version) (status : Status) :
    (statusLine version status).head? = some 0x48 := by
  cases version <;> rfl

/-- What an echo session sends is no answer to a request. -/
theorem not_shows_reply (status : Status) (reply : Reply) : ¬ Shows status reply.bytes := by
  have hencode : ∀ (o : Opcode) (payload : Bytes), ¬ Shows status (Frame.encode o payload) := by
    rintro o payload ⟨version, rest, hrest⟩
    have hhead := congrArg List.head? hrest
    rw [List.head?_append, head?_statusLine, Frame.encode, List.head?_cons] at hhead
    have hfirst : (0x48 : UInt8) = UInt8.ofNat (128 + o.number) := Option.some.inj hhead
    revert hfirst
    cases o <;> decide
  cases reply with
  | echo kind payload => exact hencode _ payload
  | pong payload => exact hencode _ payload
  | close farewell =>
    cases farewell with
    | none => exact hencode _ []
    | some f => exact hencode _ f.payload

end WebSocketEcho.Http
