import WebSocketEcho.Handshake
import WebSocketEcho.Http.Connection
import WebSocketEcho.Report
import WebSocketEcho.Route

/-!
# What the server answers

The answer to one request: the echo endpoint judges the opening handshake, and every other path
shows the status page, whatever the method.
-/

namespace WebSocketEcho.Service

/-- Why the echo endpoint refuses a request, if it is for it and is refused. -/
def refusal? (r : Http.Request) : Option Handshake.Refusal :=
  match Route.ofPath r.target.effectivePath, Handshake.answer r with
  | .echo, .error why => some why
  | _, _ => none

/-- The answer to a request when the counters stand as given. -/
def answer (c : Counters) (r : Http.Request) : Http.Answer :=
  match Route.ofPath r.target.effectivePath with
  | .status => ⟨.ok, [], (Report.ofCounters c).render⟩
  | .echo =>
    match Handshake.answer r with
    | .ok response => ⟨response.status, response.headers, response.body⟩
    | .error why => ⟨why.status, why.fields, why.body⟩

end WebSocketEcho.Service
