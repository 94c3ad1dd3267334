import WebSocketEcho.Http.Message

/-!
# Faults of an HTTP connection

Why a connection ends before its client wants it to, with the wording of each reason and the answer
that a faulty request head gets.
-/

namespace WebSocketEcho.Http

/-- What is wrong with a request head or with the connection that it came on. -/
inductive Fault where
  | method
  | target
  | targetTooLong
  | version
  /-- The client speaks HTTP/2 from the start. -/
  | http2Preface
  | header
  | contentLength
  | transferEncoding
  /-- A transfer encoding where the version knows none. -/
  | unexpectedTransferEncoding
  /-- More than a head may hold. -/
  | tooLarge
  /-- A response could not be written. -/
  | unwritable
  | reset
deriving DecidableEq, Repr

def Fault.message : Fault → String
  | .method => "invalid HTTP method parsed"
  | .target => "invalid URI"
  | .targetTooLong => "URI too long"
  | .version => "invalid HTTP version parsed"
  | .http2Preface => "invalid HTTP version parsed (found HTTP2 preface)"
  | .header => "invalid HTTP header parsed"
  | .contentLength => "invalid content-length parsed"
  | .transferEncoding => "invalid transfer-encoding parsed"
  | .unexpectedTransferEncoding => "unexpected transfer-encoding parsed"
  | .tooLarge => "message head is too large"
  | .unwritable => "error writing a body to connection"
  | .reset => "connection error"

/-- The status that answers a faulty head; the other faults are not answered. -/
def Fault.status? : Fault → Option Status
  | .method | .target | .version | .header | .contentLength | .transferEncoding
  | .unexpectedTransferEncoding => some .badRequest
  | .targetTooLong => some .uriTooLong
  | .tooLarge => some .headersTooLarge
  | .http2Preface | .unwritable | .reset => none

end WebSocketEcho.Http
