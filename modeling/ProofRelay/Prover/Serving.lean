import ProofRelay.Http.Wire.Reply
import ProofRelay.Http.Wire.Request
import ProofRelay.Prover.Basic

/-!
A prover behind HTTP: how it answers what was sent on a connection, its answers as responses, and the bytes of
them.
-/

namespace ProofRelay

namespace ProverReply

/-- The headers of an answer. -/
def headers (r : ProverReply) : Http.Headers :=
  match r.contentType with
  | some text => Http.Headers.empty.append .contentType (.ofText text)
  | none => .empty

/-- The head of an answer. -/
def head (r : ProverReply) : Http.Head := ⟨r.status, r.headers⟩

/-- The answer as it is sent.  An interim status is no answer, and some statuses have no body. -/
def sent (r : ProverReply) : ProverReply :=
  let code := r.status.code
  if Http.Wire.isInterim r.status then .empty .internalServerError
  else if code = 101 ∨ code = 204 ∨ code = 304 then { r with body := .whole [] }
  else r

/-- The answer as a response, whose body is read at once. -/
def response (r : ProverReply) : Http.Response where
  status := r.status
  headers := r.headers
  body := match r.body with
    | .whole bytes => bytes
    | _ => []

end ProverReply

namespace Prover

/-- Answers the first of the requests that were sent on a connection, and gives what was sent after it; there is
no answer to a request that is not complete. -/
def receive (p : Prover) (now : Instant) (sent : Bytes) : Option (ProverReply × Prover × Bytes) :=
  match Http.Wire.readRequest sent with
  | .request r rest =>
    let (reply, p) := p.handle now r.method r.uri.path r.headers r.body
    some (reply.sent, p, rest)
  | .refused status => some (.empty status, p, [])
  | .incomplete => none

/-- The bytes that answer the first of the requests that were sent on a connection; of a stream, what it yields
now. -/
def serve (p : Prover) (now : Instant) (sent : Bytes) : Option (Bytes × Prover × Bytes) := do
  let (reply, p, rest) ← (p.expire now).receive now sent
  let (polled, body, p) := p.poll reply.body
  let chunks := match polled with
    | .data bytes => [bytes]
    | _ => []
  let bytes := Http.Wire.writeReply reply.status (Http.Wire.headerBytes reply.headers) chunks .length false
  return (bytes, p.dropBody body, rest)

end Prover
end ProofRelay
