import ProofRelay.Config.Basic
import ProofRelay.EventStream.Opener
import ProofRelay.Json.Value
import ProofRelay.Notary
import ProofRelay.Payload
import ProofRelay.Prover.Slots
import ProofRelay.Prover.Target
import ProofRelay.Text.Percent

/-!
A prover for rehearsals.  It never calls a target: it answers each proxied request with the status that the
target's URL gives and an echo of the request, and it publishes a proof that names the id of the request.
`Prover.handle` answers any request; a body that pushes a proof is read by polling (`Prover.poll`).
-/

namespace ProofRelay

/-- What a prover does with those who wait for proofs. -/
inductive ProofMode
  /-- Pushes the proof once it is published. -/
  | prove
  /-- Keeps the stream open and pushes nothing. -/
  | never
  /-- Closes the stream and pushes nothing. -/
  | close
  /-- Says that there is nothing. -/
  | notFound
  /-- Answers with a text that is no event stream. -/
  | plainText
deriving DecidableEq, Repr

/-- A request that reached a prover to be proxied. -/
structure ProxiedRequest where
  id : String
  method : Http.Method
  target : String
  redacted : Option String
  provesFailed : Bool
  body : Bytes
deriving DecidableEq, Repr

/-- The body of an answer. -/
inductive ReplyBody
  | whole (bytes : Bytes)
  /-- An event stream that pushes the proof of a subscriber, and ends. -/
  | proof (subscriber : Nat)
  /-- An event stream that pushes nothing and does not end. -/
  | silent
deriving DecidableEq, Repr

/-- The answer of a prover. -/
structure ProverReply where
  status : Http.Status
  contentType : Option String
  body : ReplyBody
deriving DecidableEq, Repr

/-- What reading a body gives. -/
inductive Polled
  | data (bytes : Bytes)
  | pending
  | finished
deriving DecidableEq, Repr

namespace ProverReply

/-- An answer without a body. -/
def empty (status : Http.Status) : ProverReply := ⟨status, none, .whole []⟩

/-- An answer with a text. -/
def plain (status : Http.Status) (text : String) : ProverReply :=
  ⟨status, some "text/plain; charset=utf-8", .whole (Utf8.encode text)⟩

/-- An answer with a JSON text. -/
def json (status : Http.Status) (text : String) : ProverReply :=
  ⟨status, some "application/json", .whole (Utf8.encode text)⟩

/-- An answer with an event stream. -/
def stream (body : ReplyBody) : ProverReply := ⟨.ok, some EventStream.mime, body⟩

end ProverReply

/-- A prover: its mode, its proof slots, and the requests that it proxied, oldest first. -/
structure Prover where
  mode : ProofMode
  slots : Slots := .empty
  requests : List ProxiedRequest := []
deriving Repr

namespace Prover

/-- The public key of the notary. -/
def notaryPubKey : String :=
  "-----BEGIN PUBLIC KEY-----\nMFkwEwYHKoZIzj0CAQYIKoZIzj0DAQcDQgAEfixture\n-----END PUBLIC KEY-----"

/-- What the prover tells of its notary. -/
def notaryInfo : NotaryInfo where
  version := "0.0.0"
  publicKey := notaryPubKey
  gitCommitHash := "0000000000000000000000000000000000000000"
  gitCommitTimestamp := "0"

def proofFor (id : String) : String := "proof-for-" ++ id

/-- What is published for an id. -/
def payloadFor (id : String) : Payload := .ofParts notaryPubKey (proofFor id)

/-! ## Proxying -/

/-- The text that sets the directive to prove any response. -/
def setMark : String := "true"

/-- Reads a request to be proxied; the id and the target must be there. -/
def readProxied (method : Http.Method) (headers : Http.Headers) (body : Bytes) : Option ProxiedRequest := do
  return {
    id := ← headers.text? .requestId
    target := ← headers.text? .proxyUrl
    method
    redacted := headers.text? .redacted
    provesFailed := headers.text? .proveFailedRequest = some setMark
    body }

/-- Whether the response to a request is proven. -/
def proves (r : ProxiedRequest) : Bool := (Target.status r.target).isSuccess || r.provesFailed

/-- What a target is said to have answered. -/
def echo (r : ProxiedRequest) : Json.Value :=
  .ofEntries [("method", .text r.method.name), ("url", .text r.target),
    ("body", .text (Utf8.decodeLossy r.body))]

/-- Keeps a request, and publishes its proof if it has one. -/
def record (p : Prover) (now : Instant) (r : ProxiedRequest) : Prover :=
  { p with
    slots := if proves r then p.slots.publish now r.id (payloadFor r.id).raw else p.slots
    requests := p.requests ++ [r] }

/-- Answers a request to be proxied. -/
def proxy (p : Prover) (now : Instant) (method : Http.Method) (headers : Http.Headers) (body : Bytes) :
    ProverReply × Prover :=
  match readProxied method headers body with
  | none => (.plain .badRequest "missing proxy headers", p)
  | some r => (.json (Target.status r.target) (echo r).write, p.record now r)

/-! ## Streams -/

/-- Answers one who waits for the proof of an id. -/
def awaitProof (p : Prover) (id : String) : ProverReply × Prover :=
  match p.mode with
  | .prove =>
    let (number, slots) := p.slots.subscribe id
    (.stream (.proof number), { p with slots })
  | .never => (.stream .silent, p)
  | .close => (.stream (.whole []), p)
  | .notFound => (.empty .notFound, p)
  | .plainText => (.plain .ok "no proofs here", p)

/-- Reads what a body gives now, and what is left of the body. -/
def poll (p : Prover) : ReplyBody → Polled × ReplyBody × Prover
  | .whole [] => (.finished, .whole [], p)
  | .whole bytes => (.data bytes, .whole [], p)
  | .silent => (.pending, .silent, p)
  | .proof number =>
    match p.slots.poll number with
    | (.proof text, slots) => (.data (Utf8.encode (EventStream.frame text)), .whole [], { p with slots })
    | (.pending, slots) => (.pending, .proof number, { p with slots })
    | (.finished, slots) => (.finished, .whole [], { p with slots })

/-- Drops a body that is not read to its end. -/
def dropBody (p : Prover) : ReplyBody → Prover
  | .proof number => { p with slots := p.slots.release number }
  | _ => p

/-- Lets time pass up to a moment. -/
def expire (p : Prover) (now : Instant) : Prover := { p with slots := p.slots.expire now }

/-! ## Routes -/

/-- The most bytes of a body. -/
def greatestBody : Nat := 2 * 1024 * 1024

/-- What a path names. -/
inductive Route
  | notaryInfo
  | proxy
  /-- The proof of an id, which is percent-encoded. -/
  | proof (encodedId : String)
deriving DecidableEq, Repr

def Route.ofPath? (path : String) : Option Route :=
  if path = ProverPath.notaryInfo.text then some .notaryInfo
  else if path = ProverPath.proxy.text then some .proxy
  else
    let mark := ProverPath.proof.text.toList ++ ['/']
    let rest := path.toList.drop mark.length
    if mark.isPrefixOf path.toList && !rest.isEmpty && !rest.contains '/' then
      some (.proof (String.ofList rest))
    else none

/-- Answers as if the body of the answer were wanted. -/
def answer (p : Prover) (now : Instant) (method : Http.Method) (headers : Http.Headers) (body : Bytes) :
    Route → ProverReply × Prover
  | .proxy =>
    if greatestBody < body.length then
      (.plain .contentTooLarge "Failed to buffer the request body: length limit exceeded", p)
    else p.proxy now method headers body
  | .notaryInfo =>
    if method = .get ∨ method = .head then (.json .ok notaryInfo.write, p)
    else (.empty .methodNotAllowed, p)
  | .proof encodedId =>
    if method = .get ∨ method = .head then
      match Text.Percent.decodeText? encodedId with
      | some id => p.awaitProof id
      | none => (.plain .badRequest "Invalid URL: Invalid UTF-8 in `id`", p)
    else (.empty .methodNotAllowed, p)

/-- Whether the body of an answer is left out. -/
def leavesOutBody (method : Http.Method) (status : Http.Status) : Bool :=
  method = .head || method = .connect && status.isSuccess

/-- Answers a request. -/
def handle (p : Prover) (now : Instant) (method : Http.Method) (path : String) (headers : Http.Headers)
    (body : Bytes) : ProverReply × Prover :=
  match Route.ofPath? path with
  | none => (.empty .notFound, p)
  | some route =>
    let (reply, p) := p.answer now method headers body route
    if leavesOutBody method reply.status then ({ reply with body := .whole [] }, p.dropBody reply.body)
    else (reply, p)

end Prover
end ProofRelay
