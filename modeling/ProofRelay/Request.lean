import ProofRelay.Config.Basic
import ProofRelay.Http.Message
import ProofRelay.RequestId

/-!
Requests that are sent through a prover.  A request is built by steps, each of which concerns one part of it or
fails by its own arguments (`Step.apply`); the first failure stays.  `ProxyRequest.encode` gives the HTTP
request to the prover: the headers of the caller, over which the id, the target and the directives are set.
-/

namespace ProofRelay

/-- A request to be sent through a prover. -/
structure ProxyRequest where
  method : Http.Method
  /-- The URL of the target. -/
  url : String
  /-- The headers for the target. -/
  headers : Http.Headers
  body : Bytes
  /-- What the prover is to hide from the proof. -/
  redaction : Option String
  /-- Whether the prover is to prove responses that are no success, too. -/
  provesFailed : Bool
  policy : Policy
deriving DecidableEq, Repr

namespace ProxyRequest

/-- A request with nothing but a method and a target. -/
def start (method : Http.Method) (url : String) (policy : Policy) : ProxyRequest where
  method
  url
  headers := .empty
  body := []
  redaction := none
  provesFailed := false
  policy

/-! ## Building -/

/-- A step of building. -/
inductive Step
  /-- Adds a value to a header. -/
  | header (name value : Bytes)
  /-- Sets the values of all headers that are given. -/
  | headers (given : Http.Headers)
  | body (bytes : Bytes)
  /-- Sets the body to a JSON text, and its content type unless there is one. -/
  | json (value : Except Json.Failure Json.Value)
  | redact (instruction : String)
  | proveFailed
  | throwOnError (b : Bool)
  | proofTimeout (span : Duration)
  | gateTimeout (span : Duration)
deriving Repr

/-- The value of a text, or the failure of one that is no header value. -/
def headerValue (s : String) : Except ClientError Http.HeaderValue :=
  match Http.HeaderValue.ofText? s with
  | some v => .ok v
  | none => .error .invalidHeaderValue

/-- The content type of JSON bodies. -/
def jsonType : Http.HeaderValue := .ofText "application/json"

/-- Takes a step. -/
def Step.apply (r : ProxyRequest) : Step → Except ClientError ProxyRequest
  | .header name value =>
    match Http.HeaderName.ofBytes? name, Http.HeaderValue.ofBytes? value with
    | none, _ => .error .invalidHeaderName
    | some _, none => .error .invalidHeaderValue
    | some n, some v => .ok { r with headers := r.headers.append n v }
  | .headers given => .ok { r with headers := r.headers.merge given }
  | .body bytes => .ok { r with body := bytes }
  | .json (.ok value) =>
    .ok { r with
      body := Utf8.encode value.write
      headers := if r.headers.has .contentType then r.headers
                 else r.headers.insert .contentType jsonType }
  | .json (.error failure) => .error ⟨.builder, some (.json failure)⟩
  | .redact instruction =>
    (headerValue instruction).map fun _ => { r with redaction := some instruction }
  | .proveFailed => .ok { r with provesFailed := true }
  | .throwOnError b => .ok { r with policy.throwOnError := b }
  | .proofTimeout span => .ok { r with policy.proofTimeout := span }
  | .gateTimeout span => .ok { r with policy.gateTimeout := span }

/-- Takes steps in order, up to the first failure. -/
def build (r : ProxyRequest) (steps : List Step) : Except ClientError ProxyRequest :=
  steps.foldlM Step.apply r

/-- How many steps it takes until building fails, if it does. -/
def failsAfter? (r : ProxyRequest) : List Step → Option Nat
  | [] => none
  | step :: steps =>
    match step.apply r with
    | .error _ => some 1
    | .ok r => (failsAfter? r steps).map (· + 1)

/-! ## Encoding -/

/-- The value that sets a directive without content. -/
def setMark : Http.HeaderValue := .ofText "true"

/-- The HTTP request to the prover at `endpoint`. -/
def encode (r : ProxyRequest) (id : RequestId) (endpoint : String) :
    Except ClientError Http.Request := do
  let uri ← match Http.Uri.parse? endpoint with
    | some uri => .ok uri
    | none => .error ⟨.configuration, some .uri⟩
  let headers := r.headers.insert .requestId (← headerValue id.text)
  let headers := headers.insert .proxyUrl (← headerValue r.url)
  let headers ← match r.redaction with
    | none => .ok headers
    | some instruction => (headerValue instruction).map (headers.insert .redacted)
  let headers := if r.provesFailed then headers.insert .proveFailedRequest setMark else headers
  return { method := r.method, uri, headers, body := r.body }

end ProxyRequest
end ProofRelay
