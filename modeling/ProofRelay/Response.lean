import ProofRelay.Channel
import ProofRelay.Config.Basic
import ProofRelay.Http.Message
import ProofRelay.Json.Reader
import ProofRelay.Notary

/-!
Responses with their proofs.  `ProvenResponse.compose` joins a response with the outcome of its subscription: a
payload that is not empty is split and attached, and any other outcome leaves the response without a proof or,
under a strict policy, is a failure, unless the client itself gave up.
-/

namespace ProofRelay

/-- A response of the target, with the proof if there is one. -/
structure ProvenResponse where
  response : Http.Response
  /-- The public key of the notary that signed the proof. -/
  notaryPubKey : Option String
  proof : Option String
deriving DecidableEq, Repr

namespace ProvenResponse

/-- A response without a proof. -/
def unproven (response : Http.Response) : ProvenResponse := ⟨response, none, none⟩

def hasProof (r : ProvenResponse) : Bool := r.proof.isSome

/-- Why an outcome gives no proof, if that is a failure. -/
def failure? : Outcome → Option ClientError
  | .delivered payload =>
    if payload.isEmpty then
      some ⟨.proofUnavailable, some (.text "Prover delivered an empty proof")⟩
    else none
  | .timedOut => some ⟨.proofTimeout, some (.text "Timed out while waiting for a proof")⟩
  | .streamError error => some ⟨.proofStream, some (.channel error)⟩
  | .unavailable error => some ⟨.proofUnavailable, some (.channel error)⟩
  | .cancelled => none

/-- The response with the payload that was delivered, if there is one. -/
def attach (response : Http.Response) : Outcome → ProvenResponse
  | .delivered payload =>
    if payload.isEmpty then unproven response
    else ⟨response, some payload.key, some payload.proof⟩
  | _ => unproven response

/-- Joins a response with the outcome of its subscription. -/
def compose (response : Http.Response) (outcome : Outcome) (policy : Policy) :
    Except ClientError ProvenResponse :=
  match failure? outcome with
  | some error => if policy.throwOnError then .error error else .ok (unproven response)
  | none => .ok (attach response outcome)

end ProvenResponse

/-! ## Bodies -/

/-- Reads the body of a response as JSON. -/
def Http.Response.json (read : Json.Reader α) (r : Http.Response) : Except ClientError α :=
  (Json.document read r.body).mapError fun failure => ⟨.internal, some (.json failure)⟩

/-- What a prover told of its notary. -/
def NotaryInfo.ofResponse (r : Http.Response) : Except ClientError NotaryInfo :=
  if r.status.isSuccess then r.json NotaryInfo.reader
  else .error ⟨.http,
    some (.text ("Notary info response status is not OK: " ++ r.status.describe))⟩

/-- The request for what a prover tells of its notary. -/
def NotaryInfo.request (endpoint : String) : Except ClientError Http.Request :=
  match Http.Uri.parse? endpoint with
  | some uri => .ok { method := .get, uri, headers := .empty, body := [] }
  | none => .error ⟨.configuration, some .uri⟩

/-- Asks a prover for what it tells of its notary; `send` is the transport. -/
def NotaryInfo.fetch (endpoint : String) (send : Http.Request → Except ClientError Http.Response) :
    Except ClientError NotaryInfo := do
  ofResponse (← send (← request endpoint))

end ProofRelay
