import ProofRelay.Clock
import ProofRelay.Error
import ProofRelay.Json.Record

/-!
The configuration of a client: where its prover is, and the policy of its calls, which says how long a call waits
for its proof and what it does when none comes.  A configuration is built field by field (`Config.Draft`) or read
from JSON; building checks that the address is that of an HTTP server, reading does not.  `Config.endpoint` is the
address of a path at the prover.
-/

namespace ProofRelay

/-- The policy of a call. -/
structure Policy where
  /-- Whether a call fails if its proof could not be obtained. -/
  throwOnError : Bool
  /-- How long to wait for the proof once the channel is open. -/
  proofTimeout : Duration
  /-- How long to wait for the channel before the request is sent. -/
  gateTimeout : Duration
deriving DecidableEq, Repr

namespace Policy

/-- Milliseconds to wait for a proof if nothing else is said. -/
def defaultProofTimeout : Duration := 30000

/-- Milliseconds to wait for the channel if nothing else is said. -/
def defaultGateTimeout : Duration := 100

/-- The policy if nothing else is said: a missing proof is no failure. -/
def default : Policy := ⟨false, defaultProofTimeout, defaultGateTimeout⟩

end Policy

/-! ## Where the prover is -/

/-- The paths at which a prover listens. -/
inductive ProverPath
  /-- Where requests are proxied. -/
  | proxy
  /-- Where proofs are pushed, each under the id of its request. -/
  | proof
  /-- Where the prover tells of its notary. -/
  | notaryInfo
deriving DecidableEq, Repr

def ProverPath.text : ProverPath → String
  | proxy => "/proxy"
  | proof => "/proof"
  | notaryInfo => "/notaryinfo"

/-- The configuration of a client. -/
structure Config where
  /-- The address of the prover, as given. -/
  proverUrl : String
  throwOnError : Bool
  proofTimeoutMs : UInt64
  gateTimeoutMs : UInt64
deriving DecidableEq, Repr

namespace Config

/-- Milliseconds to wait for a proof if nothing else is said. -/
def defaultProofTimeoutMs : UInt64 := UInt64.ofNat Policy.defaultProofTimeout

/-- Milliseconds to wait for the channel if nothing else is said. -/
def defaultGateTimeoutMs : UInt64 := UInt64.ofNat Policy.defaultGateTimeout

/-- The address without the slashes at its end. -/
def trimSlashes (url : String) : String :=
  String.ofList (url.toList.reverse.dropWhile (· = '/')).reverse

/-- The address of the prover without the slashes at its end. -/
def base (c : Config) : String := trimSlashes c.proverUrl

/-- The address of a path at the prover. -/
def endpoint (c : Config) (path : ProverPath) : String := c.base ++ path.text

/-- The policy of calls that set nothing else. -/
def policy (c : Config) : Policy where
  throwOnError := c.throwOnError
  proofTimeout := c.proofTimeoutMs.toNat
  gateTimeout := c.gateTimeoutMs.toNat

/-! ## Building -/

/-- Whether an address begins like that of an HTTP server. -/
def isHttpUrl (url : String) : Bool :=
  "http://".toList.isPrefixOf url.toList || "https://".toList.isPrefixOf url.toList

/-- Refuses the address of anything but an HTTP server. -/
def checkUrl (url : String) : Except ClientError Unit :=
  if isHttpUrl url then .ok ()
  else .error ⟨.configuration,
    some (.text ("Prover url must be an http(s) url, got " ++ Text.quote url))⟩

/-- A configuration of which some fields are set. -/
structure Draft where
  proverUrl : Option String := none
  throwOnError : Option Bool := none
  proofTimeoutMs : Option UInt64 := none
  gateTimeoutMs : Option UInt64 := none
deriving DecidableEq, Repr

/-- Fills in the fields that have defaults; the address has none. -/
def Draft.fill? (d : Draft) : Option Config :=
  d.proverUrl.map fun url =>
    { proverUrl := url
      throwOnError := d.throwOnError.getD false
      proofTimeoutMs := d.proofTimeoutMs.getD defaultProofTimeoutMs
      gateTimeoutMs := d.gateTimeoutMs.getD defaultGateTimeoutMs }

/-- The configuration of a draft. -/
def Draft.build (d : Draft) : Except ClientError Config :=
  match d.fill? with
  | none => .error ⟨.builder, some (.missingField "prover_url")⟩
  | some c => (checkUrl c.proverUrl).map fun () => c

/-! ## JSON -/

/-- The fields of a configuration. -/
def shape : Json.Shape :=
  [("prover_url", .text), ("throw_on_error", .flag), ("proof_timeout_ms", .count),
   ("gate_timeout_ms", .count)]

/-- The draft with the fields that were found. -/
def Draft.ofFields (fields : Json.Fields) : Draft :=
  fields.foldl (fun d field =>
    match field with
    | ("prover_url", .text s) => { d with proverUrl := some s }
    | ("throw_on_error", .flag b) => { d with throwOnError := some b }
    | ("proof_timeout_ms", .count n) => { d with proofTimeoutMs := some n }
    | ("gate_timeout_ms", .count n) => { d with gateTimeoutMs := some n }
    | _ => d) {}

/-- The fields of a configuration in order. -/
def fields (c : Config) : Json.Fields :=
  [("prover_url", .text c.proverUrl), ("throw_on_error", .flag c.throwOnError),
   ("proof_timeout_ms", .count c.proofTimeoutMs), ("gate_timeout_ms", .count c.gateTimeoutMs)]

/-- The JSON text of a configuration. -/
def write (c : Config) : String := Json.writeFields c.fields

/-- Reads a configuration; all fields but the address may be absent. -/
def reader : Json.Reader Config := fun bs => do
  let (found, rest) ← shape.read bs
  match (Draft.ofFields found).fill? with
  | some c => .ok (c, rest)
  | none => .error .mistyped

/-- Reads a configuration from its JSON text. -/
def parse (bs : Bytes) : Except Json.Failure Config := Json.document reader bs

end Config
end ProofRelay
