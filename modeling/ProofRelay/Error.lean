import ProofRelay.Http.Status
import ProofRelay.Json.Value
import ProofRelay.Text.Quoted

/-!
What can go wrong.  `ChannelError` says how a proof channel failed, `ClientError` how a call of the client did:
its kind, and its cause if there is one.  Both have one display text, in which a cause is shown in its debug
form.  Causes that come from below (the network, the reading of JSON, URIs or the environment) have no text of
their own here.
-/

namespace ProofRelay

/-! ## Channels -/

/-- Why a connection of a proof channel failed. -/
inductive ConnectionFailure
  /-- A failure with a text. -/
  | reported (text : String)
  /-- The network or the protocol failed. -/
  | network
  /-- Reading the channel crashed. -/
  | crash
deriving DecidableEq, Repr

/-- How a proof channel failed. -/
inductive ChannelError
  /-- The address is no URI. -/
  | invalidUrl (url : String)
  /-- The connection failed. -/
  | connection (failure : ConnectionFailure)
  /-- The prover did not answer with success. -/
  | status (status : Http.Status)
  /-- The prover answered with something else than an event stream. -/
  | contentType (value : Option String)
  /-- The channel ended before a proof came. -/
  | closed
deriving DecidableEq, Repr

/-- The text of a connection failure, if it has one of its own. -/
def ConnectionFailure.text? : ConnectionFailure → Option String
  | .reported text => some text
  | .network => none
  | .crash => none

namespace ChannelError

/-- The display text, if it is made of texts of this library only. -/
def display? : ChannelError → Option String
  | invalidUrl url => some ("invalid proof channel url: " ++ url)
  | connection failure => failure.text?.map ("proof channel connection failed: " ++ ·)
  | status s => some ("proof channel responded with status " ++ s.describe)
  | contentType value => some ("proof channel responded with content type " ++ Text.quoteOption value)
  | closed => some "proof channel closed before a proof was delivered"

/-- The debug text, likewise. -/
def debug? : ChannelError → Option String
  | invalidUrl url => some ("InvalidUrl(" ++ Text.quote url ++ ")")
  | connection failure => failure.text?.map fun text => "Connection(" ++ Text.quote text ++ ")"
  | status s => some ("Status(" ++ toString s.code ++ ")")
  | contentType value => some ("ContentType(" ++ Text.quoteOption value ++ ")")
  | closed => some "Closed"

/-- The display text of the cause; only a failed connection has one. -/
def cause? : ChannelError → Option String
  | connection failure => failure.text?
  | _ => none

end ChannelError

/-! ## Calls -/

/-- The kinds of client errors. -/
inductive ErrorKind
  /-- A reply was not understood. -/
  | internal
  /-- A request or a configuration was not built. -/
  | builder
  /-- The configuration is not usable. -/
  | configuration
  /-- The exchange with the prover failed. -/
  | http
  /-- No proof came in time. -/
  | proofTimeout
  /-- The proof channel failed. -/
  | proofStream
  /-- There was no proof channel, or no proof on it. -/
  | proofUnavailable
deriving DecidableEq, Repr

def ErrorKind.name : ErrorKind → String
  | internal => "Internal"
  | builder => "Builder"
  | configuration => "Configuration"
  | http => "Http"
  | proofTimeout => "ProofTimeout"
  | proofStream => "ProofStream"
  | proofUnavailable => "ProofUnavailable"

/-- The cause of a client error. -/
inductive Cause
  | text (s : String)
  /-- A field of a configuration that has no default was not set. -/
  | missingField (name : String)
  | invalidHeaderName
  | invalidHeaderValue
  | channel (error : ChannelError)
  /-- JSON was not read or not written. -/
  | json (failure : Json.Failure)
  /-- The environment is no configuration. -/
  | environment
  | uri
  | network
deriving DecidableEq, Repr

/-- The debug text of a cause, if it is made of texts of this library only. -/
def Cause.debug? : Cause → Option String
  | text s => some (Text.quote s)
  | missingField name => some ("UninitializedFieldError(" ++ Text.quote name ++ ")")
  | invalidHeaderName => some "http::Error(InvalidHeaderName)"
  | invalidHeaderValue => some "http::Error(InvalidHeaderValue)"
  | channel error => error.debug?
  | _ => none

/-- The display text of a cause, likewise. -/
def Cause.display? : Cause → Option String
  | text s => some s
  | missingField name => some ("Field not initialized: " ++ name)
  | channel error => error.display?
  | _ => none

/-- A failed call. -/
structure ClientError where
  kind : ErrorKind
  cause : Option Cause
deriving DecidableEq, Repr

namespace ClientError

/-- The display text, if it is made of texts of this library only. -/
def display? (e : ClientError) : Option String :=
  let source := match e.cause with
    | none => some "None"
    | some cause => cause.debug?.map ("Some(" ++ · ++ ")")
  source.map ("client error: " ++ e.kind.name ++ ", source: " ++ ·)

def isHttp (e : ClientError) : Bool := e.kind = .http
def isBuilder (e : ClientError) : Bool := e.kind = .builder
def isConfiguration (e : ClientError) : Bool := e.kind = .configuration
def isProofTimeout (e : ClientError) : Bool := e.kind = .proofTimeout
def isProofStream (e : ClientError) : Bool := e.kind = .proofStream
def isProofUnavailable (e : ClientError) : Bool := e.kind = .proofUnavailable

/-- Whether only the proof is missing. -/
def isProof (e : ClientError) : Bool := e.isProofTimeout || e.isProofStream || e.isProofUnavailable

/-- A header value with controls in it. -/
def invalidHeaderValue : ClientError := ⟨.builder, some .invalidHeaderValue⟩

/-- A header name with other bytes than a name has. -/
def invalidHeaderName : ClientError := ⟨.builder, some .invalidHeaderName⟩

end ClientError
end ProofRelay
