import ProofRelay.Config.Basic
import ProofRelay.Request
import ProofRelay.Response
import ProofRelay.Subscription

/-!
Exchanges.  An exchange is one request on its way through a prover: the channel for its proof is opened, the
request is held at the gate until the channel is ready or waited for long enough, it is sent, and the response
is joined with the outcome of the subscription.  The caller's side moves when it resumes or when the reply
arrives; the subscription moves when it looks.  `Exchange.run` lets these happen in any order, and
`Exchange.effects` keeps what was done to the outside.
-/

namespace ProofRelay

/-- The address at which the proof of a request is pushed. -/
def Config.proofUrl (c : Config) (id : RequestId) : String := c.endpoint .proof ++ "/" ++ id.text

/-- What an exchange does to the outside. -/
inductive Effect
  | openChannel (url : String)
  | send (request : Http.Request)
deriving DecidableEq, Repr

/-- How far the caller's side has come. -/
inductive Phase
  /-- The request is held until the channel is ready, or until the deadline. -/
  | gate (deadline : Instant)
  /-- The request is sent, and there is no reply. -/
  | sending
  /-- The response is here, and the outcome of the subscription is awaited. -/
  | joining (response : Http.Response)
  | done (result : Except ClientError ProvenResponse)
  /-- The caller has given up. -/
  | abandoned
deriving Repr

/-- One request on its way. -/
structure Exchange where
  policy : Policy
  /-- Whether the prover is to prove a response that is no success, too. -/
  provesFailed : Bool
  /-- The request to the prover. -/
  request : Http.Request
  subscription : Subscription
  phase : Phase
  /-- What was done to the outside, in order. -/
  effects : List Effect
deriving Repr

namespace Exchange

/-- Begins an exchange; `opener` says what comes of opening a channel, and `timer` when the gate lets go at the
latest.  A request that cannot be encoded is refused before anything is done to the outside. -/
def startBy (timer : Clock.Timer) (config : Config) (r : ProxyRequest) (id : RequestId)
    (opener : String → Except ChannelError Unit) (now : Instant) : Except ClientError Exchange :=
  (r.encode id (config.endpoint .proxy)).map fun request =>
    { policy := r.policy
      provesFailed := r.provesFailed
      request
      subscription := .start (opener (config.proofUrl id)) r.policy.proofTimeout
      phase := .gate (timer now r.policy.gateTimeout)
      effects := [.openChannel (config.proofUrl id)] }

/-- Begins an exchange, with the gate on the clock. -/
def start (config : Config) (r : ProxyRequest) (id : RequestId)
    (opener : String → Except ChannelError Unit) (now : Instant) : Except ClientError Exchange :=
  startBy Clock.deadline config r id opener now

/-- The result, once the exchange is done. -/
def result? (x : Exchange) : Option (Except ClientError ProvenResponse) :=
  match x.phase with
  | .done result => some result
  | _ => none

/-- Whether the caller's side is over. -/
def isOver (x : Exchange) : Bool :=
  match x.phase with
  | .done _ | .abandoned => true
  | _ => false

/-- The next moment at which the exchange moves by itself. -/
def deadline? (x : Exchange) : Option Instant :=
  match x.phase with
  | .gate deadline => earlier? (some deadline) x.subscription.deadline?
  | _ => x.subscription.deadline?

def close (x : Exchange) : Exchange := { x with subscription := x.subscription.close }

/-! ## The caller's side -/

/-- The caller looks whether it can go on. -/
def resume (x : Exchange) (now : Instant) : Exchange :=
  match x.phase with
  | .gate deadline =>
    match Gate.poll x.subscription.signal deadline now with
    | some _ => { x with phase := .sending, effects := x.effects ++ [.send x.request] }
    | none => x
  | .joining response =>
    match x.subscription.outcome? with
    | some outcome => { x with phase := .done (ProvenResponse.compose response outcome x.policy) }
    | none => x
  | _ => x

/-- Whether the prover proves a response. -/
def isProven (x : Exchange) (response : Http.Response) : Bool :=
  response.status.isSuccess || x.provesFailed

/-- The reply arrives.  After a failure, or a response that is not proven, no proof is waited for. -/
def reply (x : Exchange) (result : Except ClientError Http.Response) : Exchange :=
  match x.phase with
  | .sending =>
    match result with
    | .error error => { x.close with phase := .done (.error error) }
    | .ok response => { (if x.isProven response then x else x.close) with phase := .joining response }
  | _ => x

/-- The caller gives up, unless the exchange is over. -/
def abandon (x : Exchange) : Exchange := if x.isOver then x else { x.close with phase := .abandoned }

/-- The subscription runs until it has to wait. -/
def wake (x : Exchange) (now : Instant) : Exchange :=
  { x with subscription := x.subscription.wake now }

/-! ## Runs -/

/-- What can happen to an exchange. -/
inductive Stimulus
  /-- An item arrives on the channel. -/
  | arrive (item : Item)
  /-- The subscription makes one pass. -/
  | look
  /-- The caller runs. -/
  | resume
  | reply (result : Except ClientError Http.Response)
  | abandon
deriving Repr

/-- One thing happens. -/
def step (x : Exchange) (now : Instant) : Stimulus → Exchange
  | .arrive item => { x with subscription := x.subscription.arrive item }
  | .look => { x with subscription := x.subscription.look now }
  | .resume => x.resume now
  | .reply result => x.reply result
  | .abandon => x.abandon

/-- Several things happen, each at its moment. -/
def run (x : Exchange) (events : List (Instant × Stimulus)) : Exchange :=
  events.foldl (fun x (now, stimulus) => x.step now stimulus) x

theorem run_append (x : Exchange) (as bs : List (Instant × Stimulus)) :
    x.run (as ++ bs) = (x.run as).run bs := List.foldl_append

theorem run_cons (x : Exchange) (now : Instant) (stimulus : Stimulus)
    (events : List (Instant × Stimulus)) :
    x.run ((now, stimulus) :: events) = (x.step now stimulus).run events := rfl

end Exchange
end ProofRelay
