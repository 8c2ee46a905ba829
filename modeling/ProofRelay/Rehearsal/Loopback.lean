import ProofRelay.Prover.Serving
import ProofRelay.Rehearsal.Session

/-!
Rehearsals of a client with a prover on its own host.  The client's channel is an event stream of the prover,
which is read as soon as it yields anything, and time passes only while both wait.  Without a prover every
connection is refused.
-/

namespace ProofRelay.Rehearsal

/-- A client's side of an event stream, and the prover's. -/
structure Line where
  decoder : EventStream.Decoder := {}
  body : ReplyBody
deriving Repr

/-- A client's exchange with a prover. -/
structure LoopbackScene where
  now : Instant
  /-- The prover, if one is listening. -/
  prover : Option Prover
  exchange : Exchange
  line : Option Line := none
deriving Repr

/-- Sends a request, and gives the answer. -/
def sendTo (prover : Option Prover) (now : Instant) (r : Http.Request) : Option ProverReply × Option Prover :=
  match prover with
  | none => (none, none)
  | some p =>
    match p.receive now (Http.Wire.writeRequest r) with
    | some (reply, p, _) => (some reply, some p)
    | none => (none, some p)

/-- The response that comes of an answer; without one the network failed. -/
def asResponse : Option ProverReply → Except ClientError Http.Response
  | some reply => .ok reply.response
  | none => .error ⟨.http, some .network⟩

namespace LoopbackScene

/-- Something happens to the exchange. -/
def step (s : LoopbackScene) (stimulus : Exchange.Stimulus) : LoopbackScene :=
  { s with exchange := s.exchange.step s.now stimulus }

/-- The subscription runs. -/
def wake (s : LoopbackScene) : LoopbackScene := { s with exchange := s.exchange.wake s.now }

def arrive (s : LoopbackScene) (items : List Item) : LoopbackScene :=
  items.foldl (fun s item => s.step (.arrive item)) s

/-- Asks the prover for the event stream at an address. -/
def connect (s : LoopbackScene) (uri : Http.Uri) : LoopbackScene :=
  let (reply, prover) := sendTo s.prover s.now (EventStream.request uri)
  let s := { s with prover }
  match reply with
  | none => s.arrive [.failed (.connection .network)]
  | some reply =>
    match EventStream.refusal? reply.head with
    | some error => { s with prover := prover.map fun (p : Prover) => p.dropBody reply.body }.arrive [.failed error]
    | none => { s with line := some { body := reply.body } }.arrive [.opened]

/-- Reads what the event stream yields now, in `steps` reads at most. -/
def pump : (steps : Nat) → LoopbackScene → LoopbackScene
  | 0, s => s
  | steps + 1, s =>
    match s.prover, s.line with
    | some p, some line =>
      match p.poll line.body with
      | (.data bytes, body, p) =>
        let (messages, decoder) := (line.decoder.push bytes).drain
        pump steps ({ s with prover := some p, line := some { decoder, body } }.arrive
          (messages.map .message))
      | (.pending, body, p) => { s with prover := some p, line := some { line with body } }
      | (.finished, _, p) => { s with prover := some p, line := none }.arrive [.ended]
    | _, _ => s

/-- How many reads there are at most: the event, and the end. -/
def reads : Nat := 3

/-- The stream is read, and the subscription runs. -/
def listen (s : LoopbackScene) : LoopbackScene := (s.pump reads).wake

/-- The caller runs as well. -/
def settle (s : LoopbackScene) : LoopbackScene := s.listen.step .resume

/-- Sends the request if it is no longer held.  The proof that the prover publishes for it comes before its
answer. -/
def send (s : LoopbackScene) : LoopbackScene :=
  match s.exchange.phase with
  | .sending =>
    let (reply, prover) := sendTo s.prover s.now s.exchange.request
    ({ s with prover }.listen.step (.reply (asResponse reply))).step .resume
  | _ => s

/-- Closes the client's side of the event stream. -/
def hangUp (s : LoopbackScene) : LoopbackScene :=
  match s.prover, s.line with
  | some p, some line => { s with prover := some (p.dropBody line.body), line := none }
  | _, _ => s

/-- Lets time pass up to the next moment at which the exchange moves by itself. -/
def wait (s : LoopbackScene) : LoopbackScene :=
  match s.exchange.deadline? with
  | some t => if s.exchange.isOver then s else { s with now := max s.now t }
  | none => s

/-- Goes through an exchange: the gate, the request, and the proof, each of which may have to be waited for. -/
def play (s : LoopbackScene) : LoopbackScene :=
  let round (s : LoopbackScene) := s.settle.send.settle.wait
  (round (round (round s))).settle.hangUp

end LoopbackScene

/-- Makes a call at a prover; gives its result, the prover after it, and the time. -/
def proxiedCall (config : Config) (prover : Option Prover) (now : Instant) (r : ProxyRequest)
    (id : RequestId) : Except ClientError ProvenResponse × Option Prover × Instant :=
  let opener (url : String) := (EventStream.address url).map fun _ => ()
  match Exchange.start config r id opener now with
  | .error error => (.error error, prover, now)
  | .ok exchange =>
    let scene : LoopbackScene := ({ now, prover, exchange : LoopbackScene }.step .resume).wake
    let scene := match EventStream.address (config.proofUrl id) with
      | .ok uri => if scene.exchange.subscription.holdsChannel then scene.connect uri else scene
      | .error _ => scene
    let scene := scene.play
    (scene.exchange.result?.getD (.error ⟨.internal, none⟩), scene.prover, scene.now)

/-- Asks a prover for what it tells of its notary. -/
def notaryCall (config : Config) (prover : Option Prover) (now : Instant) :
    Except ClientError NotaryInfo × Option Prover :=
  let endpoint := config.endpoint .notaryInfo
  let after := match NotaryInfo.request endpoint with
    | .ok r => (sendTo prover now r).2
    | .error _ => prover
  (NotaryInfo.fetch endpoint fun r => asResponse (sendTo prover now r).1, after)

/-- Makes a call; gives its result, the prover after it, and the time. -/
def call (config : Config) (prover : Option Prover) (now : Instant) (errand : Errand) (id : RequestId) :
    Except ClientError Yield × Option Prover × Instant :=
  match errand with
  | .notary =>
    let (result, prover) := notaryCall config prover now
    (result.map .notary, prover, now)
  | .proxied method url steps =>
    match (ProxyRequest.start method url config.policy).build steps with
    | .error error => (.error error, prover, now)
    | .ok r =>
      let (result, prover, now) := proxiedCall config prover now r id
      (result.map .proven, prover, now)

/-- The results of calls that are made one after another, and the prover after them. -/
def callsInTurn (config : Config) (prover : Option Prover) (now : Instant) :
    List (Errand × RequestId) → List (Except ClientError Yield) × Option Prover
  | [] => ([], prover)
  | (errand, id) :: rest =>
    let (result, prover, now) := call config prover now errand id
    let (results, prover) := callsInTurn config prover now rest
    (result :: results, prover)

end ProofRelay.Rehearsal
