import ProofRelay.EventStream.Opener
import ProofRelay.Exchange
import ProofRelay.Prover.Serving

/-!
Calls at one prover.  Any number of calls are on their way at the same time, each with its exchange, the
connection on which its proof is pushed, and the answer to its request.  What happens next, and when, is told
from outside, so a run (`Network.run`) is any order in which connections are made, heads, chunks and messages
arrive, requests reach the prover and answers the client, connections fail, tasks run, callers give up, and
retentions end.  A connection delivers the bytes that are put on it in order, as many at a time as it likes.
-/

namespace ProofRelay

/-- The bytes that reading a body gives. -/
def Polled.bytes : Polled → Bytes
  | .data bytes => bytes
  | _ => []

namespace Network

/-- How far a client has come with the answer to its request for an event stream. -/
inductive Reader
  /-- The head of the answer has not been read. -/
  | head (head : Http.Head)
  /-- The stream is open. -/
  | events (decoder : EventStream.Decoder)
  /-- Nothing more is read. -/
  | gone
deriving DecidableEq, Repr

/-- The connection on which a proof is pushed. -/
structure Line where
  reader : Reader
  /-- The bytes that the prover has given and the client has not read. -/
  wire : Bytes := []
  /-- What the prover has still to give. -/
  body : ReplyBody
deriving DecidableEq, Repr

/-- A call on its way. -/
structure Call where
  config : Config
  id : RequestId
  exchange : Exchange
  /-- The connection of the channel, once it is made. -/
  line : Option Line := none
  /-- The answer to the request, once the prover has given it. -/
  answer : Option Http.Response := none
deriving Repr

/-- What can happen on the client's side of a connection. -/
inductive Reading
  /-- The head of the answer arrives. -/
  | head
  /-- At most so many of the bytes on the way arrive. -/
  | chunk (size : Nat)
  /-- The oldest message that is complete is taken. -/
  | message
  /-- The end of the stream arrives. -/
  | ending
  /-- The connection fails. -/
  | failure
deriving DecidableEq, Repr

/-- What can happen to a call. -/
inductive Act
  /-- The channel asks the prover for the event stream. -/
  | connect
  /-- The channel does not reach the prover. -/
  | miss
  | read (reading : Reading)
  /-- The prover gives what the stream yields now. -/
  | serve
  /-- The prover finds the client gone. -/
  | hangUp
  /-- The subscription makes one pass. -/
  | look
  /-- The caller runs. -/
  | resume
  /-- The caller gives up. -/
  | abandon
  /-- The request reaches the prover. -/
  | deliver
  /-- The answer to the request arrives. -/
  | reply
  /-- Sending the request fails. -/
  | fail (error : ClientError)
deriving Repr

namespace Call

/-- Begins a call; there is none if its request cannot be built or encoded. -/
def make? (now : Instant) (config : Config) (method : Http.Method) (url : String)
    (steps : List ProxyRequest.Step) (bits : BitVec 122) : Option Call := do
  let r ← ((ProxyRequest.start method url config.policy).build steps).toOption
  let id := RequestId.ofBits bits
  let opener (url : String) := (EventStream.address url).map fun _ => ()
  let exchange ← (Exchange.start config r id opener now).toOption
  return { config, id, exchange }

/-- Something happens to the exchange. -/
def step (c : Call) (now : Instant) (stimulus : Exchange.Stimulus) : Call :=
  { c with exchange := c.exchange.step now stimulus }

/-- An item arrives on the channel, and the connection is then as given. -/
def arrive (c : Call) (now : Instant) (item : Item) (line : Line) : Call :=
  { c.step now (.arrive item) with line := some line }

/-- The client's side of the connection moves. -/
def read (c : Call) (now : Instant) (line : Line) : Reading → Call
  | .head =>
    match line.reader with
    | .head head =>
      match EventStream.refusal? head with
      | some error => c.arrive now (.failed error) { line with reader := .gone }
      | none => c.arrive now .opened { line with reader := .events {} }
    | _ => c
  | .chunk size =>
    match line.reader with
    | .events d =>
      let reader := .events (d.push (line.wire.take size))
      { c with line := some { line with reader, wire := line.wire.drop size } }
    | _ => c
  | .message =>
    match line.reader with
    | .events d =>
      match d.next? with
      | some (message, d) => c.arrive now (.message message) { line with reader := .events d }
      | none => c
    | _ => c
  | .ending =>
    match line.reader with
    | .events d =>
      if line.wire = [] ∧ line.body = .whole [] ∧ d.next? = none then
        c.arrive now .ended { line with reader := .gone }
      else c
    | _ => c
  | .failure =>
    if line.reader = .gone then c
    else c.arrive now (.failed (.connection .network)) { line with reader := .gone }

/-- Whether the channel is still to be connected. -/
def awaitsLine (c : Call) : Bool := c.line.isNone && c.exchange.subscription.holdsChannel

/-- The connection of the channel to a prover, and the prover after it was made. -/
def connect (c : Call) (p : Prover) (now : Instant) : Option (Line × Prover) :=
  match EventStream.address (c.config.proofUrl c.id) with
  | .ok uri =>
    let r := EventStream.request uri
    let (reply, p) := p.handle now r.method r.uri.path r.headers r.body
    some ({ reader := .head reply.sent.head, body := reply.sent.body }, p)
  | .error _ => none

/-- Something happens to a call and its prover. -/
def act (c : Call) (p : Prover) (now : Instant) : Act → Call × Prover
  | .connect =>
    match c.connect p now with
    | some (line, p') => if c.awaitsLine then ({ c with line := some line }, p') else (c, p)
    | none => (c, p)
  | .miss =>
    if c.awaitsLine then
      (c.arrive now (.failed (.connection .network)) { reader := .gone, body := .whole [] }, p)
    else (c, p)
  | .read reading =>
    match c.line with
    | some line => (c.read now line reading, p)
    | none => (c, p)
  | .serve =>
    match c.line with
    | some line =>
      let (polled, body, p) := p.poll line.body
      ({ c with line := some { line with wire := line.wire ++ polled.bytes, body } }, p)
    | none => (c, p)
  | .hangUp =>
    match c.line with
    | some line => ({ c with line := some { line with body := .silent } }, p.dropBody line.body)
    | none => (c, p)
  | .look => (c.step now .look, p)
  | .resume => (c.step now .resume, p)
  | .abandon => (c.step now .abandon, p)
  | .deliver =>
    if c.answer.isNone && Effect.send c.exchange.request ∈ c.exchange.effects then
      let r := c.exchange.request
      let (reply, p) := p.handle now r.method r.uri.path r.headers r.body
      ({ c with answer := some reply.sent.response }, p)
    else (c, p)
  | .reply =>
    match c.answer with
    | some response => (c.step now (.reply (.ok response)), p)
    | none => (c, p)
  | .fail error => (c.step now (.reply (.error error)), p)

end Call
end Network

/-- A prover that pushes proofs, and the calls that were made to it. -/
structure Network where
  prover : Prover := { mode := .prove }
  calls : List Network.Call := []
deriving Repr

namespace Network

/-- What can happen. -/
inductive Move
  /-- A call is made, with an id of these bits. -/
  | call (config : Config) (method : Http.Method) (url : String) (steps : List ProxyRequest.Step)
      (bits : BitVec 122)
  /-- Something happens to a call. -/
  | act (index : Nat) (act : Act)
  /-- The retentions end whose time has come. -/
  | expire
deriving Repr

/-- One thing happens. -/
def step (n : Network) (now : Instant) : Move → Network
  | .call config method url steps bits =>
    { n with calls := n.calls ++ (Call.make? now config method url steps bits).toList }
  | .act index act =>
    match n.calls[index]? with
    | some c =>
      let (c, prover) := c.act n.prover now act
      { prover, calls := n.calls.set index c }
    | none => n
  | .expire => { n with prover := n.prover.expire now }

/-- Several things happen, each at its moment. -/
def run (n : Network) (moves : List (Instant × Move)) : Network :=
  moves.foldl (fun n (now, move) => n.step now move) n

theorem run_append (n : Network) (as bs : List (Instant × Move)) :
    n.run (as ++ bs) = (n.run as).run bs := List.foldl_append

end Network
end ProofRelay
