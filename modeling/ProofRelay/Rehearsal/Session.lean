import ProofRelay.Exchange

/-!
Rehearsals of calls.  A call has a scripted channel, whose items come a while after the channel is opened or
the request is sent, and a scripted reply.  At each moment the items whose time has come are queued, and then
the caller and the subscription run by turns until both wait; the subscription never runs between the sending
of a request and what the caller does with a reply that comes at once.
-/

namespace ProofRelay.Rehearsal

/-- What a call asks for. -/
inductive Errand
  /-- A request through the prover, built by steps. -/
  | proxied (method : Http.Method) (url : String) (steps : List ProxyRequest.Step)
  /-- What the prover tells of its notary. -/
  | notary
deriving Repr

/-- An item of a scripted channel. -/
structure ItemCue where
  item : Item
  /-- Whether the time counts from the sending of the request, and not from the opening of the channel. -/
  fromSend : Bool
  after : Duration
deriving DecidableEq, Repr

structure CallScript where
  /-- How long to wait before the call. -/
  start : Duration
  errand : Errand
  /-- What comes of opening a channel. -/
  channel : Except ChannelError Unit
  cues : List ItemCue
  /-- How long the reply takes. -/
  delay : Duration
  reply : Except ClientError Http.Response
deriving Repr

/-- What happens in a call. -/
inductive Mark
  | start
  | opened
  | sent
  | replied
  | done
deriving DecidableEq, Repr

/-- What a call gives. -/
inductive Yield
  | proven (response : ProvenResponse)
  | notary (info : NotaryInfo)
deriving Repr

/-- What is known of a call after it. -/
structure CallReport where
  result : Except ClientError Yield
  log : List (Instant × Mark)
  /-- The request that was sent. -/
  request : Option Http.Request
  /-- The address at which a channel was opened. -/
  channelUrl : Option String
  channelClosed : Option Bool
deriving Repr

namespace CallReport

/-- The moment at which the call was done. -/
def finished (r : CallReport) : Instant := (r.log.getLast?.map (·.1)).getD 0

/-- How long the call took. -/
def elapsed (r : CallReport) : Duration := r.finished - (r.log.head?.map (·.1)).getD 0

/-- A call that failed before it did anything. -/
def refused (now : Instant) (error : ClientError) : CallReport where
  result := .error error
  log := [(now, .start), (now, .done)]
  request := none
  channelUrl := none
  channelClosed := none

end CallReport

/-- An exchange on the clock. -/
structure CallScene where
  now : Instant
  exchange : Exchange
  /-- The items that are to come. -/
  agenda : Agenda Item := .empty
  /-- The moment of the reply. -/
  replyAt : Option Instant := none
  log : List (Instant × Mark)
deriving Repr

namespace CallScene

/-- Notes what happens. -/
def note (s : CallScene) (mark : Mark) : CallScene := { s with log := s.log ++ [(s.now, mark)] }

/-- Something happens to the exchange. -/
def step (s : CallScene) (stimulus : Exchange.Stimulus) : CallScene :=
  { s with exchange := s.exchange.step s.now stimulus }

/-- The subscription runs. -/
def wake (s : CallScene) : CallScene := { s with exchange := s.exchange.wake s.now }

/-- Queues the cues that count from now: those without delay at once. -/
def prompt (s : CallScene) (cues : List ItemCue) : CallScene :=
  cues.foldl (fun s cue =>
    if cue.after = 0 then s.step (.arrive cue.item)
    else { s with agenda := s.agenda.add (s.now + cue.after) cue.item }) s

/-- Takes the reply if its time has come. -/
def takeReply (s : CallScene) (script : CallScript) : CallScene :=
  match s.replyAt with
  | some t => if t ≤ s.now then { s.note .replied with replyAt := none }.step (.reply script.reply) else s
  | none => s

/-- Notes that the call is done, if that is new. -/
def noteDone (s : CallScene) : CallScene :=
  if s.exchange.result?.isSome ∧ s.log.getLast?.map (·.2) ≠ some .done then s.note .done else s

/-- The caller runs until it has to wait. -/
def callerTurn (script : CallScript) (s : CallScene) : CallScene :=
  let resumed := s.step .resume
  let s := match s.exchange.phase, resumed.exchange.phase with
    | .gate _, .sending =>
      { (resumed.note .sent).prompt (script.cues.filter (·.fromSend)) with
        replyAt := some (s.now + script.delay) }
    | _, _ => resumed
  ((s.takeReply script).step .resume).noteDone

/-- The caller runs, and then the subscription. -/
def turn (script : CallScript) (s : CallScene) : CallScene := (s.callerTurn script).wake

/-- All that happens at a moment.  The caller waits three times at most: at the gate, for the reply, and for
the outcome. -/
def moment (script : CallScript) (s : CallScene) : CallScene :=
  let s := (s.agenda.due s.now).foldl (fun s item => s.step (.arrive item))
    { s with agenda := s.agenda.after s.now }
  (((s.turn script).turn script).turn script).turn script

/-- The next moment at which something happens. -/
def next? (s : CallScene) : Option Instant :=
  earlier? s.replyAt (earlier? s.agenda.next? s.exchange.deadline?)

/-- Goes on from moment to moment until the call is done. -/
def play (script : CallScript) : (steps : Nat) → CallScene → CallScene
  | 0, s => s
  | steps + 1, s =>
    let s := s.moment script
    if s.exchange.isOver then s
    else match s.next? with
      | some t => play script steps { s with now := t }
      | none => s

end CallScene

namespace CallScript

/-- How many moments a call can have: its beginning, one for each item, the ends of the gate and of the
subscription, and the reply. -/
def moments (c : CallScript) : Nat := c.cues.length + 4

/-- Rehearses an exchange that begins now. -/
def rehearse (c : CallScript) (now : Instant) (exchange : Exchange) : CallReport :=
  let scene : CallScene := { now, exchange, log := [(now, .start), (now, .opened)] }
  let scene := (scene.prompt (c.cues.filter (!·.fromSend))).play c c.moments
  let channelUrl := scene.exchange.effects.findSome? fun
    | .openChannel url => some url
    | .send _ => none
  { result := (scene.exchange.result?.getD (.error ⟨.internal, none⟩)).map .proven
    log := scene.log
    request := scene.exchange.effects.findSome? fun
      | .send request => some request
      | .openChannel _ => none
    channelUrl
    channelClosed :=
      if c.channel.toOption.isSome then some !scene.exchange.subscription.holdsChannel else none }

/-- Rehearses asking for what the prover tells of its notary. -/
def rehearseNotary (c : CallScript) (config : Config) (now : Instant) : CallReport :=
  let endpoint := config.endpoint .notaryInfo
  match NotaryInfo.request endpoint with
  | .error error => .refused now error
  | .ok request =>
    let back := now + c.delay
    { result := (NotaryInfo.fetch endpoint fun _ => c.reply).map .notary
      log := [(now, .start), (now, .sent), (back, .replied), (back, .done)]
      request := some request
      channelUrl := none
      channelClosed := none }

/-- Rehearses a call that begins now. -/
def report (c : CallScript) (config : Config) (id : RequestId) (now : Instant) : CallReport :=
  match c.errand with
  | .notary => c.rehearseNotary config now
  | .proxied method url steps =>
    match (ProxyRequest.start method url config.policy).build steps with
    | .error error => .refused now error
    | .ok request =>
      match Exchange.start config request id (fun _ => c.channel) now with
      | .error error => .refused now error
      | .ok exchange => c.rehearse now exchange

end CallScript

/-- The reports of calls that are made one after another. -/
def reportsInTurn (config : Config) (now : Instant) : List (CallScript × RequestId) → List CallReport
  | [] => []
  | (c, id) :: rest =>
    let report := c.report config id (now + c.start)
    report :: reportsInTurn config report.finished rest

/-- The reports of calls that are made side by side; they share nothing, so none affects another. -/
def reportsSideBySide (config : Config) (calls : List (CallScript × RequestId)) : List CallReport :=
  calls.map fun (c, id) => c.report config id c.start

end ProofRelay.Rehearsal
