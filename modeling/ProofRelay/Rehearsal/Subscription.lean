import ProofRelay.Subscription

/-!
Rehearsals of subscriptions.  A script queues items on a channel, now or later, lets time pass, closes the
subscription and waits for it.  The subscription runs only when the scene settles, which happens after each cue
that does not hold it back, and whenever the script waits.
-/

namespace ProofRelay.Rehearsal

/-- What a script does with a subscription. -/
inductive SubscriptionCue
  | item (item : Item)
  /-- Queues an item after a while. -/
  | later (after : Duration) (item : Item)
  | advance (span : Duration)
  | close
  /-- Drops the handle. -/
  | drop
  /-- Waits until the channel is ready, for a while at most. -/
  | awaitReady (span : Duration)
  /-- Waits for the outcome, which uses up the handle. -/
  | awaitOutcome
deriving DecidableEq, Repr

/-- A subscription on the clock, with the items that are to come. -/
structure SubscriptionScene where
  now : Instant := 0
  subscription : Subscription
  agenda : Agenda Item := .empty
  /-- Whether opening gave a channel. -/
  hasChannel : Bool
  /-- Whether the end of the channel is queued; nothing is queued after it. -/
  sealed : Bool := false
  /-- Whether the client still has the subscription. -/
  hasHandle : Bool := true
deriving Repr

/-- What is seen of a subscription after a cue. -/
structure Sight where
  /-- Whether the wait for readiness was ended by it, and after how long. -/
  passage : Option (Bool × Duration) := none
  /-- The outcome, and after how long. -/
  outcome : Option (Outcome × Duration) := none
  /-- Whether the channel is ready, if there is a handle. -/
  ready : Option Bool
  /-- Whether the channel is closed, if there is one. -/
  closed : Option Bool
deriving DecidableEq, Repr

namespace SubscriptionScene

/-- The scene after opening a subscription. -/
def start (channel : Except ChannelError Unit) (patience : Duration) : SubscriptionScene where
  subscription := .start channel patience
  hasChannel := channel.toOption.isSome

def queue (s : SubscriptionScene) (item : Item) : SubscriptionScene :=
  if s.sealed then s
  else { s with subscription := s.subscription.arrive item, sealed := item = .ended }

/-- Queues the items whose time has come, and lets the subscription run. -/
def settle (s : SubscriptionScene) : SubscriptionScene :=
  let s := (s.agenda.due s.now).foldl queue { s with agenda := s.agenda.after s.now }
  { s with subscription := s.subscription.wake s.now }

/-- The next moment at which something happens by itself. -/
def next? (s : SubscriptionScene) : Option Instant :=
  earlier? s.agenda.next? s.subscription.deadline?

/-- How many moments there can be: one for each item to come, and the deadline. -/
def moments (s : SubscriptionScene) : Nat := s.agenda.entries.length + 2

/-- Lets time pass up to a moment. -/
def advanceTo (target : Instant) : (steps : Nat) → SubscriptionScene → SubscriptionScene
  | 0, s => { s with now := target }
  | steps + 1, s =>
    let s := s.settle
    match s.next? with
    | some t => if t ≤ target then advanceTo target steps { s with now := t } else { s with now := target }
    | none => { s with now := target }

/-- Waits until the channel is ready; the caller looks before the subscription runs. -/
def awaitReady (deadline : Instant) : (steps : Nat) → SubscriptionScene → Bool × SubscriptionScene
  | 0, s => (false, s)
  | steps + 1, s =>
    match Gate.poll s.subscription.signal deadline s.now with
    | some ready => (ready, s)
    | none =>
      let s := s.settle
      match Gate.poll s.subscription.signal deadline s.now with
      | some ready => (ready, s)
      | none =>
        let t := ((earlier? (some deadline) s.next?).getD deadline)
        awaitReady deadline steps { s with now := t }

/-- Waits for the outcome. -/
def awaitOutcome : (steps : Nat) → SubscriptionScene → Option Outcome × SubscriptionScene
  | 0, s => (none, s)
  | steps + 1, s =>
    let s := s.settle
    match s.subscription.outcome? with
    | some outcome => (some outcome, s)
    | none =>
      match s.next? with
      | some t => awaitOutcome steps { s with now := t }
      | none => (none, s)

/-- What is seen now. -/
def sight (s : SubscriptionScene) : Sight where
  ready := if s.hasHandle then some s.subscription.ready else none
  closed := if s.hasChannel then some (s.sealed || !s.subscription.holdsChannel) else none

/-- Follows a cue; without a handle, cues that need one do nothing. -/
def follow (s : SubscriptionScene) : SubscriptionCue →
    SubscriptionScene × Option (Bool × Duration) × Option (Outcome × Duration)
  | .item item => (s.queue item, none, none)
  | .later after item => ({ s with agenda := s.agenda.add (s.now + after) item }, none, none)
  | .advance span => (advanceTo (s.now + span) s.moments s, none, none)
  | .close => (if s.hasHandle then { s with subscription := s.subscription.close } else s, none, none)
  | .drop =>
    (if s.hasHandle then { s with subscription := s.subscription.close, hasHandle := false } else s,
      none, none)
  | .awaitReady span =>
    if s.hasHandle then
      let (ready, after) := awaitReady (Clock.deadline s.now span) (s.moments + 1) s
      (after, some (ready, after.now - s.now), none)
    else (s, none, none)
  | .awaitOutcome =>
    if s.hasHandle then
      let (outcome, after) := awaitOutcome s.moments s
      ({ after with hasHandle := false }, none, outcome.map fun o => (o, after.now - s.now))
    else (s, none, none)

/-- Follows a cue, settles unless it is held back, and looks. -/
def play (s : SubscriptionScene) (cue : SubscriptionCue) (hold : Bool) : SubscriptionScene × Sight :=
  let (s, passage, outcome) := s.follow cue
  let s := if hold then s else s.settle
  (s, { s.sight with passage, outcome })

end SubscriptionScene

/-- What is seen of a subscription after each cue of a script.  With `hold` it does not run at first. -/
def sights (channel : Except ChannelError Unit) (patience : Duration) (hold : Bool)
    (cues : List (SubscriptionCue × Bool)) : List Sight :=
  let scene := SubscriptionScene.start channel patience
  let scene := if hold then scene else scene.settle
  (cues.foldl (fun (acc : SubscriptionScene × List Sight) (cue, hold) =>
    let (scene, sight) := acc.1.play cue hold
    (scene, acc.2 ++ [sight])) (scene, [])).2

end ProofRelay.Rehearsal
