import ProofRelay.Channel
import ProofRelay.Clock
import ProofRelay.Gate

/-!
Subscriptions.  A subscription holds the proof channel of one request until its outcome is known.  It is a task
of its own: items arrive and the client may close it at any time, and they take effect when the task looks
(`Subscription.look`).  Then closing comes first, after it the next item that has arrived, and last the
deadline; an item that says that the channel is open moves the deadline to a full wait from now.  A task that is
woken looks until it has to wait (`Subscription.wake`); others may run between two looks.

    (s.run (as ++ bs)) = (s.run as).run bs                                                  (run_append)
    s.wake now = s.run (looks at now)                                                       (wake_eq_run)
-/

namespace ProofRelay

/-- How far a subscription has come. -/
inductive Stage
  /-- The task has not run, and this came of opening the channel. -/
  | unstarted (channel : Except ChannelError Unit)
  /-- The channel is held, until the deadline at the latest. -/
  | waiting (deadline : Instant)
  /-- The channel is closed. -/
  | ended (outcome : Outcome)
deriving Repr

structure Subscription where
  /-- How long to wait for a proof. -/
  patience : Duration
  stage : Stage
  /-- The items that have arrived and are not taken. -/
  inbox : List Item := []
  /-- Whether the channel has said that it is open. -/
  ready : Bool := false
  /-- Whether the client has closed the subscription. -/
  closing : Bool := false
deriving Repr

namespace Subscription

/-- A subscription whose task has not run. -/
def start (channel : Except ChannelError Unit) (patience : Duration) : Subscription where
  patience
  stage := .unstarted channel

/-- The outcome, once it is known. -/
def outcome? (s : Subscription) : Option Outcome :=
  match s.stage with
  | .ended outcome => some outcome
  | _ => none

/-- Whether there is a channel and it is not closed. -/
def holdsChannel (s : Subscription) : Bool :=
  match s.stage with
  | .unstarted (.ok ()) | .waiting _ => true
  | _ => false

/-- The moment at which waiting ends if nothing happens before. -/
def deadline? (s : Subscription) : Option Instant :=
  match s.stage with
  | .waiting deadline => some deadline
  | _ => none

/-- What is told to the gate; the task can change it until it ends. -/
def signal (s : Subscription) : Signal := ⟨s.ready, s.outcome?.isNone⟩

/-! ## From outside -/

/-- An item arrives; it is lost if the channel is closed. -/
def arrive (s : Subscription) (item : Item) : Subscription :=
  if s.holdsChannel then { s with inbox := s.inbox ++ [item] } else s

/-- The client closes the subscription, or drops it. -/
def close (s : Subscription) : Subscription := { s with closing := true }

/-! ## The task -/

/-- One pass of the task with a channel: closing comes first, after it the next item, and last the deadline. -/
def pass (s : Subscription) (now deadline : Instant) : Subscription :=
  if s.closing then { s with stage := .ended .cancelled }
  else
    match s.inbox with
    | item :: rest =>
      match item.outcome? with
      | some outcome => { s with inbox := rest, stage := .ended outcome }
      | none =>
        { s with inbox := rest, ready := true, stage := .waiting (Clock.deadline now s.patience) }
    | [] =>
      if deadline ≤ now then { s with stage := .ended .timedOut }
      else { s with stage := .waiting deadline }

/-- The task makes one pass, if it has not ended. -/
def look (s : Subscription) (now : Instant) : Subscription :=
  match s.stage with
  | .unstarted (.error error) => { s with stage := .ended (.unavailable error) }
  | .unstarted (.ok ()) => s.pass now (Clock.deadline now s.patience)
  | .waiting deadline => s.pass now deadline
  | .ended _ => s

/-- The task makes several passes at one moment. -/
def looks (now : Instant) : (passes : Nat) → Subscription → Subscription
  | 0, s => s
  | passes + 1, s => looks now passes (s.look now)

/-- The task runs until it has to wait.  Each pass takes an item, and one more looks at the deadline. -/
def wake (s : Subscription) (now : Instant) : Subscription := looks now (s.inbox.length + 1) s

/-! ## Runs -/

/-- What can happen to a subscription. -/
inductive Stimulus
  | arrive (item : Item)
  | close
  /-- The task makes one pass. -/
  | look
deriving DecidableEq, Repr

/-- One thing happens. -/
def step (s : Subscription) (now : Instant) : Stimulus → Subscription
  | .arrive item => s.arrive item
  | .close => s.close
  | .look => s.look now

/-- Several things happen, each at its moment. -/
def run (s : Subscription) (events : List (Instant × Stimulus)) : Subscription :=
  events.foldl (fun s (now, stimulus) => s.step now stimulus) s

theorem run_append (s : Subscription) (as bs : List (Instant × Stimulus)) :
    s.run (as ++ bs) = (s.run as).run bs := List.foldl_append

/-- A run of the task is a row of passes, between which nothing else happens. -/
theorem looks_eq_run (now : Instant) (passes : Nat) (s : Subscription) :
    looks now passes s = s.run (List.replicate passes (now, .look)) := by
  induction passes generalizing s with
  | zero => rfl
  | succ passes ih => exact ih (s.look now)

theorem wake_eq_run (s : Subscription) (now : Instant) :
    s.wake now = s.run (List.replicate (s.inbox.length + 1) (now, .look)) :=
  looks_eq_run now _ s

end Subscription
end ProofRelay
