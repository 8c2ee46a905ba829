import ProofRelay.Error
import ProofRelay.Payload

/-!
Proof channels.  A channel yields items one by one: that it is open, messages, and at the end a failure or
nothing more.  Opening one either gives a channel or fails at once.  Waiting for a proof ends with the first item
that decides its outcome, or without one.
-/

namespace ProofRelay

/-- What a channel yields when it is read. -/
inductive Item
  /-- The prover is listening. -/
  | opened
  | message (text : String)
  | failed (error : ChannelError)
  | ended
  /-- Reading the channel crashes. -/
  | crashed
deriving DecidableEq, Repr

/-- How a subscription to a proof ended. -/
inductive Outcome
  /-- The prover pushed a payload. -/
  | delivered (payload : Payload)
  /-- No payload came in time. -/
  | timedOut
  /-- The channel failed or ended before a payload came. -/
  | streamError (error : ChannelError)
  | unavailable (error : ChannelError)
  /-- The client gave up. -/
  | cancelled
deriving DecidableEq, Repr

/-- The outcome that an item decides; that a channel is open decides nothing. -/
def Item.outcome? : Item → Option Outcome
  | opened => none
  | message text => some (.delivered ⟨text⟩)
  | failed error => some (.streamError error)
  | ended => some (.streamError .closed)
  | crashed => some (.streamError (.connection .crash))

end ProofRelay
