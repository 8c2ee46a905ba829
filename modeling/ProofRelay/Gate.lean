import ProofRelay.Clock

/-!
Gates.  A gate holds a caller back until a signal says that the other side is ready, but no longer than until a
deadline, and no longer than the signal can still change.  Readiness counts first: a caller that looks late is
let through as ready even if the sender of the signal is gone or the deadline has passed.
-/

namespace ProofRelay

/-- What is known of the other side's readiness. -/
structure Signal where
  ready : Bool
  /-- Whether its sender is still there to change it. -/
  live : Bool
deriving DecidableEq, Repr

namespace Signal

/-- Sets readiness; none means that the sender goes away, after which nothing can be set. -/
def set (s : Signal) (value : Option Bool) : Signal :=
  if s.live then
    match value with
    | some ready => { s with ready }
    | none => { s with live := false }
  else s

end Signal

namespace Gate

/-- Whether a caller who looks now is let through, and then whether as ready. -/
def poll (signal : Signal) (deadline now : Instant) : Option Bool :=
  if signal.ready then some true
  else if !signal.live || deadline ≤ now then some false
  else none

theorem poll_eq_none_iff {signal : Signal} {deadline now : Instant} :
    poll signal deadline now = none ↔
      signal.ready = false ∧ signal.live = true ∧ now < deadline := by
  unfold poll
  cases signal.ready <;> cases signal.live <;> simp

end Gate

end ProofRelay
