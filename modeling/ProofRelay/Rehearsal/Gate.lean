import ProofRelay.Gate

/-!
Rehearsals of gates.  A script sets a signal, now or later, and waits at the gate; the clock moves only while a
caller waits, from one moment at which something happens to the next.
-/

namespace ProofRelay.Rehearsal

/-- What a script does with a signal. -/
inductive GateCue
  /-- Sets the signal, or lets its sender go away. -/
  | set (value : Option Bool)
  /-- Does so after a while. -/
  | later (after : Duration) (value : Option Bool)
  /-- Waits at the gate for a while at most. -/
  | wait (span : Duration)
deriving DecidableEq, Repr

/-- How a caller was let through, and after how long. -/
structure Passage where
  ready : Bool
  elapsed : Duration
deriving DecidableEq, Repr

/-- A signal on the clock, with what is to be set later. -/
structure SignalScene where
  now : Instant := 0
  signal : Signal
  agenda : Agenda (Option Bool) := .empty
deriving Repr

/-- Waits at a gate; all that is set at a moment is set before the caller looks. -/
def SignalScene.await (deadline now : Instant) (signal : Signal) :
    List (Instant × Option Bool) → Bool × SignalScene
  | [] =>
    match Gate.poll signal deadline now with
    | some ready => (ready, ⟨now, signal, .empty⟩)
    | none => (false, ⟨deadline, signal, .empty⟩)
  | (t, value) :: rest =>
    if t ≤ now then await deadline now (signal.set value) rest
    else match Gate.poll signal deadline now with
      | some ready => (ready, ⟨now, signal, ⟨(t, value) :: rest⟩⟩)
      | none =>
        if t ≤ deadline then await deadline t (signal.set value) rest
        else (false, ⟨deadline, signal, ⟨(t, value) :: rest⟩⟩)

/-- Follows a script; `timer` says when a caller has waited for long enough. -/
def SignalScene.followBy (timer : Clock.Timer) (s : SignalScene) : GateCue → SignalScene × Option Passage
  | .set value => ({ s with signal := s.signal.set value }, none)
  | .later after value => ({ s with agenda := s.agenda.add (s.now + after) value }, none)
  | .wait span =>
    let (ready, after) := await (timer s.now span) s.now s.signal s.agenda.entries
    (after, some ⟨ready, after.now - s.now⟩)

/-- Follows a script on the clock. -/
def SignalScene.follow (s : SignalScene) (cue : GateCue) : SignalScene × Option Passage :=
  s.followBy Clock.deadline cue

/-- The passages of a script, for a signal that is set at first. -/
def passages (ready : Bool) (cues : List GateCue) : List Passage :=
  (cues.foldl (fun (acc : SignalScene × List Passage) cue =>
    let (scene, passage) := acc.1.follow cue
    (scene, acc.2 ++ passage.toList)) ({ signal := ⟨ready, true⟩ }, [])).2

end ProofRelay.Rehearsal
