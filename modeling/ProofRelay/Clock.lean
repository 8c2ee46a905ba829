/-!
Time as data.  Moments and spans are whole milliseconds, which is what a timer counts in: one that is set for a
part of a millisecond rings at the end of it, so such spans are rounded up.  A deadline is a span after a moment;
one that would lie past the last moment of the clock is moved to thirty years from now, so it never fails to
exist.  An `Agenda` holds what is to happen later, in order of time and, at one moment, in the order in which it
was put there.
-/

namespace ProofRelay

/-- A moment, in milliseconds since the clock began. -/
abbrev Instant := Nat

/-- A span of time in milliseconds. -/
abbrev Duration := Nat

namespace Clock

/-- A timer says when a span is over that begins at a moment. -/
abbrev Timer := Instant → Duration → Instant

/-- The last moment of the clock. -/
def latest : Instant := (UInt64.size / 2 - 1) * 1000 + 999

/-- The longest span. -/
def longest : Duration := (UInt64.size - 1) * 1000 + 999

/-- Thirty years. -/
def farFuture : Duration := 30 * 365 * 24 * 60 * 60 * 1000

/-- The moment a span after `now`, or the far future if the clock does not reach that moment. -/
def deadline (now : Instant) (span : Duration) : Instant :=
  if now + span ≤ latest then now + span else now + farFuture

theorem deadline_of_le {now : Instant} {span : Duration} (h : now + span ≤ latest) :
    deadline now span = now + span := if_pos h

theorem le_deadline (now : Instant) (span : Duration) : now ≤ deadline now span := by
  unfold deadline
  split <;> exact Nat.le_add_right ..

end Clock

/-- What is to happen later. -/
structure Agenda (α : Type) where
  entries : List (Instant × α) := []
deriving Repr

namespace Agenda

/-- Nothing is to happen. -/
def empty : Agenda α := {}

/-- Puts an event at its place, after those of the same moment. -/
def insert (at_ : Instant) (x : α) : List (Instant × α) → List (Instant × α)
  | [] => [(at_, x)]
  | (t, y) :: rest => if t ≤ at_ then (t, y) :: insert at_ x rest else (at_, x) :: (t, y) :: rest

/-- Lets something happen at a moment. -/
def add (a : Agenda α) (at_ : Instant) (x : α) : Agenda α := ⟨insert at_ x a.entries⟩

/-- The moment at which something happens next. -/
def next? (a : Agenda α) : Option Instant := a.entries.head?.map (·.1)

/-- What happens up to a moment, in order. -/
def due (a : Agenda α) (now : Instant) : List α :=
  (a.entries.takeWhile fun (t, _) => t ≤ now).map (·.2)

/-- What happens after a moment. -/
def after (a : Agenda α) (now : Instant) : Agenda α :=
  ⟨a.entries.dropWhile fun (t, _) => t ≤ now⟩

end Agenda

/-- The earlier of two moments, if there are any. -/
def earlier? : Option Instant → Option Instant → Option Instant
  | none, b => b
  | a, none => a
  | some a, some b => some (min a b)

end ProofRelay
