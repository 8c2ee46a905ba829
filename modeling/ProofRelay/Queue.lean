/-!
Queues.  What was put in first comes out first; taking out and putting in cost the same however many items
wait, because the newest ones are kept in reverse.  `Queue.toList` is what waits, oldest first:

    (q.push x).toList = q.toList ++ [x]                                    (toList_push)
    q.pop? = some (x, r) → q.toList = x :: r.toList                        (toList_of_pop?)
-/

namespace ProofRelay

structure Queue (α : Type) where
  /-- The items that come out first, oldest first. -/
  front : List α := []
  /-- The items behind them, newest first. -/
  back : List α := []
deriving DecidableEq, Repr

namespace Queue

variable {α : Type}

/-- The items, oldest first. -/
def toList (q : Queue α) : List α := q.front ++ q.back.reverse

/-- Puts an item behind all others. -/
def push (q : Queue α) (x : α) : Queue α := { q with back := x :: q.back }

/-- The oldest item, and the queue without it. -/
def pop? (q : Queue α) : Option (α × Queue α) :=
  match q.front with
  | x :: front => some (x, { q with front })
  | [] =>
    match q.back.reverse with
    | x :: front => some (x, ⟨front, []⟩)
    | [] => none

@[simp] theorem toList_empty : ({} : Queue α).toList = [] := rfl

@[simp] theorem toList_push (q : Queue α) (x : α) : (q.push x).toList = q.toList ++ [x] := by
  simp [toList, push]

theorem toList_of_pop? {q r : Queue α} {x : α} (h : q.pop? = some (x, r)) :
    q.toList = x :: r.toList := by
  unfold pop? at h
  split at h
  next y front hf =>
    obtain ⟨rfl, rfl⟩ := Prod.mk.inj (Option.some.inj h)
    simp [toList, hf]
  next hf =>
    split at h
    next y front hb =>
      obtain ⟨rfl, rfl⟩ := Prod.mk.inj (Option.some.inj h)
      simp [toList, hf, hb]
    next => cases h

theorem pop?_eq_none_iff {q : Queue α} : q.pop? = none ↔ q.toList = [] := by
  unfold pop? toList
  split
  · simp_all
  · split <;> simp_all

end Queue
end ProofRelay
