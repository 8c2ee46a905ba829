import Mathlib.Data.List.Induction
import ProofRelay.Subscription

/-!
What a history decides, said without the task.  `view` follows a history from outside: whether the
client has closed, which items the channel still has to give, and what each look saw.  A look has a
verdict if what it sees ends the wait (`View.verdict?`), and a history decides the verdict of the
first look that has one (`Decides`).

    arrivals events = (view events).taken ++ (view events).queue           (arrivals_eq_taken_append_queue)
    Undecided patience events ∨ ∃ o, Decides patience events o             (undecided_or_decides)
-/

namespace ProofRelay.Subscription

/-- What happens to a subscription, each at its moment. -/
abbrev History := List (Instant × Stimulus)

/-- What a look can see. -/
inductive Sight
  /-- The client has closed. -/
  | closed
  /-- The channel gives its next item. -/
  | item (item : Item)
  /-- The channel has nothing to give. -/
  | nothing
deriving DecidableEq, Repr

/-- What is known from outside. -/
structure View where
  /-- Whether the client has closed. -/
  closed : Bool := false
  /-- The items that have arrived and that no look has seen. -/
  queue : List Item := []
  /-- What each look saw, in order. -/
  seen : List (Instant × Sight) := []
deriving Repr

/-- How an item ends a wait, if it does: a message is delivered, text for text, and what fails, ends or
crashes is an error of the stream. -/
def ending? : Item → Option Outcome
  | .opened => none
  | .message text => some (.delivered ⟨text⟩)
  | .failed error => some (.streamError error)
  | .ended => some (.streamError .closed)
  | .crashed => some (.streamError (.connection .crash))

theorem ending?_eq_none_iff {item : Item} : ending? item = none ↔ item = .opened := by
  cases item <;> simp [ending?]

namespace View

/-- What a look sees now: that the client has closed, before any item. -/
def sight (v : View) : Sight :=
  if v.closed then .closed
  else
    match v.queue with
    | item :: _ => .item item
    | [] => .nothing

/-- One more thing happens; a look takes the item that it sees. -/
def next (v : View) (now : Instant) : Stimulus → View
  | .arrive item => { v with queue := v.queue ++ [item] }
  | .close => { v with closed := true }
  | .look =>
    { v with
      queue := if v.closed then v.queue else v.queue.tail
      seen := v.seen ++ [(now, v.sight)] }

/-- The items that looks have seen. -/
def taken (v : View) : List Item :=
  v.seen.filterMap fun
    | (_, .item item) => some item
    | _ => none

/-- The moment from which the wait counts: that of the last look which saw that the channel is open,
or of the first look if none did. -/
def since? (v : View) : Option Instant :=
  ((v.seen.filter (·.2 = .item .opened)).getLast? <|> v.seen.head?).map (·.1)

/-- What a look decides: to give up if the client has closed, else how the item that it sees ends the
wait, else to give up if the deadline in force has come. -/
def verdict? (v : View) (patience : Duration) (now : Instant) : Option Outcome :=
  match v.sight with
  | .closed => some .cancelled
  | .item item => ending? item
  | .nothing => if Clock.deadline (v.since?.getD now) patience ≤ now then some .timedOut else none

end View

/-- What is known after a history. -/
def view (events : History) : View := events.foldl (fun v (now, stimulus) => v.next now stimulus) {}

/-- The items that arrive in a history. -/
def arrivals (events : History) : List Item :=
  events.filterMap fun
    | (_, .arrive item) => some item
    | _ => none

/-- What a look after a history decides, if anything. -/
def verdict? (patience : Duration) (events : History) (now : Instant) : Option Outcome :=
  (view events).verdict? patience now

/-- No look of a history has a verdict. -/
def Undecided (patience : Duration) (events : History) : Prop :=
  ∀ before now, before ++ [(now, .look)] <+: events → verdict? patience before now = none

/-- The first look of a history that has a verdict has this one. -/
def Decides (patience : Duration) (events : History) (outcome : Outcome) : Prop :=
  ∃ before now, before ++ [(now, .look)] <+: events ∧ Undecided patience before ∧
    verdict? patience before now = some outcome

theorem view_nil : view [] = {} := rfl

theorem view_append_singleton (events : History) (now : Instant) (stimulus : Stimulus) :
    view (events ++ [(now, stimulus)]) = (view events).next now stimulus := by
  simp [view, List.foldl_append]

theorem sight_eq_item_iff {v : View} {item : Item} :
    v.sight = .item item ↔ v.closed = false ∧ ∃ rest, v.queue = item :: rest := by
  obtain ⟨closed, queue, seen⟩ := v
  cases closed <;> cases queue <;> simp [View.sight]

theorem sight_eq_nothing_iff {v : View} : v.sight = .nothing ↔ v.closed = false ∧ v.queue = [] := by
  obtain ⟨closed, queue, seen⟩ := v
  cases closed <;> cases queue <;> simp [View.sight]

theorem since?_arrive (v : View) (now : Instant) (item : Item) :
    (v.next now (.arrive item)).since? = v.since? := rfl

theorem taken_arrive (v : View) (now : Instant) (item : Item) :
    (v.next now (.arrive item)).taken = v.taken := rfl

theorem taken_of_item {v : View} {item : Item} (h : v.sight = .item item) (now : Instant) :
    (v.next now .look).taken = v.taken ++ [item] := by
  simp [View.taken, View.next, h, List.filterMap_append]

theorem taken_of_nothing {v : View} (h : v.sight = .nothing) (now : Instant) :
    (v.next now .look).taken = v.taken := by
  simp [View.taken, View.next, h, List.filterMap_append]

theorem since?_of_opened {v : View} (h : v.sight = .item .opened) (now : Instant) :
    (v.next now .look).since? = some now := by
  simp [View.since?, View.next, h]

theorem since?_of_not_opened {v : View} (h : v.sight ≠ .item .opened) (now : Instant) :
    (v.next now .look).since? = some (v.since?.getD now) := by
  have hf : (v.seen ++ [(now, v.sight)]).filter (·.2 = .item .opened) =
      v.seen.filter (·.2 = .item .opened) := by
    simp [List.filter_append, h]
  simp only [View.since?, View.next, hf, List.head?_append]
  cases (v.seen.filter (·.2 = .item .opened)).getLast? <;> cases v.seen.head? <;> rfl

theorem taken_next_look (v : View) (now : Instant) :
    (v.next now .look).taken ++ (v.next now .look).queue = v.taken ++ v.queue := by
  obtain ⟨closed, queue, seen⟩ := v
  cases closed <;> cases queue <;> simp [View.taken, View.next, View.sight, List.filterMap_append]

/-- The channel gives its items in order, each to one look. -/
theorem arrivals_eq_taken_append_queue (events : History) :
    arrivals events = (view events).taken ++ (view events).queue := by
  induction events using List.reverseRecOn with
  | nil => rfl
  | append_singleton events e ih =>
    obtain ⟨now, stimulus⟩ := e
    rw [view_append_singleton]
    cases stimulus with
    | arrive item =>
      have h : arrivals (events ++ [(now, .arrive item)]) = arrivals events ++ [item] := by
        simp [arrivals, List.filterMap_append]
      rw [h, ih, List.append_assoc]
      rfl
    | close =>
      have h : arrivals (events ++ [(now, .close)]) = arrivals events := by
        simp [arrivals, List.filterMap_append]
      rw [h, ih]
      rfl
    | look =>
      have h : arrivals (events ++ [(now, .look)]) = arrivals events := by
        simp [arrivals, List.filterMap_append]
      rw [h, ih, taken_next_look]

/-! ## Verdicts -/

theorem append_look_prefix_iff {before events : History} {now later : Instant} {stimulus : Stimulus} :
    before ++ [(now, .look)] <+: events ++ [(later, stimulus)] ↔
      (before = events ∧ now = later ∧ stimulus = .look) ∨ before ++ [(now, .look)] <+: events := by
  rw [List.prefix_concat_iff]
  constructor
  · rintro (h | h)
    · obtain ⟨rfl, he⟩ := List.append_inj' h rfl
      simp only [List.cons.injEq, Prod.mk.injEq, and_true] at he
      exact .inl ⟨rfl, he.1, he.2.symm⟩
    · exact .inr h
  · rintro (⟨rfl, rfl, rfl⟩ | h)
    · exact .inl rfl
    · exact .inr h

theorem undecided_nil (patience : Duration) : Undecided patience [] := by
  intro before now h
  simp at h

theorem undecided_append_look {patience : Duration} {events : History} {now : Instant} :
    Undecided patience (events ++ [(now, .look)]) ↔
      Undecided patience events ∧ verdict? patience events now = none := by
  constructor
  · intro h
    exact ⟨fun before t hp => h before t (append_look_prefix_iff.mpr (.inr hp)),
      h events now (append_look_prefix_iff.mpr (.inl ⟨rfl, rfl, rfl⟩))⟩
  · rintro ⟨h, hv⟩ before t hp
    rcases append_look_prefix_iff.mp hp with ⟨rfl, rfl, -⟩ | hp
    · exact hv
    · exact h before t hp

theorem undecided_append_other {patience : Duration} {events : History} {now : Instant}
    {stimulus : Stimulus} (hs : stimulus ≠ .look) :
    Undecided patience (events ++ [(now, stimulus)]) ↔ Undecided patience events := by
  simp only [Undecided, append_look_prefix_iff, hs, and_false, false_or]

theorem decides_append_look {patience : Duration} {events : History} {now : Instant} {o : Outcome} :
    Decides patience (events ++ [(now, .look)]) o ↔
      Decides patience events o ∨ (Undecided patience events ∧ verdict? patience events now = some o) := by
  constructor
  · rintro ⟨before, t, hp, hu, hv⟩
    rcases append_look_prefix_iff.mp hp with ⟨rfl, rfl, -⟩ | hp
    · exact .inr ⟨hu, hv⟩
    · exact .inl ⟨before, t, hp, hu, hv⟩
  · rintro (⟨before, t, hp, hu, hv⟩ | ⟨hu, hv⟩)
    · exact ⟨before, t, append_look_prefix_iff.mpr (.inr hp), hu, hv⟩
    · exact ⟨events, now, List.prefix_rfl, hu, hv⟩

theorem decides_append_other {patience : Duration} {events : History} {now : Instant}
    {stimulus : Stimulus} {o : Outcome} (hs : stimulus ≠ .look) :
    Decides patience (events ++ [(now, stimulus)]) o ↔ Decides patience events o := by
  simp only [Decides, append_look_prefix_iff, hs, and_false, false_or]

theorem undecided_or_decides (patience : Duration) (events : History) :
    Undecided patience events ∨ ∃ o, Decides patience events o := by
  induction events using List.reverseRecOn with
  | nil => exact .inl (undecided_nil patience)
  | append_singleton events e ih =>
    obtain ⟨now, stimulus⟩ := e
    by_cases hs : stimulus = .look
    · subst hs
      rcases ih with h | ⟨o, h⟩
      · cases hv : verdict? patience events now with
        | none => exact .inl (undecided_append_look.mpr ⟨h, hv⟩)
        | some o => exact .inr ⟨o, decides_append_look.mpr (.inr ⟨h, hv⟩)⟩
      · exact .inr ⟨o, decides_append_look.mpr (.inl h)⟩
    · rcases ih with h | ⟨o, h⟩
      · exact .inl ((undecided_append_other hs).mpr h)
      · exact .inr ⟨o, (decides_append_other hs).mpr h⟩

end ProofRelay.Subscription
