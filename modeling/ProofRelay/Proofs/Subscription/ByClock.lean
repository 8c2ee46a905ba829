import ProofRelay.Proofs.Subscription.Closing

/-!
What a task comes to that is served in time.  The clock does not move on before such a task has
looked at all that has happened, nor past its deadline (`Prompt`).  Then the moments at which the
task looks do not matter: the outcome is that of the first thing to happen among a closing, an item
that ends the wait and the deadline, which is moved by each item that says that the channel is open
(`byClock`).

    s.Prompt began events → s.outcome? = some o → o = byClock patience deadline (outside events)
                                                                                  (outcome?_of_prompt)
-/

namespace ProofRelay.Subscription

/-- What happens from outside: all but the looks of the task. -/
def outside (events : History) : History := events.filter (·.2 ≠ .look)

/-- What the first thing to happen decides, if the wait ends at the deadline. -/
def byClock (patience : Duration) (deadline : Instant) : History → Outcome
  | [] => .timedOut
  | (_, .look) :: later => byClock patience deadline later
  | (t, .close) :: _ => if deadline < t then .timedOut else .cancelled
  | (t, .arrive item) :: later =>
    if deadline < t then .timedOut
    else
      match ending? item with
      | some outcome => outcome
      | none => byClock patience (Clock.deadline t patience) later

/-- The task has nothing to do before this moment. -/
def Rests (s : Subscription) (t : Instant) : Prop :=
  (∃ o, s.outcome? = some o) ∨
    ∃ deadline, s.stage = .waiting deadline ∧ t ≤ deadline ∧ s.inbox = [] ∧ s.closing = false

/-- What happens does not race with what else happens at the moment: a closing finds no item that
the task has not taken, and the deadline ends the wait last. -/
def Unraced (s : Subscription) (t : Instant) (stimulus : Stimulus) (later : History) : Prop :=
  s.outcome? = none →
    (stimulus = .close → s.inbox = []) ∧
      ((s.step t stimulus).outcome? = some .timedOut → ∀ e ∈ later, e.2 ≠ .look → t < e.1)

/-- The clock moves on only while the task rests, and nothing races. -/
def Prompt (s : Subscription) (now : Instant) : History → Prop
  | [] => True
  | (t, stimulus) :: later =>
    (t = now ∨ now < t ∧ s.Rests t) ∧ s.Unraced t stimulus later ∧ (s.step t stimulus).Prompt t later

/-! ## Reading the clock -/

theorem byClock_outside (patience : Duration) (deadline : Instant) (events : History) :
    byClock patience deadline (outside events) = byClock patience deadline events := by
  induction events generalizing deadline with
  | nil => rfl
  | cons e later ih =>
    obtain ⟨t, stimulus⟩ := e
    cases stimulus with
    | arrive item =>
      have h : outside ((t, .arrive item) :: later) = (t, .arrive item) :: outside later := by
        simp [outside]
      simp only [h, byClock, ih]
    | close =>
      have h : outside ((t, .close) :: later) = (t, .close) :: outside later := by
        simp [outside]
      simp only [h, byClock]
    | look =>
      have h : outside ((t, .look) :: later) = outside later := by
        simp [outside]
      rw [h, ih, byClock]

theorem byClock_skip_look (patience : Duration) (deadline : Instant) (before later : History) (t : Instant) :
    byClock patience deadline (before ++ (t, .look) :: later) =
      byClock patience deadline (before ++ later) := by
  have h : outside (before ++ (t, .look) :: later) = outside (before ++ later) := by
    simp [outside]
  rw [← byClock_outside, h, byClock_outside]

theorem byClock_of_late {patience : Duration} {deadline : Instant} {events : History}
    (h : ∀ e ∈ events, e.2 ≠ .look → deadline < e.1) : byClock patience deadline events = .timedOut := by
  induction events with
  | nil => rfl
  | cons e later ih =>
    obtain ⟨t, stimulus⟩ := e
    cases stimulus with
    | arrive item => rw [byClock, if_pos (h (t, .arrive item) (by simp) (by simp))]
    | close => rw [byClock, if_pos (h (t, .close) (by simp) (by simp))]
    | look => exact ih fun e he => h e (List.mem_cons_of_mem _ he)

/-! ## Prompt runs -/

/-- The task waits, or is to begin now, and this is its deadline. -/
def Awaits (s : Subscription) (now deadline : Instant) : Prop :=
  now ≤ deadline ∧ s.closing = false ∧
    (s.stage = .waiting deadline ∨
      s.stage = .unstarted (.ok ()) ∧ deadline = Clock.deadline now s.patience)

theorem outcome?_of_awaits {s : Subscription} {now deadline : Instant} (h : s.Awaits now deadline) :
    s.outcome? = none := by
  obtain ⟨-, -, hs | ⟨hs, -⟩⟩ := h <;> simp [outcome?, hs]

theorem arrive_of_awaits {s : Subscription} {now deadline : Instant} (h : s.Awaits now deadline)
    (item : Item) : s.arrive item = { s with inbox := s.inbox ++ [item] } := by
  obtain ⟨-, -, hs | ⟨hs, -⟩⟩ := h <;> simp [arrive, holdsChannel, hs]

theorem fate?_close_of_awaits {s : Subscription} {now deadline : Instant} (h : s.Awaits now deadline) :
    s.close.fate? = some .cancelled := by
  obtain ⟨-, -, hs | ⟨hs, -⟩⟩ := h <;> simp [fate?, close, hs]

/-- The clock moves on to a moment that the task still awaits, and finds no item if it does. -/
theorem awaits_of_rests {s : Subscription} {now t deadline : Instant} (h : s.Awaits now deadline)
    (ht : t = now ∨ now < t ∧ s.Rests t) :
    s.Awaits t deadline ∧ (t = now ∨ s.inbox = []) := by
  rcases ht with rfl | ⟨-, ⟨o, ho⟩ | ⟨d, hd, hle, hi, -⟩⟩
  · exact ⟨h, .inl rfl⟩
  · rw [outcome?_of_awaits h] at ho
    cases ho
  · obtain ⟨-, hc, hs⟩ := h
    rw [hd] at hs
    rcases hs with hs | ⟨hs, -⟩
    · cases hs
      exact ⟨⟨hle, hc, .inl hd⟩, .inr hi⟩
    · cases hs

theorem look_of_awaits {s : Subscription} {now deadline : Instant} (h : s.Awaits now deadline) :
    s.look now = s.pass now deadline := by
  obtain ⟨-, -, hs | ⟨hs, rfl⟩⟩ := h <;> simp [look, hs]

section
variable {s : Subscription} {now deadline : Instant} (h : s.Awaits now deadline)

include h

theorem look_of_item {item : Item} {rest : List Item} {o : Outcome} (hi : s.inbox = item :: rest)
    (ho : ending? item = some o) : (s.look now).outcome? = some o := by
  rw [look_of_awaits h]
  simp [pass, h.2.1, hi, outcome?_eq_ending?, ho, outcome?]

theorem look_of_opened {rest : List Item} (hi : s.inbox = .opened :: rest) :
    s.look now =
      { s with inbox := rest, ready := true, stage := .waiting (Clock.deadline now s.patience) } := by
  rw [look_of_awaits h]
  simp [pass, h.2.1, hi, outcome?_eq_ending?, ending?]

theorem look_of_deadline (hi : s.inbox = []) (hd : deadline ≤ now) :
    (s.look now).outcome? = some .timedOut := by
  rw [look_of_awaits h]
  simp [pass, h.2.1, hi, hd, outcome?]

theorem look_of_wait (hi : s.inbox = []) (hd : now < deadline) :
    s.look now = { s with stage := .waiting deadline } := by
  rw [look_of_awaits h]
  simp [pass, h.2.1, hi, Nat.not_le.mpr hd]

end

/-- **A task that is served in time** comes to what the clock says of the items that it has not
taken and of what happens later. -/
theorem outcome?_of_prompt {s : Subscription} {now deadline : Instant} {events : History} {o : Outcome}
    (h : s.Awaits now deadline) (hp : s.Prompt now events) (ho : (s.run events).outcome? = some o) :
    o = byClock s.patience deadline (s.inbox.map (now, .arrive ·) ++ events) := by
  induction events generalizing s now deadline with
  | nil =>
    rw [show s.run [] = s from rfl, outcome?_of_awaits h] at ho
    cases ho
  | cons e later ih =>
    obtain ⟨t, stimulus⟩ := e
    obtain ⟨hclock, hraced, hlater⟩ := hp
    obtain ⟨hclose, hlast⟩ := hraced (outcome?_of_awaits h)
    obtain ⟨h, hinbox⟩ := awaits_of_rests h hclock
    have hmoment : s.inbox.map ((now, .arrive ·) : Item → Instant × Stimulus) =
        s.inbox.map (t, .arrive ·) := by
      rcases hinbox with rfl | hi
      · rfl
      · rw [hi]
        rfl
    rw [hmoment]
    have hle : ¬ deadline < t := Nat.not_lt.mpr h.1
    replace ho : ((s.step t stimulus).run later).outcome? = some o := ho
    cases stimulus with
    | arrive item =>
      have hstep : s.step t (.arrive item) = { s with inbox := s.inbox ++ [item] } := arrive_of_awaits h item
      rw [hstep] at hlater ho
      have hnext := ih (s := { s with inbox := s.inbox ++ [item] }) h hlater ho
      simpa using hnext
    | close =>
      rw [eq_of_fate? (fate?_close_of_awaits h) ho, hclose rfl]
      simp [byClock, hle]
    | look =>
      replace hlater : (s.look t).Prompt t later := hlater
      replace ho : ((s.look t).run later).outcome? = some o := ho
      rw [byClock_skip_look]
      cases hi : s.inbox with
      | nil =>
        rcases Nat.lt_or_ge t deadline with hd | hd
        · rw [look_of_wait h hi hd] at hlater ho
          have hnext := ih (s := { s with stage := .waiting deadline }) ⟨h.1, h.2.1, .inl rfl⟩ hlater ho
          simpa [hi] using hnext
        · have htimeout := look_of_deadline h hi hd
          rw [eq_of_fate? (fate?_of_outcome? htimeout) ho]
          exact (byClock_of_late fun e he hne => Nat.lt_of_le_of_lt hd (hlast htimeout e he hne)).symm
      | cons item rest =>
        cases hitem : ending? item with
        | some o' =>
          rw [eq_of_fate? (fate?_of_outcome? (look_of_item h hi hitem)) ho]
          simp [byClock, hle, hitem]
        | none =>
          obtain rfl := ending?_eq_none_iff.mp hitem
          rw [look_of_opened h hi] at hlater ho
          have hnext := ih
            (s := { s with inbox := rest, ready := true, stage := .waiting (Clock.deadline t s.patience) })
            ⟨Clock.le_deadline t s.patience, h.2.1, .inl rfl⟩ hlater ho
          simpa [byClock, hle, hitem] using hnext

/-! ## Serving a task in time -/

theorem awaits_start (patience : Duration) (began : Instant) :
    (start (.ok ()) patience).Awaits began (Clock.deadline began patience) :=
  ⟨Clock.le_deadline began patience, rfl, .inr ⟨rfl, rfl⟩⟩

end ProofRelay.Subscription
