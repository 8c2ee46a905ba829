import ProofRelay.Proofs.Subscription.History

/-!
What a subscription comes to.  As long as no look has a verdict, the task knows what is known from
outside (`run_of_undecided`); the first look with a verdict ends it, and nothing changes after that
but that it may be closed once more (`run_of_outcome?`).  A task that is woken ends or is left with
nothing to do before its deadline (`wake_cases`), so the deadline ends every wait
(`exists_outcome?_wake`).
-/

namespace ProofRelay.Subscription

/-- The task of an undecided history. -/
def ofView (patience : Duration) (v : View) : Subscription where
  patience
  stage :=
    match v.since? with
    | some t => .waiting (Clock.deadline t patience)
    | none => .unstarted (.ok ())
  inbox := v.queue
  ready := .opened ∈ v.taken
  closing := v.closed

/-! ## After the end -/

theorem run_append_singleton (s : Subscription) (events : History) (now : Instant) (stimulus : Stimulus) :
    s.run (events ++ [(now, stimulus)]) = (s.run events).step now stimulus := by
  rw [run_append]
  rfl

theorem look_of_outcome? {s : Subscription} {o : Outcome} (h : s.outcome? = some o) (now : Instant) :
    s.look now = s := by
  unfold outcome? at h
  split at h
  · next hs => simp only [look, hs]
  · cases h

theorem arrive_of_outcome? {s : Subscription} {o : Outcome} (h : s.outcome? = some o) (item : Item) :
    s.arrive item = s := by
  unfold outcome? at h
  split at h
  · next hs => simp [arrive, holdsChannel, hs]
  · cases h

/-- Once it has ended, a subscription can only be closed again. -/
theorem run_of_outcome? {s : Subscription} {o : Outcome} (h : s.outcome? = some o) (events : History) :
    ∃ closing, s.run events = { s with closing } := by
  induction events using List.reverseRecOn with
  | nil => exact ⟨s.closing, rfl⟩
  | append_singleton events e ih =>
    obtain ⟨now, stimulus⟩ := e
    obtain ⟨closing, ih⟩ := ih
    have hc : ({ s with closing } : Subscription).outcome? = some o := h
    rw [run_append_singleton, ih]
    cases stimulus with
    | arrive item => exact ⟨closing, arrive_of_outcome? hc item⟩
    | close => exact ⟨true, rfl⟩
    | look => exact ⟨closing, look_of_outcome? hc now⟩

theorem outcome?_run_of_outcome? {s : Subscription} {o : Outcome} (h : s.outcome? = some o)
    (events : History) : (s.run events).outcome? = some o := by
  obtain ⟨closing, hrun⟩ := run_of_outcome? h events
  rw [hrun]
  exact h

/-! ## Before the end -/

theorem look_ofView (patience : Duration) (v : View) (now : Instant) :
    (ofView patience v).look now =
      (ofView patience v).pass now (Clock.deadline (v.since?.getD now) patience) := by
  cases h : v.since? <;> simp [look, ofView, h]

/-- The task decides by its items as a history does. -/
theorem outcome?_eq_ending? (item : Item) : item.outcome? = ending? item := by
  cases item <;> rfl

/-- A look with a verdict ends the task, which keeps the items behind the one that decided. -/
theorem look_of_verdict {patience : Duration} {v : View} {now : Instant} {o : Outcome}
    (h : v.verdict? patience now = some o) :
    (ofView patience v).look now =
      { ofView patience v with stage := .ended o, inbox := (v.next now .look).queue } := by
  rw [look_ofView]
  obtain ⟨closed, queue, seen⟩ := v
  cases closed with
  | true =>
    simp only [View.verdict?, View.sight, if_true, Option.some.injEq] at h
    simp [pass, ofView, View.next, h]
  | false =>
    cases queue with
    | nil =>
      simp only [View.verdict?, View.sight, Bool.false_eq_true, if_false] at h
      split at h
      · next hd =>
        cases h
        simp only [pass, ofView, Bool.false_eq_true, if_false, View.next, List.tail_nil]
        rw [if_pos hd]
      · cases h
    | cons item rest =>
      simp only [View.verdict?, View.sight, Bool.false_eq_true, if_false] at h
      simp [pass, ofView, View.next, outcome?_eq_ending?, h]

/-- A look without a verdict leaves the task of the longer history. -/
theorem look_of_no_verdict {patience : Duration} {v : View} {now : Instant}
    (h : v.verdict? patience now = none) :
    (ofView patience v).look now = ofView patience (v.next now .look) := by
  rw [look_ofView]
  cases hs : v.sight with
  | closed => simp [View.verdict?, hs] at h
  | item item =>
    obtain rfl : item = .opened := ending?_eq_none_iff.mp (by simpa [View.verdict?, hs] using h)
    obtain ⟨hc, rest, hq⟩ := sight_eq_item_iff.mp hs
    unfold ofView
    rw [since?_of_opened hs now, taken_of_item hs now]
    simp [pass, hc, hq, outcome?_eq_ending?, ending?, View.next]
  | nothing =>
    obtain ⟨hc, hq⟩ := sight_eq_nothing_iff.mp hs
    have hd : ¬ Clock.deadline (v.since?.getD now) patience ≤ now := by
      intro hd
      simp [View.verdict?, hs, hd] at h
    unfold ofView
    rw [since?_of_not_opened (by simp [hs]) now, taken_of_nothing hs now]
    simp [pass, hc, hq, hd, View.next]

/-- **Until a look has a verdict,** the task is what is known from outside. -/
theorem run_of_undecided {patience : Duration} {events : History} (h : Undecided patience events) :
    (start (.ok ()) patience).run events = ofView patience (view events) := by
  induction events using List.reverseRecOn with
  | nil => rfl
  | append_singleton events e ih =>
    obtain ⟨now, stimulus⟩ := e
    rw [run_append_singleton, view_append_singleton]
    cases stimulus with
    | arrive item =>
      rw [ih ((undecided_append_other (by simp)).mp h)]
      unfold ofView
      rw [since?_arrive, taken_arrive]
      cases (view events).since? <;> simp [step, arrive, holdsChannel, View.next]
    | close =>
      rw [ih ((undecided_append_other (by simp)).mp h)]
      rfl
    | look =>
      obtain ⟨hu, hv⟩ := undecided_append_look.mp h
      rw [ih hu]
      exact look_of_no_verdict hv

/-! ## The end -/

theorem outcome?_ofView (patience : Duration) (v : View) : (ofView patience v).outcome? = none := by
  unfold ofView outcome?
  cases v.since? <;> rfl

theorem outcome?_step_other (s : Subscription) (now : Instant) {stimulus : Stimulus} (hs : stimulus ≠ .look) :
    (s.step now stimulus).outcome? = s.outcome? := by
  cases stimulus with
  | arrive item =>
    show (s.arrive item).outcome? = s.outcome?
    unfold arrive
    split <;> rfl
  | close => rfl
  | look => exact absurd rfl hs

theorem ready_step_other (s : Subscription) (now : Instant) {stimulus : Stimulus} (hs : stimulus ≠ .look) :
    (s.step now stimulus).ready = s.ready := by
  cases stimulus with
  | arrive item =>
    show (s.arrive item).ready = s.ready
    unfold arrive
    split <;> rfl
  | close => rfl
  | look => exact absurd rfl hs

theorem ready_pass {s : Subscription} (h : s.ready = true) (now deadline : Instant) :
    (s.pass now deadline).ready = true := by
  unfold pass
  split
  · exact h
  · split
    · split
      · exact h
      · rfl
    · split
      · exact h
      · exact h

/-- Readiness is never taken back. -/
theorem ready_step {s : Subscription} (h : s.ready = true) (now : Instant) (stimulus : Stimulus) :
    (s.step now stimulus).ready = true := by
  by_cases hlook : stimulus = .look
  · subst hlook
    show (s.look now).ready = true
    unfold look
    split
    · exact h
    · exact ready_pass h _ _
    · exact ready_pass h _ _
    · exact h
  · rw [ready_step_other s now hlook, h]

/-- **The first verdict of a history is the outcome.** -/
theorem outcome?_run_start {patience : Duration} {events : History} {o : Outcome} :
    ((start (.ok ()) patience).run events).outcome? = some o ↔ Decides patience events o := by
  induction events using List.reverseRecOn generalizing o with
  | nil => simp [run, start, outcome?, Decides]
  | append_singleton events e ih =>
    obtain ⟨now, stimulus⟩ := e
    rw [run_append_singleton]
    by_cases hs : stimulus = .look
    · subst hs
      rw [decides_append_look, ← ih]
      rcases undecided_or_decides patience events with hu | ⟨o', hd⟩
      · show ((Subscription.run _ events).look now).outcome? = some o ↔ _
        rw [run_of_undecided hu, outcome?_ofView]
        cases hv : verdict? patience events now with
        | none => simp [look_of_no_verdict hv, outcome?_ofView]
        | some o' => simp [look_of_verdict hv, outcome?, hu]
      · have ho := ih.mpr hd
        have hu : ¬ Undecided patience events := by
          intro hu
          rw [run_of_undecided hu, outcome?_ofView] at ho
          cases ho
        show ((Subscription.run _ events).look now).outcome? = some o ↔ _
        rw [look_of_outcome? ho]
        simp [hu]
    · rw [outcome?_step_other _ _ hs, decides_append_other hs, ih]

theorem outcome?_run_start_eq_none {patience : Duration} {events : History} :
    ((start (.ok ()) patience).run events).outcome? = none ↔ Undecided patience events := by
  constructor
  · intro h
    rcases undecided_or_decides patience events with hu | ⟨o, hd⟩
    · exact hu
    · rw [outcome?_run_start.mpr hd] at h
      cases h
  · intro hu
    rw [run_of_undecided hu, outcome?_ofView]

/-- The task waits for the channel, and its deadline has not come. -/
def Idle (s : Subscription) (now : Instant) : Prop :=
  ∃ deadline, s.stage = .waiting deadline ∧ now < deadline ∧ s.inbox = [] ∧ s.closing = false

theorem look_of_idle {s : Subscription} {now : Instant} (h : s.Idle now) : s.look now = s := by
  obtain ⟨deadline, hs, hd, hi, hc⟩ := h
  obtain ⟨patience, stage, inbox, ready, closing⟩ := s
  simp only at hs hi hc
  subst hs hi hc
  simp [look, pass, Nat.not_le.mpr hd]

theorem looks_of_idle {s : Subscription} {now : Instant} (h : s.Idle now) (passes : Nat) :
    looks now passes s = s := by
  induction passes with
  | zero => rfl
  | succ passes ih => rw [looks, look_of_idle h, ih]

theorem looks_of_outcome? {s : Subscription} {o : Outcome} (h : s.outcome? = some o) (now : Instant)
    (passes : Nat) : looks now passes s = s := by
  induction passes with
  | zero => rfl
  | succ passes ih => rw [looks, look_of_outcome? h, ih]

/-- A pass ends the task, takes an item, or finds nothing to do. -/
theorem pass_cases (s : Subscription) (now deadline : Instant) :
    (∃ o, (s.pass now deadline).outcome? = some o) ∨
      (∃ item, s.inbox = item :: (s.pass now deadline).inbox) ∨ (s.pass now deadline).Idle now := by
  unfold pass
  split
  · exact .inl ⟨.cancelled, rfl⟩
  · next hc =>
    split
    · next item rest hi =>
      split
      · next o _ => exact .inl ⟨o, rfl⟩
      · exact .inr (.inl ⟨item, hi⟩)
    · next hi =>
      split
      · exact .inl ⟨.timedOut, rfl⟩
      · next hd => exact .inr (.inr ⟨deadline, rfl, Nat.lt_of_not_le hd, hi, by simpa using hc⟩)

theorem look_cases (s : Subscription) (now : Instant) :
    (∃ o, (s.look now).outcome? = some o) ∨ (∃ item, s.inbox = item :: (s.look now).inbox) ∨
      (s.look now).Idle now := by
  unfold look
  split
  · next error _ => exact .inl ⟨.unavailable error, rfl⟩
  · exact pass_cases ..
  · exact pass_cases ..
  · next o hs => exact .inl ⟨o, by unfold outcome?; rw [hs]⟩

theorem looks_cases (now : Instant) (passes : Nat) (s : Subscription) (h : s.inbox.length < passes) :
    (∃ o, (looks now passes s).outcome? = some o) ∨ (looks now passes s).Idle now := by
  induction passes generalizing s with
  | zero => omega
  | succ passes ih =>
    rw [looks]
    rcases look_cases s now with ⟨o, ho⟩ | ⟨item, hi⟩ | hidle
    · rw [looks_of_outcome? ho]
      exact .inl ⟨o, ho⟩
    · apply ih
      rw [hi, List.length_cons] at h
      omega
    · rw [looks_of_idle hidle]
      exact .inr hidle

/-- **A task that is woken** ends, or is left with nothing to do before its deadline. -/
theorem wake_cases (s : Subscription) (now : Instant) :
    (∃ o, (s.wake now).outcome? = some o) ∨ (s.wake now).Idle now :=
  looks_cases now _ s (by omega)

/-- The deadline ends the wait of an idle task. -/
theorem wake_of_idle {s : Subscription} {now later : Instant} (h : s.Idle now)
    (hd : ∀ deadline, s.deadline? = some deadline → deadline ≤ later) :
    (s.wake later).outcome? = some .timedOut := by
  obtain ⟨deadline, hs, -, hi, hc⟩ := h
  have hle : deadline ≤ later := hd deadline (by simp [deadline?, hs])
  have hl : s.look later = { s with stage := .ended .timedOut } := by
    simp [look, pass, hs, hi, hc, hle]
  unfold wake
  rw [looks, hl, looks_of_outcome? rfl]
  rfl

/-- **The deadline ends every wait:** a task that is woken, and once more when its deadline has
come, has ended. -/
theorem exists_outcome?_wake {s : Subscription} {now later : Instant}
    (hd : ∀ deadline, (s.wake now).deadline? = some deadline → deadline ≤ later) :
    ∃ o, ((s.wake now).wake later).outcome? = some o := by
  rcases wake_cases s now with ⟨o, ho⟩ | hidle
  · refine ⟨o, ?_⟩
    unfold wake at ho ⊢
    rw [looks_of_outcome? ho, ho]
  · exact ⟨.timedOut, wake_of_idle hidle hd⟩

/-! ## Behind the verdict -/

theorem run_start_append (channel : Except ChannelError Unit) (patience : Duration) (events more : History) :
    ((start channel patience).run events).run more = (start channel patience).run (events ++ more) :=
  (run_append _ events more).symm

end ProofRelay.Subscription
