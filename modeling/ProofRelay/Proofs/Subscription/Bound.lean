import ProofRelay.Proofs.Clock
import ProofRelay.Proofs.Subscription.ByClock

/-!
How long a subscription waits.  The clock of a task that is served in time moves on only while the
task has nothing to do (`Served`).  Then a task that has not ended waits no longer than a full wait
from the last moment at which its channel said that it is open, or from the beginning if the channel
said nothing (`WaitsFor`).  Each report moves the deadline, so the bound from the beginning grows
with the number of reports, and a channel that reports again and again holds the task for as long as
it likes (`reportsEvery`).

    s.WaitsFor began now last count → s.outcome? = none → now ≤ last + s.patience     (WaitsFor.now_le)
-/

namespace ProofRelay.Subscription

/-- The moments at which the channel says that it is open. -/
def reports (events : History) : List Instant :=
  events.filterMap fun
    | (t, .arrive .opened) => some t
    | _ => none

/-- The moment of the last report, or of the beginning if there is none. -/
def lastReport (began : Instant) (events : History) : Instant := (reports events).getLast?.getD began

/-- The moment of the first report, or of the beginning if there is none. -/
def firstReport (began : Instant) (events : History) : Instant := (reports events).head?.getD began

/-- The task is served in time: the clock moves on only while it rests. -/
def Served (s : Subscription) (began : Instant) (events : History) : Prop :=
  Clock.MovesAtRest Rests step s began events

theorem lastReport_append_opened (began t : Instant) (events : History) :
    lastReport began (events ++ [(t, .arrive .opened)]) = t := by
  simp [lastReport, reports, List.filterMap_append]

theorem reports_append_other {stimulus : Stimulus} (h : stimulus ≠ .arrive .opened) (t : Instant)
    (events : History) : reports (events ++ [(t, stimulus)]) = reports events := by
  have hnone : reports [(t, stimulus)] = [] := by
    cases stimulus with
    | arrive item => cases item <;> first | rfl | exact absurd rfl h
    | close => rfl
    | look => rfl
  simpa [reports, List.filterMap_append] using hnone

theorem firstReport_of_one {began : Instant} {events : History} (h : (reports events).length ≤ 1) :
    firstReport began events = lastReport began events := by
  unfold firstReport lastReport
  cases hr : reports events with
  | nil => rfl
  | cons t later =>
    rw [hr, List.length_cons] at h
    obtain rfl : later = [] := List.length_eq_zero_iff.mp (Nat.le_zero.mp (Nat.le_of_succ_le_succ h))
    rfl

/-! ## What a task waits for -/

/-- The task waits for a channel that has last said that it is open at `last`, and `count` times in
all.  An item in the inbox that says so has come just now. -/
structure WaitsFor (s : Subscription) (began now last : Instant) (count : Nat) : Prop where
  began_le : began ≤ last
  last_le : last ≤ now
  last_le_count : s.outcome? = none → last ≤ began + count * s.patience
  opened_mem : s.outcome? = none → .opened ∈ s.inbox → last = now
  stage : s.outcome? = none →
    (∃ deadline, s.stage = .waiting deadline ∧ now ≤ deadline ∧ deadline ≤ last + s.patience) ∨
      (∃ channel, s.stage = .unstarted channel) ∧ now = began

theorem patience_pass (s : Subscription) (now deadline : Instant) :
    (s.pass now deadline).patience = s.patience := by
  unfold pass
  split
  · rfl
  · split
    · split <;> rfl
    · split <;> rfl

theorem patience_step (s : Subscription) (now : Instant) (stimulus : Stimulus) :
    (s.step now stimulus).patience = s.patience := by
  cases stimulus with
  | arrive item =>
    show (s.arrive item).patience = s.patience
    unfold arrive
    split <;> rfl
  | close => rfl
  | look =>
    show (s.look now).patience = s.patience
    unfold look
    split
    · rfl
    · exact patience_pass ..
    · exact patience_pass ..
    · rfl

/-- The moment of the last report after one more thing has happened. -/
def Stimulus.reportAt (stimulus : Stimulus) (now last : Instant) : Instant :=
  if stimulus = .arrive .opened then now else last

/-- The number of reports after one more thing has happened. -/
def Stimulus.countFrom (stimulus : Stimulus) (count : Nat) : Nat :=
  if stimulus = .arrive .opened then count + 1 else count

namespace WaitsFor

variable {s : Subscription} {began now last : Instant} {count : Nat}

/-- A task that has not ended waits no longer than a full wait from the last report. -/
theorem now_le (h : s.WaitsFor began now last count) (ho : s.outcome? = none) :
    now ≤ last + s.patience := by
  rcases h.stage ho with ⟨deadline, -, hnow, hd⟩ | ⟨-, rfl⟩
  · exact Nat.le_trans hnow hd
  · exact Nat.le_trans h.began_le (Nat.le_add_right ..)

/-- It waits no longer than a full wait from the beginning, and one more for each report. -/
theorem now_le_count (h : s.WaitsFor began now last count) (ho : s.outcome? = none) :
    now ≤ began + (count + 1) * s.patience := by
  calc now ≤ last + s.patience := h.now_le ho
    _ ≤ began + count * s.patience + s.patience := Nat.add_le_add_right (h.last_le_count ho) _
    _ = began + (count + 1) * s.patience := by rw [Nat.add_mul, Nat.one_mul, Nat.add_assoc]

/-- The clock moves on while the task rests. -/
theorem tick (h : s.WaitsFor began now last count) {t : Instant} (ht : t = now ∨ now < t ∧ s.Rests t) :
    s.WaitsFor began t last count := by
  rcases ht with rfl | ⟨hlt, hrests⟩
  · exact h
  · refine ⟨h.began_le, Nat.le_trans h.last_le (Nat.le_of_lt hlt), h.last_le_count, ?_, ?_⟩
    · intro ho hmem
      rcases hrests with ⟨o, ho'⟩ | ⟨-, -, -, hi, -⟩
      · rw [ho] at ho'
        cases ho'
      · rw [hi] at hmem
        cases hmem
    · intro ho
      rcases hrests with ⟨o, ho'⟩ | ⟨deadline, hs, hle, -, -⟩
      · rw [ho] at ho'
        cases ho'
      · rcases h.stage ho with ⟨deadline', hs', -, hd⟩ | ⟨⟨channel, hs'⟩, -⟩
        · rw [hs, Stage.waiting.injEq] at hs'
          subst hs'
          exact .inl ⟨deadline, hs, hle, hd⟩
        · rw [hs] at hs'
          cases hs'

theorem arrive (h : s.WaitsFor began now last count) (item : Item) :
    (s.arrive item).WaitsFor began now ((Stimulus.arrive item).reportAt now last)
      ((Stimulus.arrive item).countFrom count) := by
  have houtcome : (s.step now (.arrive item)).outcome? = s.outcome? := outcome?_step_other s now (by simp)
  replace houtcome : (s.arrive item).outcome? = s.outcome? := houtcome
  have hpatience : (s.arrive item).patience = s.patience := patience_step s now (.arrive item)
  have hstage : (s.arrive item).stage = s.stage := by
    unfold Subscription.arrive
    split <;> rfl
  have hinbox : ∀ x, x ∈ (s.arrive item).inbox → x ∈ s.inbox ∨ x = item := by
    intro x hx
    unfold Subscription.arrive at hx
    split at hx
    · simpa using hx
    · exact .inl hx
  by_cases hitem : item = .opened
  · -- the report is the last one, and it comes before the deadline in force
    subst hitem
    have hlast : (Stimulus.arrive .opened).reportAt now last = now := if_pos rfl
    have hcount : (Stimulus.arrive .opened).countFrom count = count + 1 := if_pos rfl
    rw [hlast, hcount]
    refine ⟨Nat.le_trans h.began_le h.last_le, Nat.le_refl _, ?_, fun _ _ => rfl, ?_⟩
    · rw [houtcome, hpatience]
      exact h.now_le_count
    · rw [houtcome, hstage, hpatience]
      intro ho
      rcases h.stage ho with ⟨deadline, hs, hnow, hd⟩ | hunstarted
      · exact .inl ⟨deadline, hs, hnow, Nat.le_trans hd (Nat.add_le_add_right h.last_le _)⟩
      · exact .inr hunstarted
  · have hne : Stimulus.arrive item ≠ .arrive .opened := by simpa using hitem
    rw [Stimulus.reportAt, Stimulus.countFrom, if_neg hne, if_neg hne]
    refine ⟨h.began_le, h.last_le, ?_, ?_, ?_⟩
    · rw [houtcome, hpatience]
      exact h.last_le_count
    · rw [houtcome]
      intro ho hmem
      rcases hinbox _ hmem with hmem | heq
      · exact h.opened_mem ho hmem
      · exact absurd heq.symm hitem
    · rw [houtcome, hstage, hpatience]
      exact h.stage

/-- A pass ends the task, or takes a report, from which a full wait counts, or goes on waiting. -/
theorem pass (h : s.WaitsFor began now last count) (ho : s.outcome? = none)
    (hrep : now + s.patience ≤ Clock.latest) {deadline : Instant}
    (hd : now ≤ deadline ∧ deadline ≤ last + s.patience) :
    (s.pass now deadline).WaitsFor began now last count := by
  have hnow : (s.pass now deadline).outcome? = none →
      (.opened ∈ (s.pass now deadline).inbox → .opened ∈ s.inbox) ∧
        ∃ deadline', (s.pass now deadline).stage = .waiting deadline' ∧ now ≤ deadline' ∧
          deadline' ≤ last + s.patience := by
    unfold Subscription.pass
    split
    · intro hnone
      cases hnone
    · split
      · next item rest hi =>
        split
        · intro hnone
          cases hnone
        · next hitem =>
          intro _
          rw [outcome?_eq_ending?] at hitem
          obtain rfl := ending?_eq_none_iff.mp hitem
          have hlast : last = now := h.opened_mem ho (by simp [hi])
          refine ⟨fun hmem => by rw [hi]; exact List.mem_cons_of_mem _ hmem, _, rfl, ?_, ?_⟩
          · exact Clock.le_deadline ..
          · exact Nat.le_of_eq (by rw [Clock.deadline_of_le hrep, hlast])
      · next hi =>
        split
        · intro hnone
          cases hnone
        · exact fun _ => ⟨id, deadline, rfl, hd⟩
  refine ⟨h.began_le, h.last_le, ?_, ?_, ?_⟩
  · rw [patience_pass]
    exact fun _ => h.last_le_count ho
  · intro hnone hmem
    exact h.opened_mem ho ((hnow hnone).1 hmem)
  · rw [patience_pass]
    exact fun hnone => .inl (hnow hnone).2

theorem look (h : s.WaitsFor began now last count) (hrep : now + s.patience ≤ Clock.latest) :
    (s.look now).WaitsFor began now last count := by
  cases ho : s.outcome? with
  | some o =>
    rw [look_of_outcome? ho]
    exact h
  | none =>
    rcases h.stage ho with ⟨deadline, hs, hd⟩ | ⟨⟨channel, hs⟩, hbegan⟩
    · have hlook : s.look now = s.pass now deadline := by simp [Subscription.look, hs]
      rw [hlook]
      exact h.pass ho hrep hd
    · cases channel with
      | error error =>
        have hend : (s.look now).outcome? = some (.unavailable error) := by
          simp [Subscription.look, hs, outcome?]
        exact ⟨h.began_le, h.last_le, by simp [hend], by simp [hend], by simp [hend]⟩
      | ok =>
        have hlook : s.look now = s.pass now (Clock.deadline now s.patience) := by
          simp [Subscription.look, hs]
        rw [hlook]
        refine h.pass ho hrep ⟨Clock.le_deadline .., ?_⟩
        rw [Clock.deadline_of_le hrep, hbegan]
        exact Nat.add_le_add_right h.began_le _

/-- **One thing more happens** to a task that is served in time. -/
theorem step (h : s.WaitsFor began now last count) (hrep : now + s.patience ≤ Clock.latest)
    (stimulus : Stimulus) :
    (s.step now stimulus).WaitsFor began now (stimulus.reportAt now last) (stimulus.countFrom count) := by
  cases stimulus with
  | arrive item => exact h.arrive item
  | close => exact ⟨h.began_le, h.last_le, h.last_le_count, h.opened_mem, h.stage⟩
  | look => exact h.look hrep

theorem start (channel : Except ChannelError Unit) (patience : Duration) (began : Instant) :
    (Subscription.start channel patience).WaitsFor began began began 0 where
  began_le := Nat.le_refl _
  last_le := Nat.le_refl _
  last_le_count _ := Nat.le_add_right ..
  opened_mem _ hmem := by simp [Subscription.start] at hmem
  stage _ := .inr ⟨⟨channel, rfl⟩, rfl⟩

/-- A task that is woken ends, or waits up to a moment that is no later than before. -/
theorem wake (h : s.WaitsFor began now last count) (hrep : now + s.patience ≤ Clock.latest) :
    (s.wake now).WaitsFor began now last count ∧ (s.wake now).patience = s.patience := by
  have hlooks : ∀ (passes : Nat) (s : Subscription), s.WaitsFor began now last count →
      now + s.patience ≤ Clock.latest →
      (looks now passes s).WaitsFor began now last count ∧ (looks now passes s).patience = s.patience := by
    intro passes
    induction passes with
    | zero => exact fun s h _ => ⟨h, rfl⟩
    | succ passes ih =>
      intro s h hrep
      have hpatience : (s.look now).patience = s.patience := patience_step s now .look
      have hnext := ih (s.look now) (h.look hrep) (by rw [hpatience]; exact hrep)
      exact ⟨hnext.1, hnext.2.trans hpatience⟩
  exact hlooks _ s h hrep

/-- Woken now, and once more when its deadline has come, the task has ended. -/
theorem exists_outcome? (h : s.WaitsFor began now last count) (ho : s.outcome? = none)
    (hrep : now + s.patience ≤ Clock.latest) :
    ∃ t, now ≤ t ∧ t ≤ last + s.patience ∧ ∃ o, ((s.wake now).wake t).outcome? = some o := by
  obtain ⟨hwoken, hpatience⟩ := h.wake hrep
  rcases wake_cases s now with ⟨o, hend⟩ | hidle
  · refine ⟨now, Nat.le_refl _, h.now_le ho, o, ?_⟩
    rw [Subscription.wake, looks_of_outcome? hend, hend]
  · obtain ⟨deadline, hs, hlt, -, -⟩ := hidle
    have hnone : (s.wake now).outcome? = none := by simp [outcome?, hs]
    rcases hwoken.stage hnone with ⟨deadline', hs', -, hle⟩ | ⟨⟨channel, hs'⟩, -⟩
    · rw [hs, Stage.waiting.injEq] at hs'
      subst hs'
      rw [hpatience] at hle
      refine ⟨deadline, Nat.le_of_lt hlt, hle, exists_outcome?_wake fun d hd => ?_⟩
      rw [deadline?, hs, Option.some.injEq] at hd
      exact Nat.le_of_eq hd.symm
    · rw [hs] at hs'
      cases hs'

end WaitsFor

/-! ## Runs -/

theorem patience_run (s : Subscription) (events : History) : (s.run events).patience = s.patience := by
  induction events using List.reverseRecOn with
  | nil => rfl
  | append_singleton events e ih => rw [run_append_singleton, patience_step, ih]

theorem lastReport_append_singleton (began t : Instant) (events : History) (stimulus : Stimulus) :
    lastReport began (events ++ [(t, stimulus)]) = stimulus.reportAt t (lastReport began events) := by
  by_cases h : stimulus = .arrive .opened
  · rw [Stimulus.reportAt, if_pos h, h, lastReport_append_opened]
  · rw [Stimulus.reportAt, if_neg h, lastReport, reports_append_other h, ← lastReport]

theorem length_reports_append_singleton (t : Instant) (events : History) (stimulus : Stimulus) :
    (reports (events ++ [(t, stimulus)])).length = stimulus.countFrom (reports events).length := by
  by_cases h : stimulus = .arrive .opened
  · rw [Stimulus.countFrom, if_pos h, h]
    simp [reports, List.filterMap_append]
  · rw [Stimulus.countFrom, if_neg h, reports_append_other h]

/-- **What a task that is served in time waits for** after a history. -/
theorem waitsFor_of_served {channel : Except ChannelError Unit} {patience : Duration} {began : Instant}
    {events : History} (h : (start channel patience).Served began events)
    (hrep : Clock.after began events + patience ≤ Clock.latest) :
    ((start channel patience).run events).WaitsFor began (Clock.after began events)
      (lastReport began events) (reports events).length := by
  induction events using List.reverseRecOn with
  | nil => exact .start channel patience began
  | append_singleton events e ih =>
    obtain ⟨t, stimulus⟩ := e
    obtain ⟨hserved, hclock⟩ := Clock.movesAtRest_append_singleton.mp h
    have hle := Clock.after_le_of_movesAtRest h
    rw [Clock.after_append_singleton] at hrep hle ⊢
    rw [run_append_singleton, lastReport_append_singleton, length_reports_append_singleton]
    have hbefore := ih hserved (Nat.le_trans (Nat.add_le_add_right hle _) hrep)
    refine (hbefore.tick hclock).step ?_ stimulus
    rw [patience_run]
    exact hrep

/-! ## A channel that reports again and again -/

/-- The channel says that it is open whenever the task has waited for as long as it may, and the
task looks. -/
def reportsEvery (span : Duration) : (count : Nat) → History
  | 0 => [(0, .arrive .opened), (0, .look)]
  | count + 1 =>
    let t := (count + 1) * span
    reportsEvery span count ++ [(t, .arrive .opened), (t, .look)]

theorem after_reportsEvery (span : Duration) (count : Nat) :
    Clock.after 0 (reportsEvery span count) = count * span := by
  cases count with
  | zero => simp [reportsEvery, Clock.after]
  | succ count => simp [reportsEvery, Clock.after, List.foldl_append]

theorem firstReport_reportsEvery (span : Duration) (count : Nat) :
    firstReport 0 (reportsEvery span count) = 0 := by
  suffices h : (reports (reportsEvery span count)).head? = some 0 by rw [firstReport, h, Option.getD_some]
  induction count with
  | zero => rfl
  | succ count ih => rw [reportsEvery, reports, List.filterMap_append, List.head?_append, ← reports, ih,
      Option.some_or]

/-- Such a channel holds the task as long as it goes on. -/
theorem run_reportsEvery {span : Duration} {count : Nat} (hrep : (count + 1) * span ≤ Clock.latest) :
    (start (.ok ()) span).Served 0 (reportsEvery span count) ∧
      (start (.ok ()) span).run (reportsEvery span count) =
        { patience := span, stage := .waiting ((count + 1) * span), ready := true } := by
  have hsucc : ∀ n : Nat, n * span + span = (n + 1) * span := fun n => (Nat.succ_mul n span).symm
  induction count with
  | zero =>
    have hd : Clock.deadline 0 span = 0 + span := Clock.deadline_of_le (by simpa using hrep)
    refine ⟨by simp [reportsEvery, Served, Clock.MovesAtRest], ?_⟩
    simp [reportsEvery, run, step, start, arrive, holdsChannel, look, pass, Item.outcome?, hd]
  | succ count ih =>
    have hle : (count + 1) * span ≤ (count + 1 + 1) * span := Nat.mul_le_mul_right _ (Nat.le_succ _)
    obtain ⟨hserved, hrun⟩ := ih (Nat.le_trans hle hrep)
    have hd : Clock.deadline ((count + 1) * span) span = (count + 1) * span + span :=
      Clock.deadline_of_le (by rw [hsucc]; exact hrep)
    refine ⟨?_, ?_⟩
    · refine Clock.movesAtRest_append.mpr ⟨hserved, ?_⟩
      show Clock.MovesAtRest Rests Subscription.step ((Subscription.start _ _).run _) _ _
      rw [hrun, after_reportsEvery]
      refine ⟨ ?_, .inl rfl, trivial⟩
      rcases Nat.eq_zero_or_pos span with rfl | hpos
      · exact .inl rfl
      · refine .inr ⟨?_, .inr ⟨_, rfl, Nat.le_refl _, rfl, rfl⟩⟩
        exact Nat.mul_lt_mul_of_pos_right (Nat.lt_succ_self _) hpos
    · rw [reportsEvery, run_append, hrun]
      simp [run, step, arrive, holdsChannel, look, pass, Item.outcome?, hd, hsucc]

end ProofRelay.Subscription
