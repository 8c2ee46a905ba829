import ProofRelay.Proofs.Exchange.Advance
import ProofRelay.Proofs.Subscription.Bound

/-!
How long a proof channel holds a request.  A request waits for its channel at the gate and, when the
response is in, for the outcome of the subscription (`isHeld`).  If the clock moves on only while
both sides have nothing to do (`Served`), neither wait ends later than a full wait after the last
report that the channel is open, so one report more makes both bounds a full wait longer
(`wait_bounded_by_reports`).  The first report alone bounds nothing
(`wait_not_bounded_by_first_report`).
-/

namespace ProofRelay.Exchange

/-- Whether the request waits for its channel. -/
def isHeld (x : Exchange) : Bool :=
  match x.phase with
  | .gate _ | .joining _ => true
  | .sending | .done _ | .abandoned => false

/-- Neither side has anything to do before this moment. -/
def Rests (x : Exchange) (t : Instant) : Prop :=
  x.subscription.Rests t ∧
    match x.phase with
    | .gate deadline => x.subscription.ready = false ∧ x.subscription.outcome? = none ∧ t ≤ deadline
    | .joining _ => x.subscription.outcome? = none
    | .sending | .done _ | .abandoned => True

/-- Both sides are served in time: the clock moves on only while they rest. -/
def Served (x : Exchange) (began : Instant) (events : List (Instant × Stimulus)) : Prop :=
  Clock.MovesAtRest Rests step x began events

/-- How often the channel says that it is open. -/
def reportCount (events : List (Instant × Stimulus)) : Nat :=
  (Subscription.reports (timeline events)).length

theorem reportCount_le_append (as bs : List (Instant × Stimulus)) :
    reportCount as ≤ reportCount (as ++ bs) := by
  simp [reportCount, timeline_append, Subscription.reports, List.filterMap_append]

theorem outcome?_of_rests {x : Exchange} {t : Instant} (h : x.Rests t) (hheld : x.isHeld = true) :
    x.subscription.outcome? = none := by
  obtain ⟨-, hphase⟩ := h
  cases hp : x.phase with
  | gate deadline =>
    rw [hp] at hphase
    exact hphase.2.1
  | joining response =>
    rw [hp] at hphase
    exact hphase
  | sending | done | abandoned => simp [isHeld, hp] at hheld

/-! ## The subscription of a request that is served in time -/

/-- **One thing more happens** to an exchange. -/
theorem waitsFor_step {x : Exchange} {began now : Instant} {events : List (Instant × Stimulus)}
    (h : x.subscription.WaitsFor began now (Subscription.lastReport began (timeline events))
      (reportCount events))
    (hrep : now + x.subscription.patience ≤ Clock.latest) (stimulus : Stimulus) :
    (x.step now stimulus).subscription.patience = x.subscription.patience ∧
      (x.step now stimulus).subscription.WaitsFor began now
        (Subscription.lastReport began (timeline (events ++ [(now, stimulus)])))
        (reportCount (events ++ [(now, stimulus)])) := by
  rw [reportCount, timeline_append]
  cases hs : stimulus.toSubscription? with
  | some stimulus' =>
    have htimeline : timeline [(now, stimulus)] = [(now, stimulus')] := by simp [timeline, hs]
    rw [subscription_step_of_task x now hs, htimeline, Subscription.lastReport_append_singleton,
      Subscription.length_reports_append_singleton]
    exact ⟨Subscription.patience_step .., h.step hrep stimulus'⟩
  | none =>
    have htimeline : timeline [(now, stimulus)] = [] := by simp [timeline, hs]
    rw [htimeline, List.append_nil]
    rcases subscription_step_of_caller x now hs with hsame | hclosed
    · rw [hsame]
      exact ⟨rfl, h⟩
    · rw [hclosed]
      exact ⟨rfl, h.began_le, h.last_le, h.last_le_count, h.opened_mem, h.stage⟩

section
variable {config : Config} {r : ProxyRequest} {rid : RequestId}
  {opener : String → Except ChannelError Unit} {began : Instant} {x : Exchange}
  (hx : start config r rid opener began = .ok x)

include hx

/-- What the subscription of a request waits for, if both sides are served in time. -/
theorem waitsFor_of_served {events : List (Instant × Stimulus)} (h : x.Served began events)
    (hrep : Clock.after began events + r.policy.proofTimeout ≤ Clock.latest) :
    (x.run events).subscription.patience = r.policy.proofTimeout ∧
      (x.run events).subscription.WaitsFor began (Clock.after began events)
        (Subscription.lastReport began (timeline events)) (reportCount events) := by
  induction events using List.reverseRecOn with
  | nil =>
    obtain ⟨-, -, hsub, -⟩ := start_eq_ok hx
    show x.subscription.patience = _ ∧ x.subscription.WaitsFor ..
    rw [hsub]
    exact ⟨rfl, .start ..⟩
  | append_singleton events e ih =>
    obtain ⟨t, stimulus⟩ := e
    obtain ⟨hserved, hclock⟩ := Clock.movesAtRest_append_singleton.mp h
    have hle := Clock.after_le_of_movesAtRest h
    rw [Clock.after_append_singleton] at hrep hle ⊢
    obtain ⟨hpatience, hbefore⟩ := ih hserved (Nat.le_trans (Nat.add_le_add_right hle _) hrep)
    have hrests : t = Clock.after began events ∨
        Clock.after began events < t ∧ (x.run events).subscription.Rests t :=
      hclock.imp_right fun ⟨hlt, hrests⟩ => ⟨hlt, hrests.1⟩
    have hstep := waitsFor_step (hbefore.tick hrests) (by rw [hpatience]; exact hrep) stimulus
    rw [run_append_singleton]
    exact ⟨hstep.1.trans hpatience, hstep.2⟩

/-! ## How long the request is held -/

/-- A request that is held since a moment, and was not let go, waits no longer than a full wait from
the beginning and one more for each report, or is held since this moment only. -/
theorem after_le_of_held {earlier later : List (Instant × Stimulus)}
    (h : x.Served began (earlier ++ later))
    (hrep : Clock.after began (earlier ++ later) + r.policy.proofTimeout ≤ Clock.latest)
    (hheld : (x.run earlier).isHeld = true)
    (hsame : (x.run (earlier ++ later)).phase = (x.run earlier).phase) :
    Clock.after began (earlier ++ later) ≤ max (Clock.after began earlier)
      (began + (reportCount (earlier ++ later) + 1) * r.policy.proofTimeout) := by
  induction later using List.reverseRecOn with
  | nil =>
    rw [List.append_nil]
    exact Nat.le_max_left ..
  | append_singleton later e ih =>
    obtain ⟨t, stimulus⟩ := e
    rw [← List.append_assoc] at h hrep hsame ⊢
    obtain ⟨hserved, hclock⟩ := Clock.movesAtRest_append_singleton.mp h
    have hle := Clock.after_le_of_movesAtRest h
    have hrep' := Nat.le_trans (Nat.add_le_add_right hle _) hrep
    have hsame' : (x.run (earlier ++ later)).phase = (x.run earlier).phase := by
      rw [List.append_assoc, run_append x earlier] at hsame
      rw [run_append]
      exact phase_run_of_return hsame
    have hcount : began + (reportCount (earlier ++ later) + 1) * r.policy.proofTimeout ≤
        began + (reportCount (earlier ++ later ++ [(t, stimulus)]) + 1) * r.policy.proofTimeout :=
      Nat.add_le_add_left
        (Nat.mul_le_mul_right _ (Nat.add_le_add_right (reportCount_le_append ..) 1)) _
    rw [Clock.after_append_singleton]
    rcases hclock with rfl | ⟨hlt, hrests⟩
    · exact Nat.le_trans (ih hserved hrep' hsame')
        (Nat.max_le.mpr ⟨Nat.le_max_left .., Nat.le_trans hcount (Nat.le_max_right ..)⟩)
    · -- the clock moved on, so the task waited at this moment for what the reports up to it allow
      replace hrests : (x.run (earlier ++ later)).Rests t := hrests
      have hheld' : (x.run (earlier ++ later)).isHeld = true := by
        rw [isHeld, hsame']
        exact hheld
      obtain ⟨hpatience, hwaits⟩ := waitsFor_of_served hx hserved hrep'
      have hbound := (hwaits.tick (.inr ⟨hlt, hrests.1⟩)).now_le_count (outcome?_of_rests hrests hheld')
      rw [hpatience] at hbound
      exact Nat.le_trans (Nat.le_trans hbound hcount) (Nat.le_max_right ..)

end

/-- A caller that looks once the subscription has ended is let go. -/
theorem isHeld_resume_of_outcome? {x : Exchange} {o : Outcome} (ho : x.subscription.outcome? = some o)
    (now : Instant) : (x.resume now).isHeld = false := by
  unfold resume
  cases hp : x.phase with
  | gate deadline =>
    cases hpoll : Gate.poll x.subscription.signal deadline now with
    | some ready => simp [hpoll, isHeld]
    | none =>
      have hlive := (Gate.poll_eq_none_iff.mp hpoll).2.1
      simp [Subscription.signal, ho] at hlive
  | joining response => simp [ho, isHeld]
  | sending | done | abandoned => simp [isHeld, hp]

/-- Woken now, and once more when the deadline of the subscription has come, the request is let go. -/
theorem exists_release {x : Exchange} {began now last : Instant} {count : Nat}
    (h : x.subscription.WaitsFor began now last count)
    (hrep : now + x.subscription.patience ≤ Clock.latest) :
    ∃ t, now ≤ t ∧ t ≤ max now (began + (count + 1) * x.subscription.patience) ∧
      (((x.wake now).wake t).resume t).isHeld = false := by
  cases ho : x.subscription.outcome? with
  | some o =>
    refine ⟨now, Nat.le_refl _, Nat.le_max_left .., isHeld_resume_of_outcome? (o := o) ?_ now⟩
    show ((x.subscription.wake now).wake now).outcome? = some o
    rw [Subscription.wake, Subscription.wake, Subscription.looks_of_outcome? ho,
      Subscription.looks_of_outcome? ho, ho]
  | none =>
    obtain ⟨t, hnow, hle, o, hend⟩ := h.exists_outcome? ho hrep
    refine ⟨t, hnow, Nat.le_trans ?_ (Nat.le_max_right ..), isHeld_resume_of_outcome? hend t⟩
    calc t ≤ last + x.subscription.patience := hle
      _ ≤ began + count * x.subscription.patience + x.subscription.patience :=
        Nat.add_le_add_right (h.last_le_count ho) _
      _ = began + (count + 1) * x.subscription.patience := by
        rw [Nat.add_mul, Nat.one_mul, Nat.add_assoc]

/-- **How long a proof channel may hold a request** that is served in time, if its deadlines are on
the clock:

* a subscription without an outcome waits no longer than a full wait after the last report that the
  channel is open, or after the beginning if there is none; woken now, and once more by then, it ends;
* from the beginning that is one full wait, and one more for each report; with one report at most it
  is a full wait after the first one;
* a request that is held, at the gate or with its response in, is held no longer than that, or than
  since this moment; woken now, and once more by then, it is let go;
* a channel that reports often enough holds its subscription for any number of full waits after the
  first report. -/
theorem wait_bounded_by_reports {config : Config} {r : ProxyRequest} {rid : RequestId}
    {opener : String → Except ChannelError Unit} {began : Instant} {x : Exchange}
    (hx : start config r rid opener began = .ok x) :
    let patience := r.policy.proofTimeout
    let s := subscribed config r rid opener
    (∀ events, s.Served began events → Clock.after began events + patience ≤ Clock.latest →
      (s.run events).outcome? = none →
      let now := Clock.after began events
      let count := (Subscription.reports events).length
      now ≤ Subscription.lastReport began events + patience ∧
      now ≤ began + (count + 1) * patience ∧
      (count ≤ 1 → now ≤ Subscription.firstReport began events + patience) ∧
      ∃ t, now ≤ t ∧ t ≤ Subscription.lastReport began events + patience ∧
        ∃ o, (((s.run events).wake now).wake t).outcome? = some o) ∧
    (∀ earlier later, x.Served began (earlier ++ later) →
      Clock.after began (earlier ++ later) + patience ≤ Clock.latest →
      (x.run earlier).isHeld = true → (x.run (earlier ++ later)).phase = (x.run earlier).phase →
      let now := Clock.after began (earlier ++ later)
      let bound := max (Clock.after began earlier)
        (began + (reportCount (earlier ++ later) + 1) * patience)
      now ≤ bound ∧ ∃ t, now ≤ t ∧ t ≤ bound ∧
        ((((x.run (earlier ++ later)).wake now).wake t).resume t).isHeld = false) ∧
    ∀ count : Nat, (count + 1) * patience ≤ Clock.latest → ∃ events,
      (Subscription.start (.ok ()) patience).Served 0 events ∧
      Subscription.firstReport 0 events = 0 ∧ Clock.after 0 events = count * patience ∧
      ((Subscription.start (.ok ()) patience).run events).outcome? = none := by
  intro patience s
  refine ⟨?_, ?_, ?_⟩
  · intro events hserved hrep ho now count
    have hwaits : (s.run events).WaitsFor began now (Subscription.lastReport began events) count :=
      Subscription.waitsFor_of_served hserved hrep
    have hpatience : (s.run events).patience = patience := Subscription.patience_run s events
    have hnow := hwaits.now_le ho
    have hcount := hwaits.now_le_count ho
    have hend := hwaits.exists_outcome? ho (by rw [hpatience]; exact hrep)
    rw [hpatience] at hnow hcount hend
    refine ⟨hnow, hcount, fun hone => ?_, hend⟩
    rw [Subscription.firstReport_of_one hone]
    exact hnow
  · intro earlier later hserved hrep hheld hsame now bound
    have hnow := after_le_of_held hx hserved hrep hheld hsame
    obtain ⟨hpatience, hwaits⟩ := waitsFor_of_served hx hserved hrep
    obtain ⟨t, hle, ht, hrelease⟩ := exists_release hwaits (by rw [hpatience]; exact hrep)
    rw [hpatience] at ht
    exact ⟨hnow, t, hle, Nat.le_trans ht (Nat.max_le.mpr ⟨hnow, Nat.le_max_right ..⟩), hrelease⟩
  · intro count hrep
    obtain ⟨hserved, hrun⟩ := Subscription.run_reportsEvery hrep
    refine ⟨Subscription.reportsEvery patience count, hserved, Subscription.firstReport_reportsEvery ..,
      Subscription.after_reportsEvery .., ?_⟩
    rw [hrun]
    rfl

/-! ## A channel that reports again -/

/-- The channel is open, the request is sent, and the response is in at 10. -/
def answered : List (Instant × Stimulus) :=
  [(0, .arrive .opened), (0, .look), (0, .resume), (10, .reply (.ok ⟨.ok, .empty, []⟩))]

/-- The channel says twice more that it is open, each time before a full wait of 100 is over. -/
def reopened : List (Instant × Stimulus) :=
  [(80, .arrive .opened), (80, .look), (160, .arrive .opened), (160, .look), (240, .look)]

theorem exists_start_reopened :
    ∃ x, start plainConfig (pageRequest ⟨false, 100, 50⟩) plainId (fun _ => .ok ()) 0 = .ok x ∧
      x.Served 0 (answered ++ reopened) ∧ (x.run answered).phase = .joining ⟨.ok, .empty, []⟩ ∧
      (x.run (answered ++ reopened)).phase = .joining ⟨.ok, .empty, []⟩ := by
  obtain ⟨x, hx⟩ := exists_start_page ⟨false, 100, 50⟩ fun _ => .ok ()
  refine ⟨x, hx, ?_⟩
  obtain ⟨hpolicy, hproves, hsub, hphase⟩ := start_eq_ok hx
  obtain ⟨policy, proves, request, subscription, phase, effects⟩ := x
  subst hpolicy hproves hsub hphase
  have hwait : ∀ (s : Subscription) (t deadline : Nat), s.stage = .waiting deadline → t ≤ deadline →
      s.inbox = [] → s.closing = false → s.Rests t :=
    fun _ _ _ hs ht hi hc => .inr ⟨_, hs, ht, hi, hc⟩
  refine ⟨⟨.inl rfl, .inl rfl, .inl rfl, .inr ⟨by decide, hwait _ 10 100 rfl (by decide) rfl rfl, trivial⟩,
    .inr ⟨by decide, hwait _ 80 100 rfl (by decide) rfl rfl, rfl⟩, .inl rfl,
    .inr ⟨by decide, hwait _ 160 180 rfl (by decide) rfl rfl, rfl⟩, .inl rfl,
    .inr ⟨by decide, hwait _ 240 260 rfl (by decide) rfl rfl, rfl⟩, trivial⟩, rfl, rfl⟩

/-- Here the request is held at 240, and by 400 at the latest it is let go. -/
theorem wait_bounded_by_reports_of_reopened :
    ∃ x, start plainConfig (pageRequest ⟨false, 100, 50⟩) plainId (fun _ => .ok ()) 0 = .ok x ∧
      ∃ t ≤ 400, ((((x.run (answered ++ reopened)).wake 240).wake t).resume t).isHeld = false := by
  obtain ⟨x, hx, hserved, hanswered, hreopened⟩ := exists_start_reopened
  refine ⟨x, hx, ?_⟩
  have hrep : Clock.after 0 (answered ++ reopened) + 100 ≤ Clock.latest := by decide
  have hheld : (x.run answered).isHeld = true := by rw [isHeld, hanswered]
  obtain ⟨-, t, -, hle, hrelease⟩ := (wait_bounded_by_reports hx).2.1 answered reopened hserved hrep hheld
    (hreopened.trans hanswered.symm)
  exact ⟨t, hle, hrelease⟩

/-- The first report bounds neither wait.  A subscription with a full wait of 100 that was told at 0 and
at 80 that the channel is open has no outcome at 160, and takes the proof that comes then; a request
whose channel was opened at 0 and whose response was in at 10 is still held at 240. -/
theorem wait_not_bounded_by_first_report :
    let s : Subscription := .start (.ok ()) 100
    let events : Subscription.History :=
      [(0, .arrive .opened), (0, .look), (80, .arrive .opened), (80, .look), (160, .look)]
    (s.Served 0 events ∧ (s.run events).outcome? = none ∧
      Subscription.firstReport 0 events + 100 < Clock.after 0 events ∧
      ((s.run events).run [(160, .arrive (.message "KEY|PROOF")), (160, .look)]).outcome? =
        some (.delivered ⟨"KEY|PROOF"⟩)) ∧
    ∃ x, start plainConfig (pageRequest ⟨false, 100, 50⟩) plainId (fun _ => .ok ()) 0 = .ok x ∧
      x.Served 0 (answered ++ reopened) ∧ (x.run (answered ++ reopened)).isHeld = true ∧
      max (Clock.after 0 answered) (0 + 2 * 100) < Clock.after 0 (answered ++ reopened) := by
  intro s events
  have hserved : s.Served 0 events :=
    ⟨.inl rfl, .inl rfl, .inr ⟨by decide, .inr ⟨100, rfl, by decide, rfl, rfl⟩⟩, .inl rfl,
      .inr ⟨by decide, .inr ⟨180, rfl, by decide, rfl, rfl⟩⟩, trivial⟩
  refine ⟨⟨hserved, rfl, by decide, rfl⟩, ?_⟩
  obtain ⟨x, hx, hx', -, hreopened⟩ := exists_start_reopened
  exact ⟨x, hx, hx', by rw [isHeld, hreopened], by decide⟩

end ProofRelay.Exchange
