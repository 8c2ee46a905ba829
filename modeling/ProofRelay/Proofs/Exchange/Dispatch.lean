import ProofRelay.Proofs.Exchange.Bound
import ProofRelay.Proofs.Exchange.Effects
import ProofRelay.Proofs.Gate

/-!
When a request is sent.  The gate of an exchange waits for what its subscription tells (`HasTold`), that it is
ready or has ended, and no longer than until the deadline.  Where both sides are served in time, the clock does
not pass the first of these moments while the request is at the gate (`le_releases`), so a caller that resumes
sends it then and at no other moment:

    ((x.run events).resume t).phase = .sending ↔ IsLeast (x.releases began deadline events) t      (sends_iff)
-/

namespace ProofRelay.Exchange

/-! ## What the gate waits for -/

/-- Whether the subscription has told that it is ready, or has ended. -/
def HasTold (x : Exchange) : Prop :=
  x.subscription.ready = true ∨ x.subscription.outcome?.isSome = true

theorem released_iff {x : Exchange} {deadline t : Instant} :
    Gate.Released x.subscription.signal deadline t ↔ x.HasTold ∨ deadline ≤ t := by
  rw [Gate.Released, HasTold, ← or_assoc, Subscription.signal]
  simp [Option.isSome_iff_ne_none]

theorem hasTold_step {x : Exchange} (h : x.HasTold) (now : Instant) (stimulus : Stimulus) :
    (x.step now stimulus).HasTold := by
  unfold HasTold at h ⊢
  cases hs : stimulus.toSubscription? with
  | some stimulus' =>
    rw [subscription_step_of_task x now hs]
    refine h.imp (fun hr => Subscription.ready_step hr now stimulus') fun ho => ?_
    obtain ⟨o, ho⟩ := Option.isSome_iff_exists.mp ho
    have hkept := Subscription.outcome?_run_of_outcome? ho [(now, stimulus')]
    exact Option.isSome_iff_exists.mpr ⟨o, hkept⟩
  | none =>
    rcases subscription_step_of_caller x now hs with hsame | hclosed
    · rw [hsame]
      exact h
    · rw [hclosed]
      exact h

theorem hasTold_run {x : Exchange} (h : x.HasTold) (events : List (Instant × Stimulus)) :
    (x.run events).HasTold := by
  induction events using List.reverseRecOn with
  | nil => exact h
  | append_singleton events e ih =>
    rw [run_append_singleton]
    exact hasTold_step ih e.1 e.2

/-- The moments that release a request from the gate, as far as a course shows them: the deadline, and
those at which the subscription has told. -/
def releases (x : Exchange) (began deadline : Instant) (events : List (Instant × Stimulus)) :
    Set Instant :=
  {t | t = deadline ∨
    ∃ earlier, earlier <+: events ∧ (x.run earlier).HasTold ∧ t = Clock.after began earlier}

/-- While the request is at the gate, its exchange rests until the deadline if nothing was told. -/
theorem of_rests_of_gate {x : Exchange} {deadline t : Instant} (h : x.Rests t)
    (hgate : x.phase = .gate deadline) : ¬x.HasTold ∧ t ≤ deadline := by
  obtain ⟨-, hphase⟩ := h
  rw [hgate] at hphase
  obtain ⟨hready, houtcome, hle⟩ := hphase
  refine ⟨?_, hle⟩
  rw [HasTold, hready, houtcome]
  simp

section
variable {x : Exchange} {began deadline t : Instant} {events : List (Instant × Stimulus)}

/-- The clock moves on to no moment behind one that releases the request. -/
theorem le_releases_next (hgate : (x.run events).phase = .gate deadline)
    (hclock : t = Clock.after began events ∨ Clock.after began events < t ∧ (x.run events).Rests t)
    (hle : ∀ m ∈ x.releases began deadline events, Clock.after began events ≤ m) :
    ∀ m ∈ x.releases began deadline events, t ≤ m := by
  rcases hclock with rfl | ⟨-, hrests⟩
  · exact hle
  · obtain ⟨huntold, hdeadline⟩ := of_rests_of_gate hrests hgate
    rintro m (rfl | ⟨earlier, ⟨later, rfl⟩, htold, -⟩)
    · exact hdeadline
    · rw [run_append] at huntold
      exact absurd (hasTold_run htold later) huntold

/-- **While a request is at the gate**, the clock has passed no moment that releases it. -/
theorem le_releases (hx : x.phase = .gate deadline) (hbegan : began ≤ deadline)
    (hserved : x.Served began events) (hgate : (x.run events).phase = .gate deadline) :
    ∀ m ∈ x.releases began deadline events, Clock.after began events ≤ m := by
  induction events using List.reverseRecOn with
  | nil =>
    rintro m (rfl | ⟨earlier, hprefix, -, rfl⟩)
    · exact hbegan
    · rw [List.prefix_nil.mp hprefix]
  | append_singleton events e ih =>
    obtain ⟨t, stimulus⟩ := e
    obtain ⟨hbefore, hclock⟩ := Clock.movesAtRest_append_singleton.mp hserved
    have hgate' : (x.run events).phase = .gate deadline :=
      (phase_run_of_return (hgate.trans hx.symm)).trans hx
    have hnext := le_releases_next hgate' hclock (ih hbefore hgate')
    rw [Clock.after_append_singleton]
    rintro m (rfl | ⟨earlier, hprefix, htold, rfl⟩)
    · exact hnext m (.inl rfl)
    · rcases List.prefix_concat_iff.mp hprefix with rfl | hprefix
      · rw [Clock.after_append_singleton]
      · exact hnext _ (.inr ⟨earlier, hprefix, htold, rfl⟩)

/-- **A caller that resumes at the gate** sends the request at the first moment that releases it. -/
theorem sends_iff (hx : x.phase = .gate deadline) (hbegan : began ≤ deadline)
    (hserved : x.Served began (events ++ [(t, .resume)]))
    (hgate : (x.run events).phase = .gate deadline) :
    ((x.run events).resume t).phase = .sending ↔ IsLeast (x.releases began deadline events) t := by
  obtain ⟨hbefore, hclock⟩ := Clock.movesAtRest_append_singleton.mp hserved
  have hle := le_releases hx hbegan hbefore hgate
  have hnext := le_releases_next hgate hclock hle
  have hpoll : ((x.run events).resume t).phase = .sending ↔
      Gate.Released (x.run events).subscription.signal deadline t := by
    unfold resume
    rw [hgate]
    cases hp : Gate.poll (x.run events).subscription.signal deadline t with
    | some ready => simp [hp, (Gate.poll_eq_some_iff.mp hp).1]
    | none => simp [hp, Gate.poll_eq_none_iff_not_released.mp hp, hgate]
  rw [hpoll, released_iff]
  constructor
  · intro hreleased
    refine ⟨?_, hnext⟩
    by_cases htold : (x.run events).HasTold
    · -- what was told lets the clock stand still
      refine .inr ⟨events, List.prefix_rfl, htold, ?_⟩
      rcases hclock with heq | ⟨-, hrests⟩
      · exact heq
      · exact absurd htold (of_rests_of_gate hrests hgate).1
    · exact .inl (Nat.le_antisymm (hnext deadline (.inl rfl)) (hreleased.resolve_left htold))
  · rintro ⟨rfl | ⟨earlier, ⟨later, rfl⟩, htold, -⟩, -⟩
    · exact .inr (Nat.le_refl _)
    · rw [run_append]
      exact .inl (hasTold_run htold later)

theorem resume_of_gate {y : Exchange} (t : Instant) (hgate : y.phase = .gate deadline) :
    (y.resume t).phase = .sending ∨ y.resume t = y := by
  unfold resume
  rw [hgate]
  cases hp : Gate.poll y.subscription.signal deadline t with
  | some ready => exact .inl (by simp [hp])
  | none => exact .inr (by simp [hp])

/-- Nothing but a look of the caller sends a request that is at the gate. -/
theorem eq_resume_of_effects_ne {y : Exchange} {stimulus : Stimulus} (hgate : y.phase = .gate deadline)
    (h : (y.step t stimulus).effects ≠ y.effects) : stimulus = .resume := by
  cases stimulus with
  | resume => rfl
  | arrive item => exact absurd rfl h
  | look => exact absurd rfl h
  | reply result =>
    have hsame : y.reply result = y := by
      unfold reply
      rw [hgate]
    exact absurd (congrArg effects hsame) h
  | abandon =>
    refine absurd ?_ h
    show y.abandon.effects = y.effects
    unfold abandon
    split <;> rfl

/-- A request that was sent was sent by a caller that resumed at the gate. -/
theorem exists_resume_of_effects_ne (hx : x.phase = .gate deadline) (hbegan : began ≤ deadline)
    (hserved : x.Served began events) (h : (x.run events).effects ≠ x.effects) :
    ∃ before t after, events = before ++ (t, .resume) :: after ∧ (x.run before).phase = .gate deadline ∧
      IsLeast (x.releases began deadline before) t := by
  induction events using List.reverseRecOn with
  | nil => exact absurd rfl h
  | append_singleton events e ih =>
    obtain ⟨t, stimulus⟩ := e
    by_cases hbefore : (x.run events).effects = x.effects
    · rw [run_append_singleton, ← hbefore] at h
      cases advance_step (x.run events) t stimulus with
      | stays _ effects => exact absurd effects h
      | answered _ _ effects => exact absurd effects h
      | fails _ _ effects => exact absurd effects h
      | finishes _ _ _ effects => exact absurd effects h
      | leaves _ _ effects => exact absurd effects h
      | sends gate phase _ =>
        have hgate : (x.run events).phase = .gate deadline := by
          rcases phase_run_eq_or_lt x events with heq | hlt
          · rw [heq, hx]
          · rw [gate] at hlt
            exact absurd hlt (Nat.not_lt_zero _)
        obtain rfl := eq_resume_of_effects_ne hgate h
        exact ⟨events, t, [], rfl, hgate, (sends_iff hx hbegan hserved hgate).mp phase⟩
    · obtain ⟨before, t', after, rfl, hgate, hleast⟩ :=
        ih (Clock.movesAtRest_append_singleton.mp hserved).1 hbefore
      exact ⟨before, t', after ++ [(t, stimulus)], by simp, hgate, hleast⟩

end

/-- **When a caller is let through a gate, and its request sent,** whatever timer ends its wait, if only it
ends no wait before it began.

* Whatever is set and when, a caller that waits at a gate for a span is let through at the first moment at
  which the signal is ready, its sender is gone, or the deadline has come; and as ready if and only if the
  signal is ready then, which for a signal that is only ever set to be ready means: was ready at any moment up
  to then.
* While an exchange that is served in time holds its request at the gate, it has only opened the channel, and
  the clock has not passed the first moment at which its subscription has told that it is ready or has ended,
  nor the deadline.  A caller that resumes at that first moment sends the request, and whatever happens
  afterwards, nothing else is ever done; one that resumes before does nothing.
* No request is sent in any other way.

The deadline is the moment at which the timer ends the span of the gate. -/
theorem let_through_at_first_release {timer : Clock.Timer} (htimer : ∀ now span, now ≤ timer now span) :
    (∀ (s : Rehearsal.SignalScene) (span : Duration),
      let signalAt := Rehearsal.SignalScene.signalAt s.signal s.agenda.entries
      ∃ ready after, s.followBy timer (.wait span) = (after, some ⟨ready, after.now - s.now⟩) ∧
        IsLeast {t | s.now ≤ t ∧ Gate.Released (signalAt t) (timer s.now span) t} after.now ∧
        (ready = true ↔ (signalAt after.now).ready = true) ∧
        ((∀ e ∈ s.agenda.entries, e.2 ≠ some false) →
          (ready = true ↔ ∃ t ≤ after.now, (signalAt t).ready = true))) ∧
    ∀ {config : Config} {r : ProxyRequest} {rid : RequestId} {opener : String → Except ChannelError Unit}
      {began : Instant} {x : Exchange}, startBy timer config r rid opener began = .ok x →
      let deadline := timer began r.policy.gateTimeout
      let opening := Effect.openChannel (config.proofUrl rid)
      (∀ events, x.Served began events → (x.run events).phase = .gate deadline →
        (x.run events).effects = [opening] ∧
        ∀ m ∈ x.releases began deadline events, Clock.after began events ≤ m) ∧
      (∀ events t, x.Served began (events ++ [(t, .resume)]) → (x.run events).phase = .gate deadline →
        (IsLeast (x.releases began deadline events) t →
          ∀ more, (x.run (events ++ (t, .resume) :: more)).effects = [opening, .send x.request]) ∧
        (¬IsLeast (x.releases began deadline events) t →
          (x.run (events ++ [(t, .resume)])).phase = .gate deadline ∧
          (x.run (events ++ [(t, .resume)])).effects = [opening])) ∧
      ∀ events, x.Served began events → (x.run events).effects ≠ [opening] →
        ∃ before t after, events = before ++ (t, .resume) :: after ∧
          (x.run before).phase = .gate deadline ∧ IsLeast (x.releases began deadline before) t := by
  refine ⟨fun s span => ?_, fun {config r rid opener began x} hstart => ?_⟩
  · intro signalAt
    have hlet := Rehearsal.SignalScene.letThrough_await (timer s.now span) s.now s.signal s.agenda.entries
    refine ⟨_, _, rfl, hlet.isLeast, ?_, fun hkept => ?_⟩
    · rw [hlet.ready, hlet.signal]
    · rw [hlet.ready, hlet.signal]
      exact ⟨fun h => ⟨_, Nat.le_refl _, h⟩,
        fun ⟨_, hle, h⟩ => Rehearsal.SignalScene.ready_signalAt_mono hkept hle h⟩
  · intro deadline opening
    have hx : x.phase = .gate deadline := (startBy_eq_ok hstart).2.2.2
    have hbegan : began ≤ deadline := htimer ..
    have hdid := did_of_startBy hstart
    have hopened : ∀ events, (x.run events).phase = .gate deadline → (x.run events).effects = [opening] := by
      intro events hgate
      have hrun := (did_run hdid events).1
      rw [Did, hgate] at hrun
      exact hrun
    refine ⟨fun events hserved hgate => ⟨hopened events hgate, le_releases hx hbegan hserved hgate⟩,
      fun events t hserved hgate => ⟨fun hleast more => ?_, fun hnot => ?_⟩, fun events hserved hsent => ?_⟩
    · have hphase : (x.run (events ++ [(t, .resume)])).phase = .sending := by
        rw [run_append_singleton]
        exact (sends_iff hx hbegan hserved hgate).mpr hleast
      obtain ⟨hrun, hrequest⟩ := did_run hdid (events ++ [(t, .resume)])
      rw [List.append_cons, run_append, ← hrequest]
      exact hrun.effects_run_of_sending hphase more
    · have hphase : (x.run (events ++ [(t, .resume)])).phase = .gate deadline := by
        rw [run_append_singleton]
        rcases resume_of_gate t hgate with hsends | hstays
        · exact absurd ((sends_iff hx hbegan hserved hgate).mp hsends) hnot
        · show ((x.run events).resume t).phase = _
          rw [hstays, hgate]
      exact ⟨hphase, hopened _ hphase⟩
    · have hne : (x.run events).effects ≠ x.effects := by
        rw [show x.effects = [opening] from hopened [] hx]
        exact hsent
      exact exists_resume_of_effects_ne hx hbegan hserved hne

/-- The channel says at 20 that it is open. -/
def opensLate : List (Instant × Stimulus) := [(0, .look), (20, .arrive .opened), (20, .look)]

theorem exists_start_opensLate :
    ∃ x, start plainConfig (pageRequest ⟨false, 100, 50⟩) plainId (fun _ => .ok ()) 0 = .ok x ∧
      x.Served 0 (opensLate ++ [(20, .resume)]) ∧ (x.run opensLate).phase = .gate 50 ∧
      ((x.run opensLate).resume 20).phase = .sending := by
  obtain ⟨x, hx⟩ := exists_start_page ⟨false, 100, 50⟩ fun _ => .ok ()
  refine ⟨x, hx, ?_⟩
  obtain ⟨hpolicy, hproves, hsub, hphase⟩ := start_eq_ok hx
  obtain ⟨policy, proves, request, subscription, phase, effects⟩ := x
  subst hpolicy hproves hsub hphase
  exact ⟨⟨.inl rfl, .inr ⟨by decide, .inr ⟨100, rfl, by decide, rfl, rfl⟩, rfl, rfl, by decide⟩, .inl rfl,
    .inl rfl, trivial⟩, rfl, rfl⟩

/-- The request is then sent at once, and once; a caller at a gate whose signal is ready at 20 and whose
sender is gone at 21 is let through as ready. -/
theorem let_through_at_first_release_of_opensLate :
    (∃ after, Rehearsal.SignalScene.follow ⟨0, ⟨false, true⟩, ⟨[(20, some true), (21, none)]⟩⟩ (.wait 100) =
      (after, some ⟨true, 20⟩)) ∧
    ∃ x, start plainConfig (pageRequest ⟨false, 100, 50⟩) plainId (fun _ => .ok ()) 0 = .ok x ∧
      ∀ more, (x.run (opensLate ++ (20, .resume) :: more)).effects =
        [.openChannel (plainConfig.proofUrl plainId), .send x.request] := by
  refine ⟨⟨_, rfl⟩, ?_⟩
  obtain ⟨x, hx, hserved, hgate, hsends⟩ := exists_start_opensLate
  have hphase : x.phase = .gate 50 := (start_eq_ok hx).2.2.2
  have hleast := (sends_iff hphase (by decide) hserved hgate).mp hsends
  have hsent := (let_through_at_first_release Clock.le_deadline).2 hx
  exact ⟨x, hx, (hsent.2.1 opensLate 20 hserved hgate).1 hleast⟩

end ProofRelay.Exchange
