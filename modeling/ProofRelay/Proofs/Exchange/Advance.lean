import ProofRelay.Proofs.Exchange.Join

/-!
How the caller's side goes on.  One step leaves the phase as it is or takes the exchange to a later one
(`Advance`), so a phase that was left never comes back (`phase_run_of_return`), and each thing that is
done to the outside is done on one of these ways only: the request is sent when the gate is left.  The
subscription takes the steps of its task, and the caller closes it at most.
-/

namespace ProofRelay

/-- How many phases lie before one. -/
def Phase.rank : Phase → Nat
  | .gate _ => 0
  | .sending => 1
  | .joining _ => 2
  | .done _ | .abandoned => 3

namespace Exchange

/-- What one step makes of the caller's side. -/
inductive Advance (x y : Exchange) : Prop
  | stays (phase : y.phase = x.phase) (effects : y.effects = x.effects)
  /-- The gate lets the request through. -/
  | sends {deadline : Instant} (gate : x.phase = .gate deadline) (phase : y.phase = .sending)
      (effects : y.effects = x.effects ++ [.send x.request])
  | answered {response : Http.Response} (sent : x.phase = .sending)
      (phase : y.phase = .joining response) (effects : y.effects = x.effects)
  | fails {error : ClientError} (sent : x.phase = .sending)
      (phase : y.phase = .done (.error error)) (effects : y.effects = x.effects)
  | finishes {response : Http.Response} {outcome : Outcome} (joined : x.phase = .joining response)
      (ended : x.subscription.outcome? = some outcome)
      (phase : y.phase = .done (ProvenResponse.compose response outcome x.policy))
      (effects : y.effects = x.effects)
  | leaves (going : x.isOver = false) (phase : y.phase = .abandoned) (effects : y.effects = x.effects)

theorem advance_resume (x : Exchange) (now : Instant) : x.Advance (x.resume now) := by
  unfold resume
  cases hp : x.phase with
  | gate deadline =>
    cases hpoll : Gate.poll x.subscription.signal deadline now with
    | some ready => simpa only [hpoll] using .sends hp rfl rfl
    | none => simpa only [hpoll] using .stays rfl rfl
  | joining response =>
    cases ho : x.subscription.outcome? with
    | some outcome => exact .finishes hp ho rfl rfl
    | none => exact .stays rfl rfl
  | sending | done | abandoned => exact .stays rfl rfl

theorem advance_reply (x : Exchange) (result : Except ClientError Http.Response) :
    x.Advance (x.reply result) := by
  unfold reply
  cases hp : x.phase with
  | sending =>
    cases result with
    | error error => exact .fails hp rfl rfl
    | ok response =>
      have heffects : (if x.isProven response then x else x.close).effects = x.effects := by
        split <;> rfl
      exact .answered hp rfl heffects
  | gate | joining | done | abandoned => exact .stays rfl rfl

/-- **One step** of an exchange, whatever happens. -/
theorem advance_step (x : Exchange) (now : Instant) (stimulus : Stimulus) :
    x.Advance (x.step now stimulus) := by
  cases stimulus with
  | arrive item => exact .stays rfl rfl
  | look => exact .stays rfl rfl
  | resume => exact advance_resume x now
  | reply result => exact advance_reply x result
  | abandon =>
    show x.Advance x.abandon
    unfold abandon
    split
    · exact .stays rfl rfl
    · next hover => exact .leaves (by simpa using hover) rfl rfl

theorem Advance.keeps_effects {x y : Exchange} (h : x.Advance y) : x.effects <+: y.effects := by
  have hsame : y.effects = x.effects → x.effects <+: y.effects := fun heq => heq ▸ List.prefix_refl _
  cases h with
  | stays _ effects => exact hsame effects
  | sends _ _ effects =>
    rw [effects]
    exact List.prefix_append ..
  | answered _ _ effects => exact hsame effects
  | fails _ _ effects => exact hsame effects
  | finishes _ _ _ effects => exact hsame effects
  | leaves _ _ effects => exact hsame effects

/-! ## Phases in their order -/

theorem Advance.phase_eq_or_lt {x y : Exchange} (h : x.Advance y) :
    y.phase = x.phase ∨ x.phase.rank < y.phase.rank := by
  cases h with
  | stays phase => exact .inl phase
  | sends gate phase => exact .inr (by simp [gate, phase, Phase.rank])
  | answered sent phase => exact .inr (by simp [sent, phase, Phase.rank])
  | fails sent phase => exact .inr (by simp [sent, phase, Phase.rank])
  | finishes joined _ phase => exact .inr (by simp [joined, phase, Phase.rank])
  | leaves going phase =>
    refine .inr ?_
    rw [phase]
    cases hp : x.phase <;> simp [isOver, hp, Phase.rank] at going ⊢

theorem phase_run_eq_or_lt (x : Exchange) (events : List (Instant × Stimulus)) :
    (x.run events).phase = x.phase ∨ x.phase.rank < (x.run events).phase.rank := by
  induction events using List.reverseRecOn with
  | nil => exact .inl rfl
  | append_singleton events e ih =>
    obtain ⟨now, stimulus⟩ := e
    rw [run_append_singleton]
    rcases (advance_step (x.run events) now stimulus).phase_eq_or_lt with hstep | hstep
    · rw [hstep]
      exact ih
    · rcases ih with hrun | hrun
      · rw [hrun] at hstep
        exact .inr hstep
      · exact .inr (Nat.lt_trans hrun hstep)

/-- A phase that is found again was never left. -/
theorem phase_run_of_return {x : Exchange} {as bs : List (Instant × Stimulus)}
    (h : (x.run (as ++ bs)).phase = x.phase) : (x.run as).phase = x.phase := by
  rcases phase_run_eq_or_lt x as with heq | hlt
  · exact heq
  · rw [run_append] at h
    rcases phase_run_eq_or_lt (x.run as) bs with hback | hback
    · rw [← hback, h]
    · rw [h] at hback
      exact absurd hlt (Nat.lt_asymm hback)

theorem rank_le_three (phase : Phase) : phase.rank ≤ 3 := by
  cases phase <;> simp [Phase.rank]

/-- Once it is over, the caller's side stays as it is. -/
theorem phase_run_of_isOver {x : Exchange} (h : x.isOver = true) (events : List (Instant × Stimulus)) :
    (x.run events).phase = x.phase := by
  rcases phase_run_eq_or_lt x events with heq | hlt
  · exact heq
  · have hthree : x.phase.rank = 3 := by
      cases hp : x.phase <;> simp [isOver, hp, Phase.rank] at h ⊢
    have hle := rank_le_three (x.run events).phase
    omega

/-! ## The subscription -/

theorem subscription_step_of_task (x : Exchange) (now : Instant) {stimulus : Stimulus}
    {stimulus' : Subscription.Stimulus} (h : stimulus.toSubscription? = some stimulus') :
    (x.step now stimulus).subscription = x.subscription.step now stimulus' := by
  cases stimulus with
  | arrive item =>
    cases h
    rfl
  | look =>
    cases h
    rfl
  | resume | reply | abandon => cases h

/-- The caller's steps leave the subscription as it is, or close it. -/
theorem subscription_step_of_caller (x : Exchange) (now : Instant) {stimulus : Stimulus}
    (h : stimulus.toSubscription? = none) :
    (x.step now stimulus).subscription = x.subscription ∨
      (x.step now stimulus).subscription = x.subscription.close := by
  cases stimulus with
  | arrive item => cases h
  | look => cases h
  | resume =>
    refine .inl ?_
    show (x.resume now).subscription = x.subscription
    unfold resume
    split
    · split <;> rfl
    · split <;> rfl
    · rfl
  | reply result =>
    show (x.reply result).subscription = _ ∨ (x.reply result).subscription = _
    unfold reply
    split
    · split
      · exact .inr rfl
      · next response =>
        cases hproven : x.isProven response with
        | true => exact .inl (by simp)
        | false => exact .inr (by simp [close])
    · exact .inl rfl
  | abandon =>
    show x.abandon.subscription = _ ∨ x.abandon.subscription = _
    unfold abandon
    split
    · exact .inl rfl
    · exact .inr rfl

end Exchange
end ProofRelay
