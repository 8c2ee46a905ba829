import ProofRelay.Proofs.Exchange.Advance
import ProofRelay.Proofs.Response

/-!
Lenient and strict exchanges.  Two exchanges that differ in their strictness only go through the same
phases with the same subscription and the same effects (`Twins`), until both have a result.  So the
strict result is told from the lenient one: it is the same, or a failure if the proof is missing
(`Counterparts`).
-/

namespace ProofRelay

namespace ProvenResponse

/-- What the lenient and the strict result of a response are when the subscription has this outcome. -/
def Counterparts (response : Http.Response) (outcome : Outcome)
    (lenient strict : Except ClientError ProvenResponse) : Prop :=
  ∃ key proof, lenient = .ok ⟨response, key, proof⟩ ∧ key.isSome = proof.isSome ∧
    if proof = none ∧ outcome ≠ .cancelled then ∃ error, strict = .error error ∧ error.isProof = true
    else strict = lenient

theorem isProof_of_failure? {outcome : Outcome} {error : ClientError} (h : failure? outcome = some error) :
    error.isProof = true ∧ outcome ≠ .cancelled := by
  cases outcome with
  | delivered payload =>
    simp only [failure?] at h
    split at h
    · cases h
      exact ⟨rfl, by simp⟩
    · cases h
  | timedOut | streamError | unavailable =>
    cases h
    exact ⟨rfl, by simp⟩
  | cancelled => cases h

theorem counterparts_compose (response : Http.Response) (outcome : Outcome) {lenient strict : Policy}
    (hl : lenient.throwOnError = false) (hs : strict.throwOnError = true) :
    Counterparts response outcome (compose response outcome lenient) (compose response outcome strict) := by
  unfold compose
  cases hf : failure? outcome with
  | some error =>
    obtain ⟨hproof, hne⟩ := isProof_of_failure? hf
    simp only [hl, hs]
    exact ⟨none, none, rfl, rfl, by simpa [hne] using hproof⟩
  | none =>
    -- without a failure strictness is not asked for, so what has no proof was cancelled
    cases outcome with
    | delivered payload =>
      have hfull : payload.isEmpty = false := by
        cases he : payload.isEmpty with
        | false => rfl
        | true => simp [failure?, he] at hf
      exact ⟨some payload.key, some payload.proof, by simp [attach, hfull], rfl, by simp⟩
    | cancelled => exact ⟨none, none, rfl, rfl, by simp⟩
    | timedOut | streamError | unavailable => simp [failure?] at hf

end ProvenResponse

namespace Exchange

/-! ## Results that stay -/

/-- After a failed transport the failure is the result, whatever the subscription has. -/
theorem result?_of_failure {x : Exchange} {before : List (Instant × Stimulus)}
    (hsent : (x.run before).phase = .sending) (replied : Instant) (error : ClientError)
    (after : List (Instant × Stimulus)) :
    (x.run (before ++ (replied, .reply (.error error)) :: after)).result? = some (.error error) := by
  have hreply : ((x.run before).reply (.error error)).phase = .done (.error error) := by
    simp [reply, hsent]
  have hover : ((x.run before).reply (.error error)).isOver = true := by simp [isOver, hreply]
  have hphase := phase_run_of_isOver hover after
  rw [run_append, run_cons]
  show (((x.run before).reply (.error error)).run after).result? = _
  rw [result?, hphase, hreply]

/-- After a response the caller waits for what it and the outcome compose, or has given up. -/
theorem joins_or_abandoned {response : Http.Response} {x : Exchange} (h : x.Joins response)
    (events : List (Instant × Stimulus)) :
    (x.run events).Joins response ∨
      (x.run events).phase = .abandoned ∧ ∃ e ∈ events, e.2 = .abandon := by
  induction events using List.reverseRecOn with
  | nil => exact .inl h
  | append_singleton events e ih =>
    obtain ⟨now, stimulus⟩ := e
    rw [run_append_singleton]
    rcases ih with hj | ⟨hp, e, he, hgiven⟩
    · by_cases hs : stimulus = .abandon
      · subst hs
        show (x.run events).abandon.Joins response ∨ (x.run events).abandon.phase = _ ∧ _
        unfold abandon
        split
        · exact .inl hj
        · exact .inr ⟨rfl, (now, .abandon), by simp, rfl⟩
      · exact .inl (step_of_joins hj now hs).1
    · have hover : (x.run events).isOver = true := by simp [isOver, hp]
      have hstay := phase_run_of_isOver hover [(now, stimulus)]
      exact .inr ⟨hstay.trans hp, e, List.mem_append_left _ he, hgiven⟩

theorem joins_of_reply {x : Exchange} {before : List (Instant × Stimulus)}
    (hsent : (x.run before).phase = .sending) (response : Http.Response) :
    ((x.run before).reply (.ok response)).Joins response := by
  refine .inl ?_
  simp only [reply, hsent]

theorem run_reply (x : Exchange) (before after : List (Instant × Stimulus)) (replied : Instant)
    (result : Except ClientError Http.Response) :
    x.run (before ++ (replied, .reply result) :: after) = ((x.run before).reply result).run after :=
  run_append ..

theorem compose_of_result? {x : Exchange} {before after : List (Instant × Stimulus)}
    (hsent : (x.run before).phase = .sending) {replied : Instant} {response : Http.Response}
    {answer : Except ClientError ProvenResponse}
    (hr : (x.run (before ++ (replied, .reply (.ok response)) :: after)).result? = some answer) :
    ∃ o, (x.run (before ++ (replied, .reply (.ok response)) :: after)).subscription.outcome? = some o ∧
      answer = ProvenResponse.compose response o
        (x.run (before ++ (replied, .reply (.ok response)) :: after)).policy := by
  rw [run_reply] at hr ⊢
  rcases joins_or_abandoned (joins_of_reply hsent response) after with (hp | ⟨o, ho, hp⟩) | ⟨hp, -⟩
  · simp [result?, hp] at hr
  · rw [result?, hp, Option.some.injEq] at hr
    exact ⟨o, ho, hr.symm⟩
  · simp [result?, hp] at hr

theorem wake_eq_run (x : Exchange) (now : Instant) :
    x.wake now = x.run (List.replicate (x.subscription.inbox.length + 1) (now, .look)) := by
  have hlooks : ∀ (passes : Nat) (x : Exchange),
      { x with subscription := Subscription.looks now passes x.subscription } =
        x.run (List.replicate passes (now, .look)) := by
    intro passes
    induction passes with
    | zero => exact fun x => rfl
    | succ passes ih => exact fun x => ih { x with subscription := x.subscription.look now }
  exact hlooks _ x

/-- A caller that waits for the outcome has a result when the task and the caller have run. -/
theorem exists_finish {response : Http.Response} {x : Exchange} (h : x.Joins response) :
    ∃ finish, (∀ e ∈ finish, e.2 = .look ∨ e.2 = .resume) ∧ (x.run finish).result?.isSome = true := by
  let later := ((x.wake 0).subscription.deadline?).getD 0
  have hd : ∀ deadline, (x.wake 0).subscription.deadline? = some deadline → deadline ≤ later := by
    intro deadline hdeadline
    simp [later, hdeadline]
  obtain ⟨o, ho⟩ := Subscription.exists_outcome?_wake (s := x.subscription) hd
  let looks (x : Exchange) (now : Instant) : List (Instant × Stimulus) :=
    List.replicate (x.subscription.inbox.length + 1) (now, .look)
  refine ⟨looks x 0 ++ looks (x.wake 0) later ++ [(later, .resume)], ?_, ?_⟩
  · intro e he
    simp only [looks, List.mem_append, List.mem_replicate, List.mem_singleton] at he
    rcases he with (⟨-, rfl⟩ | ⟨-, rfl⟩) | rfl
    · exact .inl rfl
    · exact .inl rfl
    · exact .inr rfl
  · rw [run_append_singleton, run_append, ← wake_eq_run, ← wake_eq_run]
    show (((x.wake 0).wake later).resume later).result?.isSome = true
    rw [result?_resume_of_joins (wake_of_joins (wake_of_joins h 0) later)]
    show (((x.subscription.wake 0).wake later).outcome?.map _).isSome = true
    rw [ho]
    rfl

/-! ## Twins -/

/-- A lenient exchange and a strict one that have come equally far. -/
structure Twins (x y : Exchange) : Prop where
  lenient : x.policy.throwOnError = false
  strict : y.policy.throwOnError = true
  provesFailed : y.provesFailed = x.provesFailed
  request : y.request = x.request
  subscription : y.subscription = x.subscription
  effects : y.effects = x.effects
  phase : y.phase = x.phase ∨ ∃ a b, x.phase = .done a ∧ y.phase = .done b

variable {x y : Exchange}

theorem Twins.step (h : x.Twins y) (now : Instant) (stimulus : Stimulus) :
    (x.step now stimulus).Twins (y.step now stimulus) := by
  obtain ⟨policy, proves, request, subscription, phase, effects⟩ := x
  obtain ⟨policy', proves', request', subscription', phase', effects'⟩ := y
  obtain ⟨hl, hs, rfl, rfl, rfl, rfl, hphase⟩ := h
  rcases hphase with rfl | ⟨a, b, rfl, rfl⟩
  · cases stimulus with
    | arrive item => exact ⟨hl, hs, rfl, rfl, rfl, rfl, .inl rfl⟩
    | look => exact ⟨hl, hs, rfl, rfl, rfl, rfl, .inl rfl⟩
    | resume =>
      cases phase' with
      | gate deadline =>
        cases hpoll : Gate.poll subscription'.signal deadline now with
        | some ready =>
          simp only [Exchange.step, resume, hpoll]
          exact ⟨hl, hs, rfl, rfl, rfl, rfl, .inl rfl⟩
        | none =>
          simp only [Exchange.step, resume, hpoll]
          exact ⟨hl, hs, rfl, rfl, rfl, rfl, .inl rfl⟩
      | joining response =>
        cases ho : subscription'.outcome? with
        | some outcome =>
          simp only [Exchange.step, resume, ho]
          exact ⟨hl, hs, rfl, rfl, rfl, rfl, .inr ⟨_, _, rfl, rfl⟩⟩
        | none =>
          simp only [Exchange.step, resume, ho]
          exact ⟨hl, hs, rfl, rfl, rfl, rfl, .inl rfl⟩
      | sending | done | abandoned => exact ⟨hl, hs, rfl, rfl, rfl, rfl, .inl rfl⟩
    | reply result =>
      cases phase' with
      | sending =>
        cases result with
        | error error => exact ⟨hl, hs, rfl, rfl, rfl, rfl, .inl rfl⟩
        | ok response =>
          cases hproven : (response.status.isSuccess || proves') <;>
            simp only [Exchange.step, reply, isProven, hproven] <;>
            exact ⟨hl, hs, rfl, rfl, rfl, rfl, .inl rfl⟩
      | gate | joining | done | abandoned => exact ⟨hl, hs, rfl, rfl, rfl, rfl, .inl rfl⟩
    | abandon => cases phase' <;> exact ⟨hl, hs, rfl, rfl, rfl, rfl, .inl rfl⟩
  · -- both have their results, and only the subscription goes on
    cases stimulus <;> exact ⟨hl, hs, rfl, rfl, rfl, rfl, .inr ⟨a, b, rfl, rfl⟩⟩

theorem Twins.run (h : x.Twins y) (events : List (Instant × Stimulus)) :
    (x.run events).Twins (y.run events) := by
  induction events generalizing x y with
  | nil => exact h
  | cons e later ih => exact ih (h.step e.1 e.2)

theorem Twins.isSome_result? (h : x.Twins y) : y.result?.isSome = x.result?.isSome := by
  rcases h.phase with heq | ⟨a, b, hx, hy⟩
  · simp [result?, heq]
  · simp [result?, hx, hy]

theorem Twins.sending_iff (h : x.Twins y) : y.phase = .sending ↔ x.phase = .sending := by
  rcases h.phase with heq | ⟨a, b, hx, hy⟩
  · rw [heq]
  · simp [hx, hy]

/-! ## Beginning -/

/-- The request under a lenient or a strict policy. -/
def withStrictness (r : ProxyRequest) (strict : Bool) : ProxyRequest :=
  { r with policy.throwOnError := strict }

theorem start_withStrictness (config : Config) (r : ProxyRequest) (id : RequestId)
    (opener : String → Except ChannelError Unit) (now : Instant) :
    (∃ error, ∀ strict, start config (withStrictness r strict) id opener now = .error error) ∨
      ∃ x y, start config (withStrictness r false) id opener now = .ok x ∧
        start config (withStrictness r true) id opener now = .ok y ∧ x.Twins y := by
  have hencode : ∀ strict, (withStrictness r strict).encode id (config.endpoint .proxy) =
      r.encode id (config.endpoint .proxy) := fun _ => rfl
  cases he : r.encode id (config.endpoint .proxy) with
  | error error =>
    refine .inl ⟨error, fun strict => ?_⟩
    rw [start, startBy, hencode, he]
    rfl
  | ok request =>
    refine .inr ?_
    simp only [start, startBy, hencode, he]
    exact ⟨_, _, rfl, rfl, rfl, rfl, rfl, rfl, rfl, rfl, .inl rfl⟩

/-- **Strictness decides what a missing proof is, and nothing else.**  A lenient and a strict exchange
with the same request, in the same course, fail to begin with the same error, or:

* they open and send the same, have the same subscription, and have a result at the same moments;
* if the transport fails, both results are its failure, whatever the subscription has;
* if it answers, the lenient result is that response, with a key and a proof or with neither, and the
  strict one is the same, or a failure that concerns the proof just if there is no proof and the
  subscription was not cancelled;
* unless the caller gives up, both have a result once the task and the caller have run. -/
theorem strictness_concerns_missing_proofs (config : Config) (r : ProxyRequest) (id : RequestId)
    (opener : String → Except ChannelError Unit) (now : Instant) :
    (∃ error, ∀ strict, start config (withStrictness r strict) id opener now = .error error) ∨
    ∃ x y, start config (withStrictness r false) id opener now = .ok x ∧
      start config (withStrictness r true) id opener now = .ok y ∧
      (∀ events, (y.run events).effects = (x.run events).effects ∧
        (y.run events).subscription = (x.run events).subscription ∧
        (y.run events).result?.isSome = (x.run events).result?.isSome ∧
        ((y.run events).phase = .sending ↔ (x.run events).phase = .sending)) ∧
      ∀ before replied after, (x.run before).phase = .sending →
        (∀ error,
          let events := before ++ (replied, .reply (.error error)) :: after
          (x.run events).result? = some (.error error) ∧ (y.run events).result? = some (.error error)) ∧
        ∀ response,
          let events := before ++ (replied, .reply (.ok response)) :: after
          (∀ a b, (x.run events).result? = some a → (y.run events).result? = some b →
            ∃ outcome, (x.run events).subscription.outcome? = some outcome ∧
              ProvenResponse.Counterparts response outcome a b) ∧
          ((∀ e ∈ after, e.2 ≠ .abandon) → ∃ finish, (∀ e ∈ finish, e.2 = .look ∨ e.2 = .resume) ∧
            ∃ a b, (x.run (events ++ finish)).result? = some a ∧
              (y.run (events ++ finish)).result? = some b) := by
  rcases start_withStrictness config r id opener now with herror | ⟨x, y, hx, hy, htwins⟩
  · exact .inl herror
  refine .inr ⟨x, y, hx, hy, fun events => ?_, ?_⟩
  · have h := htwins.run events
    exact ⟨h.effects, h.subscription, h.isSome_result?, h.sending_iff⟩
  intro before replied after hsent
  have hsent' : (y.run before).phase = .sending := (htwins.run before).sending_iff.mpr hsent
  refine ⟨fun error => ?_, fun response => ⟨fun a b ha hb => ?_, fun hkept => ?_⟩⟩
  · exact ⟨result?_of_failure hsent replied error after, result?_of_failure hsent' replied error after⟩
  · obtain ⟨o, ho, rfl⟩ := compose_of_result? hsent ha
    obtain ⟨o', ho', rfl⟩ := compose_of_result? hsent' hb
    have h := htwins.run (before ++ (replied, .reply (.ok response)) :: after)
    rw [h.subscription, ho, Option.some.injEq] at ho'
    subst ho'
    exact ⟨o, ho, ProvenResponse.counterparts_compose response o h.lenient h.strict⟩
  · have hjoins : (x.run (before ++ (replied, .reply (.ok response)) :: after)).Joins response := by
      rw [run_reply]
      exact (run_of_joins (joins_of_reply hsent response) hkept).1
    obtain ⟨finish, hfinish, hresult⟩ := exists_finish hjoins
    rw [← run_append] at hresult
    have hresult' := (htwins.run (before ++ (replied, .reply (.ok response)) :: after ++ finish)).isSome_result?
    obtain ⟨a, ha⟩ := Option.isSome_iff_exists.mp hresult
    obtain ⟨b, hb⟩ := Option.isSome_iff_exists.mp (hresult'.trans hresult)
    exact ⟨finish, hfinish, a, b, ha, hb⟩

end Exchange
end ProofRelay
