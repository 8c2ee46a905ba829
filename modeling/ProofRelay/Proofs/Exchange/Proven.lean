import ProofRelay.Proofs.Exchange.Join
import ProofRelay.Proofs.Response
import ProofRelay.Proofs.Subscription.ByClock

/-!
Exchanges whose response is proven: a success, or any response if the prover is to prove failures.
The caller never closes the subscription of such an exchange, so its result is what the response and
the history of the channel alone come to (`proven_result`), whenever the response arrives and
however the gate let the request go.
-/

namespace ProofRelay.Exchange

theorem ne_close_of_mem_timeline {events : List (Instant × Stimulus)} :
    ∀ e ∈ timeline events, e.2 ≠ .close := by
  intro e he
  obtain ⟨⟨now, stimulus⟩, -, hs⟩ := List.mem_filterMap.mp he
  cases stimulus <;> simp [Stimulus.toSubscription?] at hs <;> simp [← hs]

/-- The outcome of a subscription that nobody closes: that there is no channel, or what its history
decides. -/
theorem outcome?_of_timeline {config : Config} {r : ProxyRequest} {rid : RequestId}
    {opener : String → Except ChannelError Unit} {events : List (Instant × Stimulus)} {o : Outcome}
    (h : ((subscribed config r rid opener).run (timeline events)).outcome? = some o) :
    (match opener (config.proofUrl rid) with
      | .ok () => Subscription.Decides r.policy.proofTimeout (timeline events) o
      | .error error => o = .unavailable error) ∧ o ≠ .cancelled := by
  unfold subscribed at h
  cases hc : opener (config.proofUrl rid) with
  | error error =>
    rw [hc] at h
    have hf := Subscription.fate?_run_start_error error r.policy.proofTimeout (timeline events)
    rw [Subscription.fate?_of_outcome? h, Option.some.injEq] at hf
    exact ⟨hf, by simp [hf]⟩
  | ok =>
    rw [hc] at h
    have hd := Subscription.outcome?_run_start.mp h
    refine ⟨hd, ?_⟩
    rintro rfl
    exact Subscription.not_decides_cancelled ne_close_of_mem_timeline hd

/-- The outcome of a subscription that is served in time from a moment on: that there is no channel,
or what the clock says of what the channel does. -/
def timelyOutcome (channel : Except ChannelError Unit) (patience : Duration) (began : Instant)
    (events : Subscription.History) : Outcome :=
  match channel with
  | .ok () => Subscription.byClock patience (Clock.deadline began patience) events
  | .error error => .unavailable error

theorem outcome?_of_prompt_history {config : Config} {r : ProxyRequest} {rid : RequestId}
    {opener : String → Except ChannelError Unit} {x : Exchange} {c : Course x} {began : Instant}
    {o : Outcome} (hp : (subscribed config r rid opener).Prompt began c.history)
    (ho : ((subscribed config r rid opener).run c.history).outcome? = some o) :
    o = timelyOutcome (opener (config.proofUrl rid)) r.policy.proofTimeout began
      (Subscription.outside c.history) := by
  cases hc : opener (config.proofUrl rid) with
  | error error =>
    have hcause := (outcome?_of_timeline ho).1
    rw [hc] at hcause
    exact hcause
  | ok =>
    have hstart : subscribed config r rid opener = .start (.ok ()) r.policy.proofTimeout := by
      rw [subscribed, hc]
    rw [hstart] at hp ho
    rw [timelyOutcome, Subscription.byClock_outside]
    exact Subscription.outcome?_of_prompt (Subscription.awaits_start _ began) hp ho

theorem history_append {x : Exchange} (c : Course x) (s : Subscription) :
    (s.run (timeline c.before)).run (timeline c.after) = s.run c.history := by
  rw [Course.history, timeline_append, Subscription.run_append]

section
variable {config : Config} {r : ProxyRequest} {rid : RequestId}
  {opener : String → Except ChannelError Unit} {now : Instant} {x : Exchange}
  (hx : start config r rid opener now = .ok x)
  {response : Http.Response} (hp : response.status.isSuccess = true ∨ r.provesFailed = true)

include hx hp

theorem result_of_proven (c : Course x) (resumed : Instant) :
    ((c.final response).resume resumed).result? =
      ((subscribed config r rid opener).run c.history).outcome?.map
        fun o => ProvenResponse.compose response o r.policy := by
  have hproven : (response.status.isSuccess || r.provesFailed) = true := by
    simpa [Bool.or_eq_true] using hp
  rw [result_of_course hx c response resumed, if_pos hproven, history_append]

/-- **The result of an exchange whose response is proven** is what the outcome of its subscription
alone makes of the response, whenever the response arrives and whatever lets the request through the
gate:

* there is no result as long as the history of the channel and the task decides nothing, and then it
  is what the response and the outcome compose;
* the outcome is that there is no channel, or what the history decides; with it the response comes
  to the proof of the first message, or to the absence of one as the policy wants it;
* if the task is served in time, the outcome is the one that the clock gives to what the channel does;
* once the task was woken, and once more when its deadline has come, there is a result;
* any other course of the exchange with the same history has the same result, and so has any other
  one in which the channel does the same, if the task is served in time in both. -/
theorem proven_result (c : Course x) :
    let alone := (subscribed config r rid opener).run c.history
    (∀ resumed, ((c.final response).resume resumed).result? =
      alone.outcome?.map fun o => ProvenResponse.compose response o r.policy) ∧
    (∀ o, alone.outcome? = some o →
      (match opener (config.proofUrl rid) with
        | .ok () => Subscription.Decides r.policy.proofTimeout c.history o
        | .error error => o = .unavailable error) ∧
      ProvenResponse.Answers response r.policy (ProvenResponse.compose response o r.policy) o) ∧
    (∀ began o, (subscribed config r rid opener).Prompt began c.history → alone.outcome? = some o →
      o = timelyOutcome (opener (config.proofUrl rid)) r.policy.proofTimeout began
        (Subscription.outside c.history)) ∧
    (∀ woken later resumed,
      (∀ deadline, ((c.final response).wake woken).subscription.deadline? = some deadline →
        deadline ≤ later) →
      ∃ answer, ((((c.final response).wake woken).wake later).resume resumed).result? = some answer) ∧
    (∀ (c' : Course x) (resumed resumed' : Instant), c'.history = c.history →
      ((c'.final response).resume resumed').result? = ((c.final response).resume resumed).result?) ∧
    ∀ (c' : Course x) (began resumed resumed' : Instant) (answer answer' : _),
      (subscribed config r rid opener).Prompt began c.history →
      (subscribed config r rid opener).Prompt began c'.history →
      Subscription.outside c'.history = Subscription.outside c.history →
      ((c.final response).resume resumed).result? = some answer →
      ((c'.final response).resume resumed').result? = some answer' → answer' = answer := by
  intro alone
  refine ⟨fun resumed => result_of_proven hx hp c resumed, ?_, ?_, ?_, ?_, ?_⟩
  · intro o ho
    obtain ⟨hdecides, hne⟩ := outcome?_of_timeline ho
    exact ⟨hdecides, ProvenResponse.answers_compose response r.policy hne⟩
  · intro began o hprompt ho
    exact outcome?_of_prompt_history hprompt ho
  · intro woken later resumed hd
    exact exists_result hx c response hd
  · intro c' resumed resumed' hhistory
    rw [result_of_proven hx hp c resumed, result_of_proven hx hp c' resumed', hhistory]
  · intro c' began resumed resumed' answer answer' hprompt hprompt' hout hanswer hanswer'
    rw [result_of_proven hx hp c resumed] at hanswer
    rw [result_of_proven hx hp c' resumed'] at hanswer'
    obtain ⟨o, ho, rfl⟩ := Option.map_eq_some_iff.mp hanswer
    obtain ⟨o', ho', rfl⟩ := Option.map_eq_some_iff.mp hanswer'
    have hclock := outcome?_of_prompt_history hprompt ho
    have hclock' := outcome?_of_prompt_history hprompt' ho'
    rw [hout, ← hclock] at hclock'
    rw [hclock']

end

/-- A message that comes after the gate has given up and after the response is in gives its proof. -/
theorem proven_result_of_late_message :
    ∃ x, start plainConfig (pageRequest .default) plainId (fun _ => .ok ()) 0 = .ok x ∧
      ∃ c : Course x, ∀ resumed, ((c.final ⟨.ok, .empty, []⟩).resume resumed).result? =
        some (.ok ⟨⟨.ok, .empty, []⟩, some "key", some "proof"⟩) := by
  obtain ⟨x, hx⟩ := exists_start_page .default fun _ => .ok ()
  refine ⟨x, hx, ?_⟩
  obtain ⟨-, -, -, hphase⟩ := start_eq_ok hx
  let c : Course x := .ofGate hphase [] (by simp) 150
    [(160, .look), (170, .arrive .opened), (170, .look), (180, .arrive (.message "key|proof")), (180, .look)]
    (by simp)
  refine ⟨c, fun resumed => ?_⟩
  have hs : (⟨.ok, .empty, []⟩ : Http.Response).status.isSuccess = true := rfl
  rw [(proven_result hx (.inl hs) c).1 resumed]
  rfl

end ProofRelay.Exchange
