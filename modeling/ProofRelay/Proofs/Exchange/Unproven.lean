import ProofRelay.Proofs.Exchange.Proven

/-!
Exchanges whose response is not proven: one that is no success, of a request that does not want
failures proven.  Its arrival closes the subscription, which settles the outcome of one that still
waits for its channel.  A subscription that has no channel, or that has ended before, keeps the
outcome that it has, and the policy applies to that (`unproven_result`).  So the response alone
comes back just if the subscription was still waiting, or if the policy is lenient and no payload
had come.
-/

namespace ProofRelay.Exchange

/-- The outcome that a response which is not proven is joined with: that of a subscription that has
no channel or has ended, and else to give up. -/
def settled (channel : Except ChannelError Unit) (s : Subscription) : Outcome :=
  match channel with
  | .error error => .unavailable error
  | .ok () => s.outcome?.getD .cancelled

theorem fate?_close_subscribed (config : Config) (r : ProxyRequest) (rid : RequestId)
    (opener : String → Except ChannelError Unit) (events : Subscription.History) :
    let s := (subscribed config r rid opener).run events
    s.close.fate? = some (settled (opener (config.proofUrl rid)) s) := by
  intro s
  cases hc : opener (config.proofUrl rid) with
  | error error =>
    have hs : s = (Subscription.start (.error error) r.policy.proofTimeout).run events := by
      simp only [s, subscribed, hc]
    rw [hs]
    exact Subscription.fate?_step (Subscription.fate?_run_start_error error _ events) 0 .close
  | ok =>
    have hs : s = (Subscription.start (.ok ()) r.policy.proofTimeout).run events := by
      simp only [s, subscribed, hc]
    rw [hs]
    exact Subscription.fate?_close_run_start _ events

/-- The response alone comes of a settled outcome just in these cases. -/
theorem compose_settled_iff {config : Config} {r : ProxyRequest} {rid : RequestId}
    {opener : String → Except ChannelError Unit} {events : List (Instant × Stimulus)}
    {response : Http.Response} {policy : Policy} :
    let channel := opener (config.proofUrl rid)
    let s := (subscribed config r rid opener).run (timeline events)
    ProvenResponse.compose response (settled channel s) policy = .ok (ProvenResponse.unproven response) ↔
      (channel = .ok () ∧ s.outcome? = none) ∨
        (policy.throwOnError = false ∧
          ∀ payload, s.outcome? = some (.delivered payload) → payload.isEmpty = true) := by
  intro channel s
  rw [ProvenResponse.compose_eq_unproven_iff]
  cases ho : s.outcome? with
  | none =>
    cases hc : channel with
    | error error => simp [settled]
    | ok => simp [settled, ho]
  | some o =>
    obtain ⟨hcause, hne⟩ := outcome?_of_timeline ho
    have hsettled : settled channel s = o := by
      cases hc : channel with
      | error error =>
        have hc' : opener (config.proofUrl rid) = .error error := hc
        rw [hc'] at hcause
        exact hcause.symm
      | ok => simp [settled, ho]
    simp [hsettled, hne]

section
variable {config : Config} {r : ProxyRequest} {rid : RequestId}
  {opener : String → Except ChannelError Unit} {now : Instant} {x : Exchange}
  (hx : start config r rid opener now = .ok x)
  {response : Http.Response} (hp : response.status.isSuccess = false) (hf : r.provesFailed = false)

include hx hp hf

/-- The response settles the outcome of the subscription. -/
theorem final_of_unproven (c : Course x) :
    let s := (subscribed config r rid opener).run (timeline c.before)
    (c.final response).Joins response ∧ (c.final response).policy = r.policy ∧
      (c.final response).subscription.fate? = some (settled (opener (config.proofUrl rid)) s) := by
  intro s
  obtain ⟨hj, hpolicy, hsub⟩ := final_joins hx c response
  have hunproven : ¬ (response.status.isSuccess || r.provesFailed) = true := by simp [hp, hf]
  refine ⟨hj, hpolicy, ?_⟩
  have hfate : s.close.fate? = some (settled (opener (config.proofUrl rid)) s) :=
    fate?_close_subscribed config r rid opener (timeline c.before)
  rw [hsub, if_neg hunproven]
  exact Subscription.fate?_run hfate (timeline c.after)

/-- Once it is woken, the subscription gives its settled outcome. -/
theorem result_of_unproven (c : Course x) (woken resumed : Instant) :
    let s := (subscribed config r rid opener).run (timeline c.before)
    (((c.final response).wake woken).resume resumed).result? =
      some (ProvenResponse.compose response (settled (opener (config.proofUrl rid)) s) r.policy) := by
  intro s
  obtain ⟨hj, hpolicy, hfate⟩ := final_of_unproven hx hp hf c
  rw [result?_resume_of_joins (wake_of_joins hj woken)]
  show (((c.final response).subscription.wake woken).outcome?).map (_ : Outcome → _) = _
  rw [Subscription.outcome?_wake_of_fate? hfate, ← hpolicy]
  rfl

/-- **The result of an exchange whose response is not proven** is fixed when the response arrives,
and it is there once the subscription was woken after that:

* if there was no channel, or if the subscription had ended, it is what the outcome makes of the response;
* else it is the response alone.

So the response alone comes back just if there is a channel and the subscription still waits for it,
or if the policy is lenient and no payload but an empty one had come. -/
theorem unproven_result (c : Course x) :
    let channel := opener (config.proofUrl rid)
    let s := (subscribed config r rid opener).run (timeline c.before)
    let answer := match channel, s.outcome? with
      | .error error, _ => ProvenResponse.compose response (.unavailable error) r.policy
      | .ok (), some outcome => ProvenResponse.compose response outcome r.policy
      | .ok (), none => .ok (ProvenResponse.unproven response)
    (∀ resumed result, ((c.final response).resume resumed).result? = some result → result = answer) ∧
    (∀ woken resumed, (((c.final response).wake woken).resume resumed).result? = some answer) ∧
    (answer = .ok (ProvenResponse.unproven response) ↔
      (channel = .ok () ∧ s.outcome? = none) ∨
        (r.policy.throwOnError = false ∧
          ∀ payload, s.outcome? = some (.delivered payload) → payload.isEmpty = true)) := by
  intro channel s answer
  have hanswer : answer = ProvenResponse.compose response (settled channel s) r.policy := by
    simp only [answer, settled]
    split
    · next hc => rw [hc]
    · next hc ho => rw [hc, ho]; rfl
    · next hc ho => rw [hc, ho]; rfl
  obtain ⟨hj, hpolicy, hfate⟩ := final_of_unproven hx hp hf c
  refine ⟨fun resumed result hresult => ?_, fun woken resumed => ?_, ?_⟩
  · rw [result?_resume_of_joins hj, hpolicy] at hresult
    obtain ⟨o, ho, rfl⟩ := Option.map_eq_some_iff.mp hresult
    have hfate' := Subscription.fate?_of_outcome? ho
    rw [hfate, Option.some_inj] at hfate'
    rw [hanswer, ← hfate']
  · rw [hanswer]
    exact result_of_unproven hx hp hf c woken resumed
  · rw [hanswer]
    exact compose_settled_iff

end

/-- Under a strict policy a response that is not proven comes back if the channel stays silent. -/
theorem unproven_result_of_silence :
    ∃ x, start plainConfig (pageRequest { Policy.default with throwOnError := true }) plainId
        (fun _ => .ok ()) 0 = .ok x ∧
      ∃ c : Course x, ∀ woken resumed,
        (((c.final ⟨.notFound, .empty, []⟩).wake woken).resume resumed).result? =
          some (.ok (ProvenResponse.unproven ⟨.notFound, .empty, []⟩)) := by
  obtain ⟨x, hx⟩ := exists_start_page { Policy.default with throwOnError := true } fun _ => .ok ()
  refine ⟨x, hx, ?_⟩
  obtain ⟨-, -, -, hphase⟩ := start_eq_ok hx
  let c : Course x := .ofGate hphase [] (by simp) 150 [] (by simp)
  have hp : (⟨.notFound, .empty, []⟩ : Http.Response).status.isSuccess = false := rfl
  exact ⟨c, (unproven_result hx hp rfl c).2.1⟩

/-- A response that is not proven is lost under a strict policy if its channel cannot be opened, and
has the proof of a message that was taken before it. -/
theorem unproven_response_not_alone :
    (∃ x, start plainConfig (pageRequest { Policy.default with throwOnError := true }) plainId
        (fun _ => .error .closed) 0 = .ok x ∧
      ∃ c : Course x, ∀ woken resumed,
        (((c.final ⟨.notFound, .empty, []⟩).wake woken).resume resumed).result? =
          some (.error ⟨.proofUnavailable, some (.channel .closed)⟩)) ∧
    ∃ x, start plainConfig (pageRequest .default) plainId (fun _ => .ok ()) 0 = .ok x ∧
      ∃ c : Course x, ∀ woken resumed,
        (((c.final ⟨.notFound, .empty, []⟩).wake woken).resume resumed).result? =
          some (.ok ⟨⟨.notFound, .empty, []⟩, some "key", some "proof"⟩) := by
  have hp : (⟨.notFound, .empty, []⟩ : Http.Response).status.isSuccess = false := rfl
  refine ⟨?_, ?_⟩
  · obtain ⟨x, hx⟩ := exists_start_page { Policy.default with throwOnError := true } fun _ => .error .closed
    obtain ⟨-, -, -, hphase⟩ := start_eq_ok hx
    let c : Course x := .ofGate hphase [] (by simp) 150 [] (by simp)
    exact ⟨x, hx, c, result_of_unproven hx hp rfl c⟩
  · obtain ⟨x, hx⟩ := exists_start_page .default fun _ => .ok ()
    obtain ⟨-, -, -, hphase⟩ := start_eq_ok hx
    let c : Course x := .ofGate hphase [(10, .arrive (.message "key|proof")), (10, .look)]
      (by simp [Stimulus.toSubscription?]) 150 [] (by simp)
    exact ⟨x, hx, c, result_of_unproven hx hp rfl c⟩

end ProofRelay.Exchange
