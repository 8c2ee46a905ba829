import ProofRelay.Exchange
import ProofRelay.Proofs.Subscription.Outcome

/-!
The two sides of an exchange.  Up to the reply, the subscription of an exchange is the one that only
its channel and its task would make (`subscription_of_awaits`); the caller's looks at the gate leave
no trace in it.  From the reply on it goes its own way again, closed if the response is not proven,
and the caller's result waits for its outcome alone:

    result = (subscription at the end).outcome?.map (compose response · policy)            (result_of_course)
-/

namespace ProofRelay.Exchange

/-- What a stimulus is to the subscription; the others concern the caller. -/
def Stimulus.toSubscription? : Stimulus → Option Subscription.Stimulus
  | .arrive item => some (.arrive item)
  | .look => some .look
  | .resume | .reply _ | .abandon => none

/-- What happens to the channel and to the task in the course of an exchange. -/
def timeline (events : List (Instant × Stimulus)) : Subscription.History :=
  events.filterMap fun (now, stimulus) => stimulus.toSubscription?.map (now, ·)

theorem timeline_append (as bs : List (Instant × Stimulus)) :
    timeline (as ++ bs) = timeline as ++ timeline bs := List.filterMap_append

theorem run_append_singleton (x : Exchange) (events : List (Instant × Stimulus)) (now : Instant)
    (stimulus : Stimulus) : x.run (events ++ [(now, stimulus)]) = (x.run events).step now stimulus := by
  rw [run_append]
  rfl

/-! ## Beginning -/

/-- What has begun once a request is encoded. -/
theorem startBy_eq_ok {timer : Clock.Timer} {config : Config} {r : ProxyRequest} {rid : RequestId}
    {opener : String → Except ChannelError Unit} {now : Instant} {x : Exchange}
    (h : startBy timer config r rid opener now = .ok x) :
    x.policy = r.policy ∧ x.provesFailed = r.provesFailed ∧
      x.subscription = .start (opener (config.proofUrl rid)) r.policy.proofTimeout ∧
      x.phase = .gate (timer now r.policy.gateTimeout) := by
  unfold startBy at h
  cases he : r.encode rid (config.endpoint .proxy) with
  | error error => rw [he] at h; cases h
  | ok request =>
    rw [he] at h
    cases h
    exact ⟨rfl, rfl, rfl, rfl⟩

theorem start_eq_ok {config : Config} {r : ProxyRequest} {rid : RequestId}
    {opener : String → Except ChannelError Unit} {now : Instant} {x : Exchange}
    (h : start config r rid opener now = .ok x) :
    x.policy = r.policy ∧ x.provesFailed = r.provesFailed ∧
      x.subscription = .start (opener (config.proofUrl rid)) r.policy.proofTimeout ∧
      x.phase = .gate (Clock.deadline now r.policy.gateTimeout) := startBy_eq_ok h

/-- An exchange begins if its request can be encoded. -/
theorem exists_start {config : Config} {r : ProxyRequest} {rid : RequestId}
    (h : (r.encode rid (config.endpoint .proxy)).isOk = true) (opener : String → Except ChannelError Unit)
    (now : Instant) : ∃ x, start config r rid opener now = .ok x := by
  unfold start startBy
  cases he : r.encode rid (config.endpoint .proxy) with
  | error error => rw [he] at h; cases h
  | ok request => exact ⟨_, rfl⟩

/-- The gate lets a request through at its deadline at the latest. -/
theorem phase_resume_of_gate {x : Exchange} {deadline now : Instant} (hp : x.phase = .gate deadline)
    (hd : deadline ≤ now) : (x.resume now).phase = .sending := by
  unfold resume
  rw [hp]
  cases hpoll : Gate.poll x.subscription.signal deadline now with
  | some ready => simp only [hpoll]
  | none =>
    have hlt := (Gate.poll_eq_none_iff.mp hpoll).2.2
    exact absurd hlt (Nat.not_lt.mpr hd)

/-- What happens to the channel and to the task does not move the caller. -/
theorem phase_run_of_channel {x : Exchange} {events : List (Instant × Stimulus)}
    (h : ∀ e ∈ events, e.2.toSubscription?.isSome = true) : (x.run events).phase = x.phase := by
  induction events using List.reverseRecOn with
  | nil => rfl
  | append_singleton events e ih =>
    obtain ⟨now, stimulus⟩ := e
    have hstimulus : stimulus.toSubscription?.isSome = true := h (now, stimulus) (by simp)
    rw [run_append_singleton, ← ih fun e he => h e (List.mem_append_left _ he)]
    cases stimulus with
    | arrive item => rfl
    | look => rfl
    | resume | reply | abandon => cases hstimulus

/-! ## What the caller never changes -/

theorem policy_step (x : Exchange) (now : Instant) (stimulus : Stimulus) :
    (x.step now stimulus).policy = x.policy ∧ (x.step now stimulus).provesFailed = x.provesFailed := by
  cases stimulus with
  | arrive item => exact ⟨rfl, rfl⟩
  | look => exact ⟨rfl, rfl⟩
  | resume =>
    show (x.resume now).policy = _ ∧ (x.resume now).provesFailed = _
    unfold resume
    split
    · split <;> exact ⟨rfl, rfl⟩
    · split <;> exact ⟨rfl, rfl⟩
    · exact ⟨rfl, rfl⟩
  | reply result =>
    show (x.reply result).policy = _ ∧ (x.reply result).provesFailed = _
    unfold reply
    split
    · split
      · exact ⟨rfl, rfl⟩
      · split <;> exact ⟨rfl, rfl⟩
    · exact ⟨rfl, rfl⟩
  | abandon =>
    show x.abandon.policy = _ ∧ x.abandon.provesFailed = _
    unfold abandon
    split <;> exact ⟨rfl, rfl⟩

theorem policy_run (x : Exchange) (events : List (Instant × Stimulus)) :
    (x.run events).policy = x.policy ∧ (x.run events).provesFailed = x.provesFailed := by
  induction events using List.reverseRecOn with
  | nil => exact ⟨rfl, rfl⟩
  | append_singleton events e ih =>
    rw [run_append_singleton, (policy_step _ _ _).1, (policy_step _ _ _).2]
    exact ih

/-! ## Before the reply -/

/-- Whether the reply is still to come. -/
def awaitsReply (x : Exchange) : Bool :=
  match x.phase with
  | .gate _ | .sending => true
  | .joining _ | .done _ | .abandoned => false

theorem step_of_awaits {x : Exchange} {now : Instant} {stimulus : Stimulus}
    (h : (x.step now stimulus).awaitsReply = true) :
    x.awaitsReply = true ∧
      (x.step now stimulus).subscription = x.subscription.run (timeline [(now, stimulus)]) := by
  cases stimulus with
  | arrive item => exact ⟨h, rfl⟩
  | look => exact ⟨h, rfl⟩
  | resume =>
    replace h : (x.resume now).awaitsReply = true := h
    show _ ∧ (x.resume now).subscription = x.subscription
    unfold resume at h ⊢
    cases hp : x.phase with
    | gate deadline =>
      simp only [hp] at h ⊢
      refine ⟨by simp [awaitsReply, hp], ?_⟩
      split <;> rfl
    | joining response =>
      simp only [hp] at h
      split at h <;> simp [awaitsReply, hp] at h
    | sending | done | abandoned =>
      simp only [hp] at h
      exact ⟨h, rfl⟩
  | reply result =>
    replace h : (x.reply result).awaitsReply = true := h
    show _ ∧ (x.reply result).subscription = x.subscription
    unfold reply at h ⊢
    cases hp : x.phase with
    | sending =>
      simp only [hp] at h
      split at h <;> simp [awaitsReply] at h
    | gate | joining | done | abandoned =>
      simp only [hp] at h
      exact ⟨h, rfl⟩
  | abandon =>
    replace h : x.abandon.awaitsReply = true := h
    unfold abandon isOver at h
    cases hp : x.phase <;> simp [awaitsReply, hp] at h

theorem subscription_of_awaits {x : Exchange} {events : List (Instant × Stimulus)}
    (h : (x.run events).awaitsReply = true) :
    (x.run events).subscription = x.subscription.run (timeline events) := by
  induction events using List.reverseRecOn with
  | nil => rfl
  | append_singleton events e ih =>
    obtain ⟨now, stimulus⟩ := e
    rw [run_append_singleton] at h ⊢
    obtain ⟨hp, hsub⟩ := step_of_awaits h
    rw [hsub, ih hp, timeline_append, Subscription.run_append]

/-! ## After the reply -/

/-- The response is here, and the result is what the outcome makes of it, once there is one. -/
def Joins (response : Http.Response) (x : Exchange) : Prop :=
  x.phase = .joining response ∨
    ∃ o, x.subscription.outcome? = some o ∧ x.phase = .done (ProvenResponse.compose response o x.policy)

theorem step_of_joins {response : Http.Response} {x : Exchange} (h : x.Joins response) (now : Instant)
    {stimulus : Stimulus} (hs : stimulus ≠ .abandon) :
    (x.step now stimulus).Joins response ∧
      (x.step now stimulus).subscription = x.subscription.run (timeline [(now, stimulus)]) := by
  cases stimulus with
  | arrive item =>
    refine ⟨?_, rfl⟩
    rcases h with hp | ⟨o, ho, hp⟩
    · exact .inl hp
    · refine .inr ⟨o, ?_, hp⟩
      show (x.subscription.arrive item).outcome? = some o
      rw [Subscription.arrive_of_outcome? ho, ho]
  | look =>
    refine ⟨?_, rfl⟩
    rcases h with hp | ⟨o, ho, hp⟩
    · exact .inl hp
    · refine .inr ⟨o, ?_, hp⟩
      show (x.subscription.look now).outcome? = some o
      rw [Subscription.look_of_outcome? ho, ho]
  | resume =>
    show (x.resume now).Joins response ∧ (x.resume now).subscription = x.subscription
    unfold resume
    rcases h with hp | ⟨o, ho, hp⟩
    · rw [hp]
      cases ho : x.subscription.outcome? with
      | some o => exact ⟨.inr ⟨o, ho, rfl⟩, rfl⟩
      | none => exact ⟨.inl hp, rfl⟩
    · rw [hp]
      exact ⟨.inr ⟨o, ho, hp⟩, rfl⟩
  | reply result =>
    -- a second reply finds nobody who waits for one
    have hx : x.reply result = x := by
      unfold reply
      rcases h with hp | ⟨o, -, hp⟩ <;> rw [hp]
    show (x.reply result).Joins response ∧ (x.reply result).subscription = x.subscription
    rw [hx]
    exact ⟨h, rfl⟩
  | abandon => exact absurd rfl hs

theorem run_of_joins {response : Http.Response} {x : Exchange} (h : x.Joins response)
    {events : List (Instant × Stimulus)} (ha : ∀ e ∈ events, e.2 ≠ .abandon) :
    (x.run events).Joins response ∧
      (x.run events).subscription = x.subscription.run (timeline events) := by
  induction events using List.reverseRecOn with
  | nil => exact ⟨h, rfl⟩
  | append_singleton events e ih =>
    obtain ⟨now, stimulus⟩ := e
    obtain ⟨hj, hsub⟩ := ih fun e he => ha e (List.mem_append_left _ he)
    have hs : stimulus ≠ .abandon := ha (now, stimulus) (by simp)
    obtain ⟨hj', hsub'⟩ := step_of_joins hj now hs
    rw [run_append_singleton]
    refine ⟨hj', ?_⟩
    rw [hsub', hsub, timeline_append, Subscription.run_append]

theorem result?_resume_of_joins {response : Http.Response} {x : Exchange} (h : x.Joins response)
    (now : Instant) :
    (x.resume now).result? =
      x.subscription.outcome?.map fun o => ProvenResponse.compose response o x.policy := by
  unfold resume
  rcases h with hp | ⟨o, ho, hp⟩
  · rw [hp]
    cases ho : x.subscription.outcome? with
    | some o => rfl
    | none => simp [result?, hp]
  · rw [hp, ho]
    simp [result?, hp]

theorem wake_of_joins {response : Http.Response} {x : Exchange} (h : x.Joins response) (now : Instant) :
    (x.wake now).Joins response := by
  rcases h with hp | ⟨o, ho, hp⟩
  · exact .inl hp
  · refine .inr ⟨o, ?_, hp⟩
    show (x.subscription.wake now).outcome? = some o
    rw [Subscription.wake, Subscription.looks_of_outcome? ho, ho]

/-! ## Courses -/

/-- A course of an exchange whose request is sent and answered, and which the caller does not give up. -/
structure Course (x : Exchange) where
  /-- What happens up to the reply. -/
  before : List (Instant × Stimulus)
  /-- The moment of the reply. -/
  replied : Instant
  /-- What happens from the reply on. -/
  after : List (Instant × Stimulus)
  sent : (x.run before).phase = .sending
  kept : ∀ e ∈ after, e.2 ≠ .abandon

namespace Course

/-- The course of a request that the gate lets through at its deadline, if only the channel and the
task do something before. -/
def ofGate {x : Exchange} {deadline : Instant} (hp : x.phase = .gate deadline)
    (early : List (Instant × Stimulus)) (he : ∀ e ∈ early, e.2.toSubscription?.isSome = true)
    (replied : Instant) (after : List (Instant × Stimulus)) (ha : ∀ e ∈ after, e.2 ≠ .abandon) :
    Course x where
  before := early ++ [(deadline, .resume)]
  replied
  after
  sent := by
    rw [run_append_singleton]
    exact phase_resume_of_gate ((phase_run_of_channel he).trans hp) (Nat.le_refl deadline)
  kept := ha

variable {x : Exchange} (c : Course x)

/-- The exchange at the end of a course that this response answers. -/
def final (response : Http.Response) : Exchange :=
  x.run (c.before ++ (c.replied, .reply (.ok response)) :: c.after)

/-- What happens to the channel and to the task. -/
def history : Subscription.History := timeline (c.before ++ c.after)

end Course

/-- The subscription of a request that nobody closes. -/
def subscribed (config : Config) (r : ProxyRequest) (rid : RequestId)
    (opener : String → Except ChannelError Unit) : Subscription :=
  .start (opener (config.proofUrl rid)) r.policy.proofTimeout

section
variable {config : Config} {r : ProxyRequest} {rid : RequestId}
  {opener : String → Except ChannelError Unit} {now : Instant} {x : Exchange}
  (hx : start config r rid opener now = .ok x) (c : Course x) (response : Http.Response)

include hx

/-- The reply leaves the subscription as it is, or closes it if the response is not proven. -/
theorem reply_of_sent :
    let s := (subscribed config r rid opener).run (timeline c.before)
    let answered := (x.run c.before).reply (.ok response)
    answered.Joins response ∧ answered.policy = r.policy ∧
      answered.subscription = if response.status.isSuccess || r.provesFailed then s else s.close := by
  intro s answered
  obtain ⟨hpolicy, hproves, hsub, -⟩ := start_eq_ok hx
  have hawaits : (x.run c.before).awaitsReply = true := by simp [awaitsReply, c.sent]
  have hrun : (x.run c.before).subscription = s := by
    rw [subscription_of_awaits hawaits, hsub]
    rfl
  have hfixed := policy_run x c.before
  rw [hpolicy, hproves] at hfixed
  show ((x.run c.before).reply (.ok response)).Joins response ∧ _
  simp only [answered]
  unfold reply
  rw [c.sent]
  simp only [isProven, hfixed.2]
  split
  · exact ⟨.inl rfl, hfixed.1, hrun⟩
  · exact ⟨.inl rfl, hfixed.1, congrArg Subscription.close hrun⟩

/-- From the reply on the subscription goes its own way, and the result waits for it. -/
theorem final_joins :
    let s := (subscribed config r rid opener).run (timeline c.before)
    (c.final response).Joins response ∧ (c.final response).policy = r.policy ∧
      (c.final response).subscription =
        (if response.status.isSuccess || r.provesFailed then s else s.close).run (timeline c.after) := by
  intro s
  obtain ⟨hj, hpolicy, hsub⟩ := reply_of_sent hx c response
  obtain ⟨hj', hsub'⟩ := run_of_joins hj c.kept
  have hfinal : c.final response = ((x.run c.before).reply (.ok response)).run c.after := run_append ..
  rw [hfinal]
  refine ⟨hj', ?_, ?_⟩
  · rw [(policy_run _ c.after).1, hpolicy]
  · rw [hsub', hsub]

/-- **The result of an exchange** whose request was sent and answered, and which the caller did not
give up: nothing while the subscription goes on, and what the outcome makes of the response when it
has ended. -/
theorem result_of_course (resumed : Instant) :
    let s := (subscribed config r rid opener).run (timeline c.before)
    let joined := if response.status.isSuccess || r.provesFailed then s else s.close
    ((c.final response).resume resumed).result? =
      (joined.run (timeline c.after)).outcome?.map fun o => ProvenResponse.compose response o r.policy := by
  intro s joined
  obtain ⟨hj, hpolicy, hsub⟩ := final_joins hx c response
  rw [result?_resume_of_joins hj, hpolicy, hsub]

/-- The caller gets an answer: once the task was woken, and once more when its deadline has come. -/
theorem exists_result {woken later resumed : Instant}
    (hd : ∀ deadline, ((c.final response).wake woken).subscription.deadline? = some deadline →
      deadline ≤ later) :
    ∃ answer, ((((c.final response).wake woken).wake later).resume resumed).result? = some answer := by
  obtain ⟨hj, -, -⟩ := final_joins hx c response
  obtain ⟨o, ho⟩ := Subscription.exists_outcome?_wake (s := (c.final response).subscription) hd
  rw [result?_resume_of_joins (wake_of_joins (wake_of_joins hj woken) later)]
  refine ⟨ProvenResponse.compose response o (c.final response).policy, ?_⟩
  show (((c.final response).subscription.wake woken).wake later).outcome?.map _ = _
  rw [ho]
  rfl

end

/-! ## A request that can be sent -/

/-- A client of a prover. -/
def plainConfig : Config := ⟨"http://prover:8080", false, 30000, 100⟩

/-- The request for a page, under a policy. -/
def pageRequest (policy : Policy) : ProxyRequest := .start .get "https://api.example.com/data" policy

/-- An id for it. -/
def plainId : RequestId := ⟨"00000000-0000-4000-8000-000000000000"⟩

theorem exists_start_page (policy : Policy) (opener : String → Except ChannelError Unit) :
    ∃ x, start plainConfig (pageRequest policy) plainId opener 0 = .ok x := by
  refine exists_start ?_ opener 0
  have hpolicy : (pageRequest policy).encode plainId (plainConfig.endpoint .proxy) =
      (pageRequest .default).encode plainId (plainConfig.endpoint .proxy) := rfl
  rw [hpolicy]
  decide +kernel

end ProofRelay.Exchange
