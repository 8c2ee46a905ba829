import ProofRelay.Proofs.Exchange.Advance
import ProofRelay.Response

/-!
Where the proof of a result comes from.  An exchange takes what its channel brings and nothing else:
if all messages that arrive have a property, so has the payload from which the result has its proof
(`Bears`).
-/

namespace ProofRelay

namespace Subscription

/-- All that a subscription has from its channel has a property. -/
structure Bears (P : String → Prop) (s : Subscription) : Prop where
  inbox : ∀ text, .message text ∈ s.inbox → P text
  outcome : ∀ payload, s.outcome? = some (.delivered payload) → P payload.raw

variable {P : String → Prop} {s : Subscription}

theorem Bears.pass (h : s.Bears P) (now deadline : Instant) : (s.pass now deadline).Bears P := by
  unfold Subscription.pass
  split
  · exact ⟨h.inbox, by rintro payload ⟨⟩⟩
  split
  · next item rest hi =>
    have hrest : ∀ text, .message text ∈ rest → P text :=
      fun text hmem => h.inbox text (by rw [hi]; exact List.mem_cons_of_mem _ hmem)
    split
    · next outcome ho =>
      refine ⟨hrest, fun payload hpayload => ?_⟩
      replace hpayload : some outcome = some (.delivered payload) := hpayload
      rw [hpayload] at ho
      -- only a message is delivered, and it was in the inbox
      cases item with
      | message text =>
        cases ho
        exact h.inbox text (by simp [hi])
      | opened | failed | ended | crashed => cases ho
    · exact ⟨hrest, by rintro payload ⟨⟩⟩
  · next hi =>
    have hnone : ∀ text, .message text ∈ s.inbox → P text := h.inbox
    split
    · exact ⟨hnone, by rintro payload ⟨⟩⟩
    · exact ⟨hnone, by rintro payload ⟨⟩⟩

theorem Bears.look (h : s.Bears P) (now : Instant) : (s.look now).Bears P := by
  unfold Subscription.look
  split
  · exact ⟨h.inbox, by rintro payload ⟨⟩⟩
  · exact h.pass ..
  · exact h.pass ..
  · exact h

theorem Bears.step (h : s.Bears P) (now : Instant) {stimulus : Stimulus}
    (hm : ∀ text, stimulus = .arrive (.message text) → P text) : (s.step now stimulus).Bears P := by
  cases stimulus with
  | arrive item =>
    show (s.arrive item).Bears P
    unfold Subscription.arrive
    split
    · refine ⟨fun text hmem => ?_, h.outcome⟩
      rcases List.mem_append.mp hmem with hmem | hmem
      · exact h.inbox text hmem
      · exact hm text (by rw [List.mem_singleton.mp hmem])
    · exact h
  | close => exact ⟨h.inbox, h.outcome⟩
  | look => exact h.look now

end Subscription

namespace Exchange

/-- All that an exchange has from its channel has a property, up to the proof of its result. -/
structure Bears (P : String → Prop) (x : Exchange) : Prop where
  subscription : x.subscription.Bears P
  result : ∀ r, x.result? = some (.ok r) → (r.notaryPubKey = none ∧ r.proof = none) ∨
    ∃ text, P text ∧ r.notaryPubKey = some (Payload.mk text).key ∧ r.proof = some (Payload.mk text).proof

theorem compose_cases {response : Http.Response} {outcome : Outcome} {policy : Policy}
    {r : ProvenResponse} (h : ProvenResponse.compose response outcome policy = .ok r) :
    (r.notaryPubKey = none ∧ r.proof = none) ∨
      ∃ payload, outcome = .delivered payload ∧ r.notaryPubKey = some payload.key ∧
        r.proof = some payload.proof := by
  unfold ProvenResponse.compose at h
  split at h
  · split at h
    · cases h
    · cases h
      exact .inl ⟨rfl, rfl⟩
  · cases h
    cases outcome with
    | delivered payload =>
      by_cases he : payload.isEmpty = true
      · exact .inl (by simp [ProvenResponse.attach, he, ProvenResponse.unproven])
      · exact .inr ⟨payload, rfl, by simp [ProvenResponse.attach, he]⟩
    | timedOut | streamError | unavailable | cancelled => exact .inl ⟨rfl, rfl⟩

variable {P : String → Prop} {x : Exchange}

theorem bears_start {config : Config} {r : ProxyRequest} {id : RequestId}
    {opener : String → Except ChannelError Unit} {now : Instant}
    (hx : start config r id opener now = .ok x) : x.Bears P := by
  obtain ⟨-, -, hsub, hphase⟩ := start_eq_ok hx
  refine ⟨⟨?_, ?_⟩, ?_⟩
  · rw [hsub]
    simp [Subscription.start]
  · rw [hsub]
    simp [Subscription.start, Subscription.outcome?]
  · simp [result?, hphase]

/-- **Whatever happens to an exchange,** it has its proof from what its channel brings. -/
theorem Bears.step (h : x.Bears P) (now : Instant) {stimulus : Stimulus}
    (hm : ∀ text, stimulus = .arrive (.message text) → P text) : (x.step now stimulus).Bears P := by
  refine ⟨?_, fun r hr => ?_⟩
  · cases hs : stimulus.toSubscription? with
    | some stimulus' =>
      rw [subscription_step_of_task x now hs]
      refine h.subscription.step now fun text heq => hm text ?_
      subst heq
      cases stimulus <;> cases hs
      rfl
    | none =>
      rcases subscription_step_of_caller x now hs with hsame | hclosed
      · rw [hsame]
        exact h.subscription
      · rw [hclosed]
        exact ⟨h.subscription.inbox, h.subscription.outcome⟩
  · have hresult : ∀ {y : Exchange}, y.phase = x.phase → y.result? = some (.ok r) →
        x.result? = some (.ok r) := by
      intro y hp hy
      rw [result?, hp] at hy
      exact hy
    cases advance_step x now stimulus with
    | stays phase => exact h.result r (hresult phase hr)
    | sends _ phase => simp [result?, phase] at hr
    | answered _ phase => simp [result?, phase] at hr
    | fails _ phase => simp [result?, phase] at hr
    | leaves _ phase => simp [result?, phase] at hr
    | finishes _ ended phase =>
      rw [result?, phase, Option.some.injEq] at hr
      rcases compose_cases hr with hnone | ⟨payload, rfl, hkey, hproof⟩
      · exact .inl hnone
      · exact .inr ⟨payload.raw, h.subscription.outcome payload ended, hkey, hproof⟩

end Exchange
end ProofRelay
