import ProofRelay.Proofs.Exchange.Advance
import ProofRelay.Proofs.Request

/-!
What an exchange does to the outside.  A request that cannot be encoded is refused before anything is
done.  Any other one has its channel opened once, and what the phase says of the rest (`Did`) is all
that is ever done: nothing while the request is at the gate, and one send when the gate is left.
-/

namespace ProofRelay.Exchange

/-- All that has been done to the outside, as far as the caller's side has come. -/
def Did (channel : String) (x : Exchange) : Prop :=
  match x.phase with
  | .gate _ => x.effects = [.openChannel channel]
  | .sending | .joining _ | .done _ => x.effects = [.openChannel channel, .send x.request]
  | .abandoned =>
    x.effects = [.openChannel channel] ∨ x.effects = [.openChannel channel, .send x.request]

theorem request_step (x : Exchange) (now : Instant) (stimulus : Stimulus) :
    (x.step now stimulus).request = x.request := by
  cases stimulus with
  | arrive item => rfl
  | look => rfl
  | resume =>
    show (x.resume now).request = x.request
    unfold resume
    split
    · split <;> rfl
    · split <;> rfl
    · rfl
  | reply result =>
    show (x.reply result).request = x.request
    unfold reply
    split
    · split
      · rfl
      · split <;> rfl
    · rfl
  | abandon =>
    show x.abandon.request = x.request
    unfold abandon
    split <;> rfl

theorem did_of_phase_eq {channel : String} {x y : Exchange} (h : x.Did channel) (hp : y.phase = x.phase)
    (he : y.effects = x.effects) (hr : y.request = x.request) : y.Did channel := by
  rw [Did, hp, he, hr]
  exact h

theorem did_step {channel : String} {x : Exchange} (h : x.Did channel) (now : Instant)
    (stimulus : Stimulus) : (x.step now stimulus).Did channel := by
  have hrequest := request_step x now stimulus
  cases advance_step x now stimulus with
  | stays phase effects => exact did_of_phase_eq h phase effects hrequest
  | sends gate phase effects =>
    rw [Did, gate] at h
    simp [Did, phase, effects, hrequest, h]
  | answered sent phase effects =>
    rw [Did, sent] at h
    simp [Did, phase, effects, hrequest, h]
  | fails sent phase effects =>
    rw [Did, sent] at h
    simp [Did, phase, effects, hrequest, h]
  | finishes joined _ phase effects =>
    rw [Did, joined] at h
    simp [Did, phase, effects, hrequest, h]
  | leaves going phase effects =>
    rw [Did, phase]
    rw [Did] at h
    rw [effects, hrequest]
    cases hp : x.phase with
    | gate deadline =>
      rw [hp] at h
      exact .inl h
    | sending | joining response =>
      rw [hp] at h
      exact .inr h
    | done result | abandoned => simp [isOver, hp] at going

theorem did_run {channel : String} {x : Exchange} (h : x.Did channel)
    (events : List (Instant × Stimulus)) :
    (x.run events).Did channel ∧ (x.run events).request = x.request := by
  induction events using List.reverseRecOn with
  | nil => exact ⟨h, rfl⟩
  | append_singleton events e ih =>
    obtain ⟨now, stimulus⟩ := e
    rw [run_append_singleton]
    exact ⟨did_step ih.1 now stimulus, (request_step ..).trans ih.2⟩

theorem Did.opened_or_sent {channel : String} {x : Exchange} (h : x.Did channel) :
    x.effects = [.openChannel channel] ∨ x.effects = [.openChannel channel, .send x.request] := by
  unfold Did at h
  cases hp : x.phase with
  | gate deadline =>
    rw [hp] at h
    exact .inl h
  | sending | joining response | done result =>
    rw [hp] at h
    exact .inr h
  | abandoned =>
    rw [hp] at h
    exact h

theorem Did.sent_of_result? {channel : String} {x : Exchange} (h : x.Did channel)
    {result : Except ClientError ProvenResponse} (hr : x.result? = some result) :
    x.effects = [.openChannel channel, .send x.request] := by
  unfold Did at h
  cases hp : x.phase with
  | done result =>
    rw [hp] at h
    exact h
  | gate | sending | joining | abandoned => simp [result?, hp] at hr

/-- What was done is never undone, nor followed by anything but the rest. -/
theorem run_keeps_effects (x : Exchange) (events : List (Instant × Stimulus)) :
    x.effects <+: (x.run events).effects := by
  induction events using List.reverseRecOn with
  | nil => exact List.prefix_refl _
  | append_singleton events e ih =>
    rw [run_append_singleton]
    exact ih.trans (advance_step (x.run events) e.1 e.2).keeps_effects

/-- After a request is sent, nothing else is done. -/
theorem Did.effects_run_of_sending {channel : String} {x : Exchange} (h : x.Did channel)
    (hsent : x.phase = .sending) (more : List (Instant × Stimulus)) :
    (x.run more).effects = [.openChannel channel, .send x.request] := by
  have heffects : x.effects = [.openChannel channel, .send x.request] := by
    rw [Did, hsent] at h
    exact h
  have hkept := run_keeps_effects x more
  obtain ⟨hrun, hrequest⟩ := did_run h more
  rcases hrun.opened_or_sent with hopened | hboth
  · rw [heffects, hopened] at hkept
    exact absurd hkept.length_le (by simp)
  · rw [hboth, hrequest]

/-! ## Beginning -/

theorem proofUrl_eq (config : Config) (id : RequestId) :
    config.proofUrl id = config.base ++ "/proof/" ++ id.text := by
  have hslash : config.base ++ "/proof" ++ "/" = config.base ++ "/proof/" := by
    rw [String.append_assoc]
    rfl
  rw [Config.proofUrl, Config.endpoint, ProverPath.text, hslash]

theorem start_eq_error {config : Config} {r : ProxyRequest} {id : RequestId} {error : ClientError}
    (h : r.encode id (config.endpoint .proxy) = .error error)
    (opener : String → Except ChannelError Unit) (now : Instant) :
    start config r id opener now = .error error := by
  rw [start, startBy, h]
  rfl

/-- What is done when an exchange begins. -/
theorem did_start {config : Config} {r : ProxyRequest} {id : RequestId} {request : Http.Request}
    (h : r.encode id (config.endpoint .proxy) = .ok request)
    (opener : String → Except ChannelError Unit) (now : Instant) :
    ∃ x, start config r id opener now = .ok x ∧ x.request = request ∧ x.Did (config.proofUrl id) := by
  rw [start, startBy, h]
  exact ⟨_, rfl, rfl, rfl⟩

theorem did_of_startBy {timer : Clock.Timer} {config : Config} {r : ProxyRequest} {rid : RequestId}
    {opener : String → Except ChannelError Unit} {now : Instant} {x : Exchange}
    (h : startBy timer config r rid opener now = .ok x) : x.Did (config.proofUrl rid) := by
  unfold startBy at h
  cases he : r.encode rid (config.endpoint .proxy) with
  | error error =>
    rw [he] at h
    cases h
  | ok request =>
    rw [he] at h
    cases h
    rfl

/-- What comes of beginning an exchange for a request that was built. -/
theorem start_cases {method : Http.Method} {url : String} {policy : Policy}
    {steps : List ProxyRequest.Step} {r : ProxyRequest}
    (hr : (ProxyRequest.start method url policy).build steps = .ok r) (config : Config)
    (bits : BitVec 122) (opener : String → Except ChannelError Unit) (now : Instant) :
    match Http.Uri.parse? (config.endpoint .proxy), Http.HeaderValue.ofText? r.url with
    | none, _ => start config r (.ofBits bits) opener now = .error ⟨.configuration, some .uri⟩
    | some _, none => start config r (.ofBits bits) opener now = .error .invalidHeaderValue
    | some uri, some _ => ∃ x, start config r (.ofBits bits) opener now = .ok x ∧ x.request.uri = uri ∧
        (∃ v, x.request.headers.values .requestId = [v] ∧ v.text? = some (RequestId.ofBits bits).text) ∧
        x.Did (config.proofUrl (.ofBits bits)) := by
  obtain ⟨vid, hvid, htext⟩ := RequestId.exists_headerValue bits
  cases hu : Http.Uri.parse? (config.endpoint .proxy) with
  | none => exact start_eq_error (ProxyRequest.encode_eq_error_of_endpoint hu) opener now
  | some uri =>
    cases ht : Http.HeaderValue.ofText? r.url with
    | none => exact start_eq_error (ProxyRequest.encode_eq_error_of_target hu ht) opener now
    | some target =>
      have hredaction := ProxyRequest.redactionEncodes_of_build hr
      obtain ⟨headers, hencode, hvalues⟩ := ProxyRequest.encode_eq_ok hredaction hu hvid ht
      obtain ⟨x, hx, hrequest, hdid⟩ := did_start hencode opener now
      refine ⟨x, hx, by rw [hrequest], ⟨vid, ?_, htext⟩, hdid⟩
      rw [hrequest, hvalues]
      simp [ProxyRequest.directive?]

/-- **What an exchange does to the outside,** for every request that was built, whatever the opener
says, and whatever arrives on the channel or as the reply, in any order and at any time:

* if the address of the proxy is no URI, or the target no header value, it fails and has done nothing;
* else the channel at the address of the proof is opened, and the request to the proxy, whose only
  id is the one in that address, is sent after it or not at all; nothing else is ever done;
* what was done stays; a result means that the request was sent, and so does a gate that was left;
* the gate is left at its deadline at the latest. -/
theorem opens_once_and_sends_once {method : Http.Method} {url : String} {policy : Policy}
    {steps : List ProxyRequest.Step} {r : ProxyRequest}
    (hr : (ProxyRequest.start method url policy).build steps = .ok r) (config : Config)
    (bits : BitVec 122) (opener : String → Except ChannelError Unit) (now : Instant) :
    let id := RequestId.ofBits bits
    let opening := Effect.openChannel (config.base ++ "/proof/" ++ id.text)
    match Http.Uri.parse? (config.base ++ "/proxy"), Http.HeaderValue.ofText? r.url with
    | none, _ => start config r id opener now = .error ⟨.configuration, some .uri⟩
    | some _, none => start config r id opener now = .error .invalidHeaderValue
    | some uri, some _ => ∃ x, start config r id opener now = .ok x ∧ x.request.uri = uri ∧
        (∃ v, x.request.headers.values .requestId = [v] ∧ v.text? = some id.text) ∧
        ∀ events,
          let y := x.run events
          (y.effects = [opening] ∨ y.effects = [opening, .send x.request]) ∧
          (∀ more, y.effects <+: (y.run more).effects) ∧
          (∀ result, y.result? = some result → y.effects = [opening, .send x.request]) ∧
          ∀ deadline moment, y.phase = .gate deadline → deadline ≤ moment →
            (y.resume moment).effects = [opening, .send x.request] := by
  intro id opening
  have hendpoint : config.base ++ "/proxy" = config.endpoint .proxy := rfl
  have hchannel : config.base ++ "/proof/" ++ id.text = config.proofUrl id := (proofUrl_eq config id).symm
  have hstart := start_cases hr config bits opener now
  rw [hendpoint]
  cases hu : Http.Uri.parse? (config.endpoint .proxy) with
  | none =>
    rw [hu] at hstart
    exact hstart
  | some uri =>
    rw [hu] at hstart
    cases ht : Http.HeaderValue.ofText? r.url with
    | none =>
      rw [ht] at hstart
      exact hstart
    | some target =>
      rw [ht] at hstart
      obtain ⟨x, hx, huri, hheader, hdid⟩ := hstart
      refine ⟨x, hx, huri, hheader, ?_⟩
      intro events y
      obtain ⟨hy, hsame⟩ := did_run hdid events
      refine ⟨?_, fun more => run_keeps_effects y more, fun result hresult => ?_, ?_⟩
      · have hdone := hy.opened_or_sent
        rw [hsame, ← hchannel] at hdone
        exact hdone
      · have hdone := hy.sent_of_result? hresult
        rw [hsame, ← hchannel] at hdone
        exact hdone
      · intro deadline moment hgate hmoment
        have hsent := phase_resume_of_gate hgate hmoment
        have hdone : (y.resume moment).Did (config.proofUrl id) := did_step hy moment .resume
        have hkept : (y.resume moment).request = x.request := (request_step y moment .resume).trans hsame
        rw [Did, hsent, hkept, ← hchannel] at hdone
        exact hdone

/-- The headers of a caller that names an id of its own. -/
def ownId : Http.Headers := Http.Headers.empty.append .requestId (.ofText "mine")

/-- A course in which there is no channel, so that the gate lets the request through at once, and the
transport fails. -/
def failing : List (Instant × Stimulus) := [(0, .look), (0, .resume), (10, .reply (.error ⟨.http, none⟩))]

theorem result?_failing {config : Config} {r : ProxyRequest} {id : RequestId} {x : Exchange}
    (hx : start config r id (fun _ => .error .closed) 0 = .ok x) :
    (x.run failing).result? = some (.error ⟨.http, none⟩) := by
  obtain ⟨hpolicy, hproves, hsub, hphase⟩ := start_eq_ok hx
  obtain ⟨policy, proves, request, subscription, phase, effects⟩ := x
  subst hpolicy hproves hsub hphase
  rfl

/-- The request of such a caller is sent with the id of its channel alone, and nothing is opened or
sent again after it has failed. -/
theorem opens_once_and_sends_once_of_failures :
    ∃ r, (pageRequest .default).build [.headers ownId] = .ok r ∧
      ∃ x, start plainConfig r (.ofBits 5) (fun _ => .error .closed) 0 = .ok x ∧
      (∃ v, x.request.headers.values .requestId = [v] ∧
        v.text? = some "00000000-0000-4000-8000-000000000005") ∧
      ∀ later, (x.run (failing ++ later)).effects =
        [.openChannel "http://prover:8080/proof/00000000-0000-4000-8000-000000000005",
          .send x.request] := by
  have hbuild : (pageRequest .default).build [.headers ownId] =
      .ok { pageRequest .default with headers := Http.Headers.empty.merge ownId } := rfl
  refine ⟨_, hbuild, ?_⟩
  have hid : (RequestId.ofBits 5).text = "00000000-0000-4000-8000-000000000005" := by decide +kernel
  have hchannel : plainConfig.base ++ "/proof/" ++ "00000000-0000-4000-8000-000000000005" =
      "http://prover:8080/proof/00000000-0000-4000-8000-000000000005" := by decide +kernel
  have huri : Http.Uri.parse? (plainConfig.base ++ "/proxy") ≠ none := by decide +kernel
  have htarget : Http.HeaderValue.ofText? "https://api.example.com/data" ≠ none := by decide +kernel
  have hmain := opens_once_and_sends_once hbuild plainConfig 5 (fun _ => .error .closed) 0
  simp only [hid, hchannel] at hmain
  split at hmain
  · next h => exact absurd h huri
  · next h => exact absurd h htarget
  · obtain ⟨x, hx, -, hvalue, hrun⟩ := hmain
    refine ⟨x, hx, hvalue, fun later => ?_⟩
    have hsent := (hrun failing).2.2.1 _ (result?_failing hx)
    have hkept := (hrun failing).2.1 later
    rcases (hrun (failing ++ later)).1 with hopened | hdone
    · rw [run_append] at hopened
      rw [hsent, hopened] at hkept
      exact absurd hkept.length_le (by simp)
    · exact hdone

end ProofRelay.Exchange
