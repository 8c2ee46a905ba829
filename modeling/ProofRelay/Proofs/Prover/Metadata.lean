import ProofRelay.Proofs.Exchange.Join
import ProofRelay.Proofs.Prover.Handling
import ProofRelay.Proofs.Request
import ProofRelay.Prover.Basic

/-!
What a prover sees of a request.  The client writes the id, the target and the directives into headers, and the
prover reads them again.  The two do not agree on all texts: one that is no visible ASCII can be a header value
and does not read as text.  And a directive that the client does not set leaves the headers of the caller, which
may have the same name.  So what is recorded is told from the request alone (`readProxied_of_encode`), and it is
what was asked for just if both are excluded:

    the recorded metadata are those of the request  ↔  the target and the redaction read as text, and a
      request without redaction has no readable one in its headers                    (metadata_round_trip_iff)
    the client waits for a proof just if one is published  ↔  the target reads as text, and it succeeds, or
      failures are to be proven, or the caller's headers do not ask for it; or the target does not read as
      text, and failures are not to be proven                                         (waits_iff_published_iff)
-/

namespace ProofRelay

open Http.HeaderValue (ReadsAsText)

namespace ProxyRequest

/-! ## What is read of an encoded request -/

/-- The redaction that a prover reads: what the request asks for, if it reads as text, and else what the caller
gave under the same name. -/
def readRedaction (r : ProxyRequest) : Option String :=
  match r.redaction with
  | some instruction => if ReadsAsText instruction then some instruction else none
  | none => r.headers.text? .redacted

/-- Whether the caller gave the mark to prove failures as a header. -/
def CallerMarks (r : ProxyRequest) : Prop :=
  r.headers.text? .proveFailedRequest = some Prover.setMark

instance (r : ProxyRequest) : Decidable r.CallerMarks := by unfold CallerMarks; infer_instance

/-- What a prover records of a request whose target reads as text. -/
def proxied (r : ProxyRequest) (id : RequestId) : ProxiedRequest where
  id := id.text
  method := r.method
  target := r.url
  redacted := r.readRedaction
  provesFailed := r.provesFailed || r.CallerMarks
  body := r.body

section
variable {r : ProxyRequest} {bits : BitVec 122} {endpoint : String} {q : Http.Request}
  (hr : r.RedactionEncodes) (hq : r.encode (.ofBits bits) endpoint = .ok q)

include hr hq

/-- **What a prover reads of an encoded request** is told from the request alone. -/
theorem readProxied_of_encode :
    Prover.readProxied q.method q.headers q.body =
      if ReadsAsText r.url then some (r.proxied (.ofBits bits)) else none := by
  obtain ⟨vid, target, hid, htarget, hmethod, hbody, hvalues⟩ := parts_of_encode hr hq
  -- every header that is read holds a directive alone, or what the caller gave
  have hread : ∀ name, q.headers.text? name =
      (r.directive? vid target name).elim (r.headers.text? name) (·.text?) := by
    intro name
    simp only [Http.Headers.text?, Http.Headers.first?, hvalues name]
    cases r.directive? vid target name <;> rfl
  have hidText : q.headers.text? .requestId = some (RequestId.ofBits bits).text := by
    simp [hread, directive?, hid]
  have htargetText : q.headers.text? .proxyUrl = if ReadsAsText r.url then some r.url else none := by
    have hne : Http.HeaderName.proxyUrl ≠ .requestId := by decide
    simp [hread, directive?, hne, Http.HeaderValue.text?_of_ofText? htarget]
  have hredactionText : q.headers.text? .redacted = r.readRedaction := by
    have hne : Http.HeaderName.redacted ≠ .requestId ∧ Http.HeaderName.redacted ≠ .proxyUrl := by decide
    unfold readRedaction
    cases hi : r.redaction with
    | none => simp [hread, directive?, hne, hi]
    | some instruction =>
      obtain ⟨v, hv⟩ := hr instruction hi
      simp [hread, directive?, hne, hi, hv, Http.HeaderValue.text?_of_ofText? hv]
  have hmark : decide (q.headers.text? .proveFailedRequest = some Prover.setMark) =
      (r.provesFailed || decide r.CallerMarks) := by
    have hne : Http.HeaderName.proveFailedRequest ≠ .requestId ∧
        Http.HeaderName.proveFailedRequest ≠ .proxyUrl ∧
        Http.HeaderName.proveFailedRequest ≠ .redacted := by decide
    have hset : setMark.text? = some Prover.setMark := by decide +kernel
    cases hp : r.provesFailed with
    | true => simp [hread, directive?, hne, hp, hset]
    | false => simp [hread, directive?, hne, hp, CallerMarks]
  rw [Prover.readProxied, hidText, htargetText, hredactionText, hmark, hmethod, hbody]
  by_cases ht : ReadsAsText r.url
  · simp [ht, proxied]
  · simp [ht]

end

/-- What a prover is to record of a request. -/
def RecordedAs (r : ProxyRequest) (id : RequestId) (seen : ProxiedRequest) : Prop :=
  seen.id = id.text ∧ seen.target = r.url ∧ seen.redacted = r.redaction ∧ seen.method = r.method ∧
    seen.body = r.body

theorem readRedaction_eq_iff {r : ProxyRequest} :
    r.readRedaction = r.redaction ↔
      (∀ instruction, r.redaction = some instruction → ReadsAsText instruction) ∧
        (r.redaction = none → r.headers.text? .redacted = none) := by
  unfold readRedaction
  cases r.redaction with
  | none => simp
  | some instruction => simp

/-- Whether the client waits for the proof of a response with this status. -/
def Waits (r : ProxyRequest) (status : Http.Status) : Prop :=
  status.isSuccess = true ∨ r.provesFailed = true

/-- That is what an exchange decides by whether it waits. -/
theorem isProven_iff_waits {config : Config} {r : ProxyRequest} {id : RequestId}
    {opener : String → Except ChannelError Unit} {now : Instant} {x : Exchange}
    (hx : Exchange.start config r id opener now = .ok x) (response : Http.Response) :
    x.isProven response = true ↔ r.Waits response.status := by
  obtain ⟨-, hproves, -, -⟩ := Exchange.start_eq_ok hx
  rw [Exchange.isProven, hproves, Bool.or_eq_true, Waits]

end ProxyRequest

namespace Prover

section
variable {r : ProxyRequest} {bits : BitVec 122} {endpoint : String} {q : Http.Request}
  (hr : r.RedactionEncodes) (hq : r.encode (.ofBits bits) endpoint = .ok q) (p : Prover) (now : Instant)

include hr hq

/-- A request whose target does not read as text is refused, and any other one is recorded. -/
theorem proxy_of_encode :
    p.proxy now q.method q.headers q.body =
      if ReadsAsText r.url then
        (.json (Target.status r.url) (echo (r.proxied (.ofBits bits))).write,
          p.record now (r.proxied (.ofBits bits)))
      else (.plain .badRequest "missing proxy headers", p) := by
  rw [proxy, ProxyRequest.readProxied_of_encode hr hq]
  by_cases ht : ReadsAsText r.url
  · rw [if_pos ht, if_pos ht]
    rfl
  · rw [if_neg ht, if_neg ht]

/-! ## What is recorded -/

theorem requests_of_encode :
    (p.proxy now q.method q.headers q.body).2.requests =
      if ReadsAsText r.url then p.requests ++ [r.proxied (.ofBits bits)] else p.requests := by
  rw [proxy_of_encode hr hq]
  split <;> rfl

theorem recorded_iff :
    (∃ seen, (p.proxy now q.method q.headers q.body).2.requests = p.requests ++ [seen] ∧
        r.RecordedAs (.ofBits bits) seen) ↔
      ReadsAsText r.url ∧ r.readRedaction = r.redaction := by
  rw [requests_of_encode hr hq]
  by_cases ht : ReadsAsText r.url
  · rw [if_pos ht]
    constructor
    · rintro ⟨seen, hseen, -, -, hredacted, -, -⟩
      obtain rfl : r.proxied (.ofBits bits) = seen := by simpa using hseen
      exact ⟨ht, hredacted⟩
    · rintro ⟨-, hredacted⟩
      exact ⟨r.proxied (.ofBits bits), rfl, rfl, rfl, hredacted, rfl, rfl⟩
  · rw [if_neg ht]
    constructor
    · rintro ⟨seen, hseen, -⟩
      simp at hseen
    · rintro ⟨hread, -⟩
      exact absurd hread ht

end

theorem proxyEndpoint_parses : (Http.Uri.parse? "http://prover:8080/proxy").isSome = true := by decide +kernel

/-- **The metadata of a request** that was built and encoded are recorded by the prover that gets it just if
the target and the redaction read as text, and nothing that reads as a redaction stands among the headers of
the caller when none was asked for.  A target that does not read as text is refused, and nothing is recorded;
else one request is, with all but the redaction as it was asked for. -/
theorem metadata_round_trip_iff {method : Http.Method} {url : String} {policy : Policy}
    {steps : List ProxyRequest.Step} {r : ProxyRequest}
    (hbuild : (ProxyRequest.start method url policy).build steps = .ok r) {bits : BitVec 122}
    {endpoint : String} {q : Http.Request} (hq : r.encode (.ofBits bits) endpoint = .ok q)
    (p : Prover) (now : Instant) :
    let id := RequestId.ofBits bits
    let after := (p.proxy now q.method q.headers q.body).2
    (if ReadsAsText r.url then after.requests = p.requests ++ [r.proxied id] else after = p) ∧
      ((∃ seen, after.requests = p.requests ++ [seen] ∧ r.RecordedAs id seen) ↔
        ReadsAsText r.url ∧
          (∀ instruction, r.redaction = some instruction → ReadsAsText instruction) ∧
          (r.redaction = none → r.headers.text? .redacted = none)) := by
  intro id after
  have hr := ProxyRequest.redactionEncodes_of_build hbuild
  refine ⟨?_, ?_⟩
  · by_cases ht : ReadsAsText r.url
    · rw [if_pos ht]
      exact (requests_of_encode hr hq p now).trans (if_pos ht)
    · rw [if_neg ht]
      exact congrArg Prod.snd ((proxy_of_encode hr hq p now).trans (if_neg ht))
  · rw [← ProxyRequest.readRedaction_eq_iff]
    exact recorded_iff hr hq p now

/-- A request that names an id and a redaction of its own in its headers is recorded with those that it was
given. -/
theorem metadata_round_trip_of_own_headers :
    let given := (Http.Headers.empty.append .requestId (.ofText "mine")).append .redacted (.ofText "none")
    ∃ r, (ProxyRequest.start .post "https://api.example.com/data" .default).build
        [.headers given, .redact "res:body:\tid", .body [0x00, 0xFF]] = .ok r ∧
      ∃ q, r.encode (.ofBits 5) "http://prover:8080/proxy" = .ok q ∧
        ∃ seen, (({ mode := .never } : Prover).proxy 0 q.method q.headers q.body).2.requests = [seen] ∧
          seen.id = "00000000-0000-4000-8000-000000000005" ∧ seen.target = "https://api.example.com/data" ∧
          seen.redacted = some "res:body:\tid" ∧ seen.method = .post ∧ seen.body = [0x00, 0xFF] := by
  intro given
  let r : ProxyRequest := { ProxyRequest.start .post "https://api.example.com/data" .default with
    headers := Http.Headers.empty.merge given, redaction := some "res:body:\tid", body := [0x00, 0xFF] }
  have hbuild : (ProxyRequest.start .post "https://api.example.com/data" .default).build
      [.headers given, .redact "res:body:\tid", .body [0x00, 0xFF]] = .ok r := rfl
  obtain ⟨q, hq⟩ := ProxyRequest.exists_encode (ProxyRequest.redactionEncodes_of_build hbuild) 5
    proxyEndpoint_parses (by decide +kernel)
  refine ⟨r, hbuild, q, hq, ?_⟩
  have htarget : ReadsAsText "https://api.example.com/data" := by decide +kernel
  have hinstruction : ReadsAsText "res:body:\tid" := by decide +kernel
  have hid : (RequestId.ofBits 5).text = "00000000-0000-4000-8000-000000000005" := by decide +kernel
  obtain ⟨seen, hseen, hrecorded⟩ := (metadata_round_trip_iff hbuild hq { mode := .never } 0).2.mpr
    ⟨htarget, by rintro _ ⟨⟩; exact hinstruction, by rintro ⟨⟩⟩
  rw [ProxyRequest.RecordedAs, hid] at hrecorded
  exact ⟨seen, hseen, hrecorded⟩

/-- A redaction that does not read as text is recorded as none, a header of the caller as a redaction that
nobody asked for, and nothing is recorded for a target that does not read as text. -/
theorem metadata_lost_or_made_up :
    let given := Http.Headers.empty.append .redacted (.ofText "res:body:id")
    let p : Prover := { mode := .prove }
    (∃ r q, (ProxyRequest.start .get "https://api.example.com/data" .default).build
          [.redact "res:body:é"] = .ok r ∧
        r.encode (.ofBits 5) "http://prover:8080/proxy" = .ok q ∧ r.redaction = some "res:body:é" ∧
        (p.proxy 0 q.method q.headers q.body).2.requests.map (·.redacted) = [none]) ∧
      (∃ r q, (ProxyRequest.start .get "https://api.example.com/data" .default).build
          [.headers given] = .ok r ∧
        r.encode (.ofBits 5) "http://prover:8080/proxy" = .ok q ∧ r.redaction = none ∧
        (p.proxy 0 q.method q.headers q.body).2.requests.map (·.redacted) = [some "res:body:id"]) ∧
      ∃ r q, (ProxyRequest.start .get "https://api.example.com/é" .default).build [] = .ok r ∧
        r.encode (.ofBits 5) "http://prover:8080/proxy" = .ok q ∧
        (p.proxy 0 q.method q.headers q.body).2.requests = [] := by
  intro given p
  refine ⟨?_, ?_, ?_⟩
  · let r : ProxyRequest := { ProxyRequest.start .get "https://api.example.com/data" .default with
      redaction := some "res:body:é" }
    have hbuild : (ProxyRequest.start .get "https://api.example.com/data" .default).build
        [.redact "res:body:é"] = .ok r := rfl
    have hr := ProxyRequest.redactionEncodes_of_build hbuild
    obtain ⟨q, hq⟩ := ProxyRequest.exists_encode hr 5 proxyEndpoint_parses (by decide +kernel)
    refine ⟨r, q, hbuild, hq, rfl, ?_⟩
    rw [requests_of_encode hr hq]
    decide +kernel
  · let r : ProxyRequest := { ProxyRequest.start .get "https://api.example.com/data" .default with
      headers := Http.Headers.empty.merge given }
    have hbuild : (ProxyRequest.start .get "https://api.example.com/data" .default).build
        [.headers given] = .ok r := rfl
    have hr := ProxyRequest.redactionEncodes_of_build hbuild
    obtain ⟨q, hq⟩ := ProxyRequest.exists_encode hr 5 proxyEndpoint_parses (by decide +kernel)
    refine ⟨r, q, hbuild, hq, rfl, ?_⟩
    rw [requests_of_encode hr hq]
    decide +kernel
  · let r : ProxyRequest := ProxyRequest.start .get "https://api.example.com/é" .default
    have hbuild : r.build [] = .ok r := rfl
    have hr := ProxyRequest.redactionEncodes_of_build hbuild
    obtain ⟨q, hq⟩ := ProxyRequest.exists_encode hr 5 proxyEndpoint_parses (by decide +kernel)
    refine ⟨r, q, hbuild, hq, ?_⟩
    rw [requests_of_encode hr hq]
    decide +kernel

/-! ## When there is a proof -/

/-- Whether a prover has published the proof of an id. -/
def Publishes (p : Prover) (now : Instant) (id : RequestId) (after : Prover) : Prop :=
  after.slots = p.slots.publish now id.text (notaryPubKey ++ "|proof-for-" ++ id.text)

section
variable {r : ProxyRequest} {bits : BitVec 122} {endpoint : String} {q : Http.Request}
  (hr : r.RedactionEncodes) (hq : r.encode (.ofBits bits) endpoint = .ok q) (p : Prover) (now : Instant)

include hr hq

theorem waits_iff :
    r.Waits (p.proxy now q.method q.headers q.body).1.status ↔
      ReadsAsText r.url ∧ (Target.status r.url).isSuccess = true ∨ r.provesFailed = true := by
  rw [ProxyRequest.Waits, proxy_of_encode hr hq]
  by_cases ht : ReadsAsText r.url
  · simp [ht, ProverReply.json]
  · have hfails : Http.Status.badRequest.isSuccess = false := rfl
    simp [ht, ProverReply.plain, hfails]

theorem slots_of_encode :
    (p.proxy now q.method q.headers q.body).2.slots =
      if ReadsAsText r.url ∧
          ((Target.status r.url).isSuccess = true ∨ r.provesFailed = true ∨ r.CallerMarks) then
        p.slots.publish now (RequestId.ofBits bits).text
          (notaryPubKey ++ "|proof-for-" ++ (RequestId.ofBits bits).text)
      else p.slots := by
  rw [proxy_of_encode hr hq, ← raw_payloadFor]
  by_cases ht : ReadsAsText r.url
  · simp [ht, record, proves, ProxyRequest.proxied]
  · simp [ht]

theorem publishes_iff :
    Publishes p now (.ofBits bits) (p.proxy now q.method q.headers q.body).2 ↔
      ReadsAsText r.url ∧
        ((Target.status r.url).isSuccess = true ∨ r.provesFailed = true ∨ r.CallerMarks) := by
  have hne := Slots.publish_ne p.slots now (RequestId.ofBits bits).text
    (notaryPubKey ++ "|proof-for-" ++ (RequestId.ofBits bits).text)
  rw [Publishes, slots_of_encode hr hq]
  split
  · next h => exact iff_of_true rfl h
  · next h => exact iff_of_false hne.symm h

end

/-- **The client waits for a proof just if the prover has published one,** for every request that was built
and encoded, unless

* the target does not read as text, so that the request is refused, and failures are to be proven; or
* the target fails, failures are not to be proven, and the caller gave the mark that asks for it as a header.

A prover that does not publish leaves its slots as they were, and whether the client waits is what the exchange of
the request decides by. -/
theorem waits_iff_published_iff {method : Http.Method} {url : String} {policy : Policy}
    {steps : List ProxyRequest.Step} {r : ProxyRequest}
    (hbuild : (ProxyRequest.start method url policy).build steps = .ok r) {bits : BitVec 122}
    {endpoint : String} {q : Http.Request} (hq : r.encode (.ofBits bits) endpoint = .ok q)
    (p : Prover) (now : Instant) :
    let id := RequestId.ofBits bits
    let answered := p.proxy now q.method q.headers q.body
    let succeeds := (Target.status r.url).isSuccess = true
    (r.Waits answered.1.status ↔ ReadsAsText r.url ∧ succeeds ∨ r.provesFailed = true) ∧
      (Publishes p now id answered.2 ↔
        ReadsAsText r.url ∧ (succeeds ∨ r.provesFailed = true ∨ r.CallerMarks)) ∧
      (¬ Publishes p now id answered.2 → answered.2.slots = p.slots) ∧
      ((r.Waits answered.1.status ↔ Publishes p now id answered.2) ↔
        if ReadsAsText r.url then succeeds ∨ r.provesFailed = true ∨ ¬ r.CallerMarks
        else r.provesFailed = false) ∧
      ∀ {config : Config} {opener : String → Except ChannelError Unit} {began : Instant} {x : Exchange},
        Exchange.start config r id opener began = .ok x →
        ∀ response, x.isProven response = true ↔ r.Waits response.status := by
  intro id answered succeeds
  have hr := ProxyRequest.redactionEncodes_of_build hbuild
  have hwaits := waits_iff hr hq p now
  have hpublishes := publishes_iff hr hq p now
  refine ⟨hwaits, hpublishes, fun hnot => ?_, ?_, ProxyRequest.isProven_iff_waits⟩
  · exact (slots_of_encode hr hq p now).trans (if_neg fun h => hnot (hpublishes.mpr h))
  · rw [hwaits, hpublishes]
    by_cases ht : ReadsAsText r.url
    · have hmark : ∀ a b c : Prop, (a ∨ b ↔ a ∨ b ∨ c) ↔ a ∨ b ∨ ¬ c := by grind
      simpa only [ht, if_true, true_and] using hmark ..
    · simp [ht]

/-- The caller's own header does not stand in the way of a directive: the proof of a failure is waited for and
published. -/
theorem waits_iff_published_of_failure :
    let given := Http.Headers.empty.append .proveFailedRequest (.ofText "no")
    let p : Prover := { mode := .prove }
    ∃ r, (ProxyRequest.start .get "https://api.example.com/status/404" .default).build
        [.proveFailed, .headers given] = .ok r ∧
      ∃ q, r.encode (.ofBits 5) "http://prover:8080/proxy" = .ok q ∧
        r.Waits (p.proxy 0 q.method q.headers q.body).1.status ∧
        Publishes p 0 (.ofBits 5) (p.proxy 0 q.method q.headers q.body).2 := by
  intro given p
  let r : ProxyRequest := { ProxyRequest.start .get "https://api.example.com/status/404" .default with
    headers := Http.Headers.empty.merge given, provesFailed := true }
  have hbuild : (ProxyRequest.start .get "https://api.example.com/status/404" .default).build
      [.proveFailed, .headers given] = .ok r := rfl
  obtain ⟨q, hq⟩ := ProxyRequest.exists_encode (ProxyRequest.redactionEncodes_of_build hbuild) 5
    proxyEndpoint_parses (by decide +kernel)
  have htarget : ReadsAsText "https://api.example.com/status/404" := by decide +kernel
  obtain ⟨hwaits, hpublishes, -⟩ := waits_iff_published_iff hbuild hq p 0
  exact ⟨r, hbuild, q, hq, hwaits.mpr (.inr rfl), hpublishes.mpr ⟨htarget, .inr (.inl rfl)⟩⟩

/-- A caller's own header publishes a proof that nobody waits for, and the proof of a failure is waited for
when the request was refused. -/
theorem waiting_and_publishing_differ :
    let given := Http.Headers.empty.append .proveFailedRequest (.ofText "true")
    let p : Prover := { mode := .prove }
    (∃ r q, (ProxyRequest.start .get "https://api.example.com/status/404" .default).build
          [.headers given] = .ok r ∧
        r.encode (.ofBits 5) "http://prover:8080/proxy" = .ok q ∧
        ¬ r.Waits (p.proxy 0 q.method q.headers q.body).1.status ∧
        Publishes p 0 (.ofBits 5) (p.proxy 0 q.method q.headers q.body).2) ∧
      ∃ r q, (ProxyRequest.start .get "https://api.example.com/é" .default).build [.proveFailed] = .ok r ∧
        r.encode (.ofBits 5) "http://prover:8080/proxy" = .ok q ∧
        r.Waits (p.proxy 0 q.method q.headers q.body).1.status ∧
        ¬ Publishes p 0 (.ofBits 5) (p.proxy 0 q.method q.headers q.body).2 := by
  intro given p
  refine ⟨?_, ?_⟩
  · let r : ProxyRequest := { ProxyRequest.start .get "https://api.example.com/status/404" .default with
      headers := Http.Headers.empty.merge given }
    have hbuild : (ProxyRequest.start .get "https://api.example.com/status/404" .default).build
        [.headers given] = .ok r := rfl
    have hr := ProxyRequest.redactionEncodes_of_build hbuild
    obtain ⟨q, hq⟩ := ProxyRequest.exists_encode hr 5 proxyEndpoint_parses (by decide +kernel)
    refine ⟨r, q, hbuild, hq, ?_, ?_⟩
    · rw [waits_iff hr hq]
      decide +kernel
    · rw [publishes_iff hr hq]
      decide +kernel
  · let r : ProxyRequest := { ProxyRequest.start .get "https://api.example.com/é" .default with
      provesFailed := true }
    have hbuild : (ProxyRequest.start .get "https://api.example.com/é" .default).build [.proveFailed] =
        .ok r := rfl
    have hr := ProxyRequest.redactionEncodes_of_build hbuild
    obtain ⟨q, hq⟩ := ProxyRequest.exists_encode hr 5 proxyEndpoint_parses (by decide +kernel)
    refine ⟨r, q, hbuild, hq, ?_, ?_⟩
    · rw [waits_iff hr hq]
      exact .inr rfl
    · rw [publishes_iff hr hq]
      decide +kernel

end Prover
end ProofRelay
