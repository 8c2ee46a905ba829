import ProofRelay.Proofs.RequestId
import ProofRelay.Request

/-!
What a request to the prover is made of.  The directives of a request stand over the headers of the
caller (`directive?`), so encoding fails for the endpoint, the id or the target only, and each header
of the encoded request is a directive alone or what the caller gave (`encode_eq_ok`).
-/

namespace ProofRelay.ProxyRequest

/-! ## Building -/

/-- What every step keeps is kept by building. -/
theorem build_induction {P : ProxyRequest → Prop}
    (hstep : ∀ r step r', P r → Step.apply r step = .ok r' → P r') {r r' : ProxyRequest}
    {steps : List Step} (h : P r) (hb : r.build steps = .ok r') : P r' := by
  induction steps generalizing r with
  | nil =>
    cases hb
    exact h
  | cons step steps ih =>
    rw [build, List.foldlM_cons] at hb
    cases hs : Step.apply r step with
    | error error =>
      rw [hs] at hb
      cases hb
    | ok next =>
      rw [hs] at hb
      exact ih (hstep r step next h hs) hb

/-- The instruction to redact, if there is one, is a header value. -/
def RedactionEncodes (r : ProxyRequest) : Prop :=
  ∀ instruction, r.redaction = some instruction → ∃ v, Http.HeaderValue.ofText? instruction = some v

theorem redactionEncodes_apply {r r' : ProxyRequest} {step : Step} (h : r.RedactionEncodes)
    (hs : Step.apply r step = .ok r') : r'.RedactionEncodes := by
  have hother : r'.redaction = r.redaction → r'.RedactionEncodes := by
    intro heq instruction hi
    exact h instruction (heq ▸ hi)
  cases step with
  | redact given =>
    rw [Step.apply, headerValue] at hs
    cases hv : Http.HeaderValue.ofText? given with
    | none => rw [hv] at hs; cases hs
    | some v =>
      rw [hv] at hs
      cases hs
      rintro instruction ⟨⟩
      exact ⟨v, hv⟩
  | header name value =>
    rw [Step.apply] at hs
    split at hs
    · cases hs
    · cases hs
    · cases hs
      exact hother rfl
  | json value =>
    cases value with
    | ok value => cases hs; exact hother rfl
    | error failure => cases hs
  | headers given => cases hs; exact hother rfl
  | body bytes => cases hs; exact hother rfl
  | proveFailed => cases hs; exact hother rfl
  | throwOnError b => cases hs; exact hother rfl
  | proofTimeout span => cases hs; exact hother rfl
  | gateTimeout span => cases hs; exact hother rfl

/-- A request that was built can be redacted as it says. -/
theorem redactionEncodes_of_build {method : Http.Method} {url : String} {policy : Policy}
    {steps : List Step} {r : ProxyRequest} (h : (start method url policy).build steps = .ok r) :
    r.RedactionEncodes :=
  build_induction (P := RedactionEncodes) (fun _ _ _ h hs => redactionEncodes_apply h hs)
    (fun _ hi => by cases hi) h

/-! ## Encoding -/

/-- The value that a request sets for a name, whatever the caller gave. -/
def directive? (r : ProxyRequest) (id target : Http.HeaderValue) (name : Http.HeaderName) :
    Option Http.HeaderValue :=
  if name = .requestId then some id
  else if name = .proxyUrl then some target
  else if name = .redacted then r.redaction.bind Http.HeaderValue.ofText?
  else if name = .proveFailedRequest ∧ r.provesFailed = true then some setMark
  else none

theorem encode_eq_error_of_endpoint {r : ProxyRequest} {id : RequestId} {endpoint : String}
    (h : Http.Uri.parse? endpoint = none) : r.encode id endpoint = .error ⟨.configuration, some .uri⟩ := by
  rw [encode, h]
  rfl

theorem encode_eq_error_of_target {r : ProxyRequest} {id : RequestId} {endpoint : String} {uri : Http.Uri}
    (hu : Http.Uri.parse? endpoint = some uri) (ht : Http.HeaderValue.ofText? r.url = none) :
    r.encode id endpoint = .error .invalidHeaderValue := by
  rw [encode, hu]
  simp only [headerValue, ht]
  cases Http.HeaderValue.ofText? id.text <;> rfl

/-- Sets the only value of a name, if there is one to set. -/
def setIf (h : Http.Headers) (name : Http.HeaderName) : Option Http.HeaderValue → Http.Headers
  | some v => h.insert name v
  | none => h

theorem values_setIf (h : Http.Headers) (n m : Http.HeaderName) (v? : Option Http.HeaderValue) :
    (setIf h n v?).values m =
      if m = n then
        match v? with
        | some v => [v]
        | none => h.values m
      else h.values m := by
  cases v? with
  | none => simp [setIf]
  | some v => simp [setIf, Http.Headers.values_insert, eq_comm]

/-- **A request that can be encoded** keeps its method and its body, and each of its headers is a
directive alone, or what the caller gave. -/
theorem encode_eq_ok {r : ProxyRequest} {id : RequestId} {endpoint : String} {uri : Http.Uri}
    {vid target : Http.HeaderValue} (hr : r.RedactionEncodes)
    (hu : Http.Uri.parse? endpoint = some uri) (hid : Http.HeaderValue.ofText? id.text = some vid)
    (ht : Http.HeaderValue.ofText? r.url = some target) :
    ∃ headers, r.encode id endpoint = .ok ⟨r.method, uri, headers, r.body⟩ ∧
      ∀ name, headers.values name =
        match r.directive? vid target name with
        | some v => [v]
        | none => r.headers.values name := by
  let addressed := (r.headers.insert .requestId vid).insert .proxyUrl target
  let redacted := setIf addressed .redacted (r.redaction.bind Http.HeaderValue.ofText?)
  let marked := setIf redacted .proveFailedRequest (if r.provesFailed then some setMark else none)
  refine ⟨marked, ?_, fun name => ?_⟩
  · rw [encode, hu]
    simp only [headerValue, hid, ht]
    cases hi : r.redaction with
    | none =>
      simp only [marked, redacted, hi, Option.bind_none, setIf]
      cases r.provesFailed <;> rfl
    | some instruction =>
      obtain ⟨v, hv⟩ := hr instruction hi
      simp only [marked, redacted, hi, hv, Option.bind_some, setIf]
      cases r.provesFailed <;> rfl
  · -- the four names differ, so no directive takes the place of another one
    have hproxy : Http.HeaderName.proxyUrl ≠ .requestId := by decide
    have hredacted : Http.HeaderName.redacted ≠ .requestId ∧ Http.HeaderName.redacted ≠ .proxyUrl := by decide
    have hmark : Http.HeaderName.proveFailedRequest ≠ .requestId ∧
        Http.HeaderName.proveFailedRequest ≠ .proxyUrl ∧
        Http.HeaderName.proveFailedRequest ≠ .redacted := by decide
    simp only [marked, redacted, addressed, values_setIf, Http.Headers.values_insert, directive?]
    by_cases h1 : name = .requestId
    · simp [h1, hproxy, hredacted.1.symm, hmark.1.symm]
    by_cases h2 : name = .proxyUrl
    · simp [h2, hproxy, hredacted.2.symm, hmark.2.1.symm]
    by_cases h3 : name = .redacted
    · simp [h3, hredacted, hredacted.1.symm, hredacted.2.symm, hmark.2.2.symm]
    by_cases h4 : name = .proveFailedRequest
    · cases r.provesFailed <;> simp [h4, hmark, hmark.1.symm, hmark.2.1.symm]
    · simp [h1, h2, h3, h4, Ne.symm h1, Ne.symm h2]

/-- A request whose parts are header values can be encoded. -/
theorem exists_encode {r : ProxyRequest} {endpoint : String} (hr : r.RedactionEncodes) (bits : BitVec 122)
    (hu : (Http.Uri.parse? endpoint).isSome = true) (ht : (Http.HeaderValue.ofText? r.url).isSome = true) :
    ∃ q, r.encode (.ofBits bits) endpoint = .ok q := by
  obtain ⟨uri, hu⟩ := Option.isSome_iff_exists.mp hu
  obtain ⟨target, ht⟩ := Option.isSome_iff_exists.mp ht
  obtain ⟨vid, hvid, -⟩ := RequestId.exists_headerValue bits
  obtain ⟨headers, hq, -⟩ := encode_eq_ok hr hu hvid ht
  exact ⟨_, hq⟩

/-- What an encoded request is made of. -/
theorem parts_of_encode {r : ProxyRequest} {bits : BitVec 122} {endpoint : String} {q : Http.Request}
    (hr : r.RedactionEncodes) (hq : r.encode (.ofBits bits) endpoint = .ok q) :
    ∃ vid target, vid.text? = some (RequestId.ofBits bits).text ∧
      Http.HeaderValue.ofText? r.url = some target ∧ q.method = r.method ∧ q.body = r.body ∧
      ∀ name, q.headers.values name =
        match r.directive? vid target name with
        | some v => [v]
        | none => r.headers.values name := by
  obtain ⟨vid, hvid, htext⟩ := RequestId.exists_headerValue bits
  cases hu : Http.Uri.parse? endpoint with
  | none =>
    rw [encode_eq_error_of_endpoint hu] at hq
    cases hq
  | some uri =>
    cases ht : Http.HeaderValue.ofText? r.url with
    | none =>
      rw [encode_eq_error_of_target hu ht] at hq
      cases hq
    | some target =>
      obtain ⟨headers, hencode, hvalues⟩ := encode_eq_ok hr hu hvid ht
      rw [hencode] at hq
      cases hq
      exact ⟨vid, target, htext, rfl, rfl, rfl, hvalues⟩

end ProofRelay.ProxyRequest
