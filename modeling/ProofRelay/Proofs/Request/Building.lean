import Mathlib.Data.List.Induction
import ProofRelay.Proofs.Request

/-!
What steps make of a request.  A step fails by its own arguments alone (`Step.fault?`), or changes
the parts that it concerns and no others (`part_apply`), each by what it was and what the step gives.  So the
first fault is the one that building reports, every part comes of the steps that concern it, and two steps
that have no part in common can change places:

    r.build steps = .error e ↔ steps.findSome? Step.fault? = some e                  (build_eq_error_iff)
    r.build steps = .ok r' → r'.part p = steps.foldl (·.change p) (r.part p)                 (part_build)
    r.build (before ++ a :: b :: after) = r.build (before ++ b :: a :: after)                (build_swap)
-/

namespace ProofRelay.ProxyRequest

/-! ## Faults -/

/-- Why a step fails, whatever the request is. -/
def Step.fault? : Step → Option ClientError
  | .header name value =>
    if Http.HeaderName.ofBytes? name = none then some .invalidHeaderName
    else if Http.HeaderValue.ofBytes? value = none then some .invalidHeaderValue
    else none
  | .json (.error failure) => some ⟨.builder, some (.json failure)⟩
  | .redact instruction =>
    if Http.HeaderValue.ofText? instruction = none then some .invalidHeaderValue else none
  | _ => none

theorem apply_eq_error_iff {r : ProxyRequest} {step : Step} {error : ClientError} :
    Step.apply r step = .error error ↔ step.fault? = some error := by
  cases step with
  | header name value =>
    simp only [Step.apply, Step.fault?]
    cases Http.HeaderName.ofBytes? name with
    | none => simp
    | some n => cases Http.HeaderValue.ofBytes? value <;> simp
  | json value => cases value <;> simp [Step.apply, Step.fault?]
  | redact instruction =>
    simp only [Step.apply, Step.fault?, headerValue]
    cases Http.HeaderValue.ofText? instruction <;> simp [Except.map]
  | headers | body | proveFailed | throwOnError | proofTimeout | gateTimeout => simp [Step.apply, Step.fault?]

theorem exists_apply {step : Step} (h : step.fault? = none) (r : ProxyRequest) :
    ∃ r', Step.apply r step = .ok r' := by
  cases hs : Step.apply r step with
  | ok r' => exact ⟨r', rfl⟩
  | error error =>
    rw [apply_eq_error_iff.mp hs] at h
    cases h

theorem build_cons (r : ProxyRequest) (step : Step) (steps : List Step) :
    r.build (step :: steps) = (Step.apply r step).bind fun r => r.build steps := rfl

theorem build_append (r : ProxyRequest) (before after : List Step) :
    r.build (before ++ after) = (r.build before).bind fun r => r.build after :=
  List.foldlM_append

theorem build_cons_eq_ok {r r' : ProxyRequest} {step : Step} {steps : List Step} :
    r.build (step :: steps) = .ok r' ↔ ∃ next, Step.apply r step = .ok next ∧ next.build steps = .ok r' := by
  rw [build_cons]
  cases Step.apply r step <;> simp [Except.bind]

/-- **The first fault is the one that building reports.** -/
theorem build_eq_error_iff {r : ProxyRequest} {steps : List Step} {error : ClientError} :
    r.build steps = .error error ↔ steps.findSome? Step.fault? = some error := by
  induction steps generalizing r with
  | nil => simp [build, pure, Except.pure]
  | cons step steps ih =>
    rw [build_cons, List.findSome?_cons]
    cases hf : step.fault? with
    | some first =>
      rw [apply_eq_error_iff.mpr hf]
      simp [Except.bind]
    | none =>
      obtain ⟨next, hnext⟩ := exists_apply hf r
      rw [hnext]
      exact ih

theorem exists_build_iff (r : ProxyRequest) (steps : List Step) :
    (∃ r', r.build steps = .ok r') ↔ ∀ step ∈ steps, step.fault? = none := by
  rw [← List.findSome?_eq_none_iff]
  cases hb : r.build steps with
  | ok r' =>
    have hnone : steps.findSome? Step.fault? = none := by
      cases hf : steps.findSome? Step.fault? with
      | none => rfl
      | some error =>
        rw [build_eq_error_iff.mpr hf] at hb
        cases hb
    simp [hnone]
  | error error => simp [build_eq_error_iff.mp hb]

/-! ## Parts -/

/-- The parts of a request that steps concern. -/
inductive Part
  | headers
  | body
  | redaction
  | provesFailed
  | throwOnError
  | proofTimeout
  | gateTimeout
deriving DecidableEq, Repr

/-- What a part holds. -/
abbrev Part.Content : Part → Type
  | headers => Http.Headers
  | body => Bytes
  | redaction => Option String
  | provesFailed => Bool
  | throwOnError => Bool
  | proofTimeout => Duration
  | gateTimeout => Duration

/-- What a request has in a part. -/
def part (r : ProxyRequest) : (p : Part) → p.Content
  | .headers => r.headers
  | .body => r.body
  | .redaction => r.redaction
  | .provesFailed => r.provesFailed
  | .throwOnError => r.policy.throwOnError
  | .proofTimeout => r.policy.proofTimeout
  | .gateTimeout => r.policy.gateTimeout

/-- The parts that a step concerns; a JSON body has a content type. -/
def Step.parts : Step → List Part
  | .header .. | .headers _ => [.headers]
  | .body _ => [.body]
  | .json _ => [.headers, .body]
  | .redact _ => [.redaction]
  | .proveFailed => [.provesFailed]
  | .throwOnError _ => [.throwOnError]
  | .proofTimeout _ => [.proofTimeout]
  | .gateTimeout _ => [.gateTimeout]

/-- What a step that does not fail makes of a part, from what the part was. -/
def Step.change : Step → (p : Part) → p.Content → p.Content
  | .header name value, .headers, (h : Http.Headers) =>
    match Http.HeaderName.ofBytes? name, Http.HeaderValue.ofBytes? value with
    | some n, some v => h.append n v
    | _, _ => h
  | .headers given, .headers, (h : Http.Headers) => h.merge given
  | .json _, .headers, (h : Http.Headers) =>
    if h.has .contentType then h else h.insert .contentType jsonType
  | .body bytes, .body, _ => bytes
  | .json (.ok value), .body, _ => Utf8.encode value.write
  | .redact instruction, .redaction, _ => some instruction
  | .proveFailed, .provesFailed, _ => true
  | .throwOnError b, .throwOnError, _ => b
  | .proofTimeout span, .proofTimeout, _ => span
  | .gateTimeout span, .gateTimeout, _ => span
  | _, _, content => content

theorem change_of_not_mem {step : Step} {p : Part} (h : p ∉ step.parts) (content : p.Content) :
    step.change p content = content := by
  cases step <;> cases p <;> first | rfl | simp [Step.parts] at h

theorem change_header {name value : Bytes} {n : Http.HeaderName} {v : Http.HeaderValue}
    (hn : Http.HeaderName.ofBytes? name = some n) (hv : Http.HeaderValue.ofBytes? value = some v)
    (h : Http.Headers) : (Step.header name value).change .headers h = h.append n v := by
  show (match Http.HeaderName.ofBytes? name, Http.HeaderValue.ofBytes? value with
    | some n, some v => h.append n v
    | _, _ => h) = _
  rw [hn, hv]

/-- **A step changes each part by itself,** and neither the method nor the target. -/
theorem part_apply {r r' : ProxyRequest} {step : Step} (h : Step.apply r step = .ok r') :
    r'.method = r.method ∧ r'.url = r.url ∧ ∀ p, r'.part p = step.change p (r.part p) := by
  cases step with
  | header name value =>
    rw [Step.apply] at h
    split at h
    · cases h
    · cases h
    · next hn hv =>
      cases h
      refine ⟨rfl, rfl, fun p => ?_⟩
      cases p with
      | headers => exact (change_header hn hv _).symm
      | body | redaction | provesFailed | throwOnError | proofTimeout | gateTimeout => rfl
  | json value =>
    cases value with
    | ok value =>
      cases h
      exact ⟨rfl, rfl, fun p => by cases p <;> rfl⟩
    | error failure => cases h
  | redact instruction =>
    rw [Step.apply, headerValue] at h
    cases hv : Http.HeaderValue.ofText? instruction with
    | none => rw [hv] at h; cases h
    | some v =>
      rw [hv] at h
      cases h
      exact ⟨rfl, rfl, fun p => by cases p <;> rfl⟩
  | headers | body | proveFailed | throwOnError | proofTimeout | gateTimeout =>
    cases h
    exact ⟨rfl, rfl, fun p => by cases p <;> rfl⟩

theorem eq_of_part {r r' : ProxyRequest} (hmethod : r.method = r'.method) (hurl : r.url = r'.url)
    (h : ∀ p, r.part p = r'.part p) : r = r' := by
  obtain ⟨method, url, headers, body, redaction, provesFailed, throwOnError, proofTimeout, gateTimeout⟩ := r
  obtain ⟨method', url', headers', body', redaction', provesFailed', throwOnError', proofTimeout',
    gateTimeout'⟩ := r'
  obtain rfl : method = method' := hmethod
  obtain rfl : url = url' := hurl
  obtain rfl : headers = headers' := h .headers
  obtain rfl : body = body' := h .body
  obtain rfl : redaction = redaction' := h .redaction
  obtain rfl : provesFailed = provesFailed' := h .provesFailed
  obtain rfl : throwOnError = throwOnError' := h .throwOnError
  obtain rfl : proofTimeout = proofTimeout' := h .proofTimeout
  obtain rfl : gateTimeout = gateTimeout' := h .gateTimeout
  rfl

/-- **What steps make of a request,** if none of them fails: each part is changed by one step after another. -/
theorem part_build {r r' : ProxyRequest} {steps : List Step} (h : r.build steps = .ok r') :
    r'.method = r.method ∧ r'.url = r.url ∧
      ∀ p, r'.part p = steps.foldl (fun content step => step.change p content) (r.part p) := by
  induction steps generalizing r with
  | nil =>
    cases h
    exact ⟨rfl, rfl, fun p => rfl⟩
  | cons step steps ih =>
    obtain ⟨next, hnext, hrest⟩ := build_cons_eq_ok.mp h
    obtain ⟨hmethod, hurl, hpart⟩ := part_apply hnext
    obtain ⟨hmethod', hurl', hpart'⟩ := ih hrest
    refine ⟨hmethod'.trans hmethod, hurl'.trans hurl, fun p => ?_⟩
    rw [hpart', hpart, List.foldl_cons]

/-- Only the steps that concern a part change it. -/
theorem foldl_change_filter (steps : List Step) (p : Part) (content : p.Content) :
    (steps.filter (p ∈ ·.parts)).foldl (fun content step => step.change p content) content =
      steps.foldl (fun content step => step.change p content) content := by
  rw [List.foldl_filter]
  congr 1
  funext content step
  split
  · rfl
  · next h => exact (change_of_not_mem (by simpa using h) content).symm

/-- Two steps without a part in common make the same of a request in either order. -/
theorem apply_comm {a b : Step} (h : ∀ p ∈ a.parts, p ∉ b.parts) {r ra rab rb rba : ProxyRequest}
    (hra : Step.apply r a = .ok ra) (hrab : Step.apply ra b = .ok rab) (hrb : Step.apply r b = .ok rb)
    (hrba : Step.apply rb a = .ok rba) : rab = rba := by
  obtain ⟨hmethod, hurl, hpart⟩ := part_apply hra
  obtain ⟨hmethod₁, hurl₁, hpart₁⟩ := part_apply hrab
  obtain ⟨hmethod₂, hurl₂, hpart₂⟩ := part_apply hrb
  obtain ⟨hmethod₃, hurl₃, hpart₃⟩ := part_apply hrba
  refine eq_of_part ?_ ?_ fun p => ?_
  · rw [hmethod₁, hmethod, hmethod₃, hmethod₂]
  · rw [hurl₁, hurl, hurl₃, hurl₂]
  · rw [hpart₁, hpart, hpart₃, hpart₂]
    by_cases hp : p ∈ a.parts
    · rw [change_of_not_mem (h p hp), change_of_not_mem (h p hp)]
    · rw [change_of_not_mem hp, change_of_not_mem hp]

/-- **Steps without a part in common can change places,** if no more than one of them fails. -/
theorem build_swap {a b : Step} (h : ∀ p ∈ a.parts, p ∉ b.parts) (hone : a.fault? = none ∨ b.fault? = none)
    (r : ProxyRequest) (before after : List Step) :
    r.build (before ++ a :: b :: after) = r.build (before ++ b :: a :: after) := by
  rw [build_append, build_append]
  congr 1
  funext r
  cases ha : a.fault? with
  | some error =>
    obtain ⟨next, hnext⟩ := exists_apply (hone.resolve_left (by simp [ha])) r
    rw [build_cons, build_cons, apply_eq_error_iff.mpr ha, hnext]
    show _ = (Step.apply next a).bind _
    rw [apply_eq_error_iff.mpr ha]
    rfl
  | none =>
    obtain ⟨ra, hra⟩ := exists_apply ha r
    cases hb : b.fault? with
    | some error =>
      rw [build_cons, build_cons, apply_eq_error_iff.mpr hb, hra]
      show (Step.apply ra b).bind _ = _
      rw [apply_eq_error_iff.mpr hb]
      rfl
    | none =>
      obtain ⟨rb, hrb⟩ := exists_apply hb r
      obtain ⟨rab, hrab⟩ := exists_apply hb ra
      obtain ⟨rba, hrba⟩ := exists_apply ha rb
      have hsame : rab = rba := apply_comm h hra hrab hrb hrba
      rw [build_cons, build_cons, hra, hrb]
      show (Step.apply ra b).bind _ = (Step.apply rb a).bind _
      rw [hrab, hrba, hsame]

/-! ## What the parts come to -/

/-- The values of a header after a step, from those before it. -/
def Step.valuesAfter (name : Http.HeaderName) (before : List Http.HeaderValue) : Step → List Http.HeaderValue
  | .header n v =>
    if Http.HeaderName.ofBytes? n = some name then before ++ (Http.HeaderValue.ofBytes? v).toList else before
  | .headers given => if given.values name = [] then before else given.values name
  | .json _ => if name = .contentType ∧ before = [] then [jsonType] else before
  | _ => before

def Step.body? : Step → Option Bytes
  | .body bytes => some bytes
  | .json (.ok value) => some (Utf8.encode value.write)
  | _ => none

def Step.redaction? : Step → Option String
  | .redact instruction => some instruction
  | _ => none

def Step.throwOnError? : Step → Option Bool
  | .throwOnError b => some b
  | _ => none

def Step.proofTimeout? : Step → Option Duration
  | .proofTimeout span => some span
  | _ => none

def Step.gateTimeout? : Step → Option Duration
  | .gateTimeout span => some span
  | _ => none

/-- A request that came of steps: the last value given for a part counts, and the headers are what one step
after another has made of them. -/
structure Collects (method : Http.Method) (url : String) (policy : Policy) (steps : List Step)
    (r : ProxyRequest) : Prop where
  method : r.method = method
  url : r.url = url
  headers : ∀ name, r.headers.values name = steps.foldl (Step.valuesAfter name) []
  body : r.body = (steps.filterMap Step.body?).getLast?.getD []
  redaction : r.redaction = (steps.filterMap Step.redaction?).getLast?
  provesFailed : r.provesFailed = true ↔ .proveFailed ∈ steps
  throwOnError : r.policy.throwOnError =
    (steps.filterMap Step.throwOnError?).getLast?.getD policy.throwOnError
  proofTimeout : r.policy.proofTimeout =
    (steps.filterMap Step.proofTimeout?).getLast?.getD policy.proofTimeout
  gateTimeout : r.policy.gateTimeout =
    (steps.filterMap Step.gateTimeout?).getLast?.getD policy.gateTimeout

theorem values_change (h : Http.Headers) (name : Http.HeaderName) (step : Step) :
    Http.Headers.values (step.change .headers h) name = step.valuesAfter name (h.values name) := by
  cases step with
  | header n v =>
    show Http.Headers.values (match Http.HeaderName.ofBytes? n, Http.HeaderValue.ofBytes? v with
      | some n, some v => h.append n v
      | _, _ => h) name = _
    rw [Step.valuesAfter]
    cases Http.HeaderName.ofBytes? n with
    | none => simp
    | some n => cases Http.HeaderValue.ofBytes? v <;> simp [Http.Headers.values_append]
  | headers given => exact Http.Headers.values_merge h given name
  | json value =>
    show Http.Headers.values (if h.has .contentType then h else h.insert .contentType jsonType) name = _
    rw [Step.valuesAfter]
    by_cases hhas : h.has .contentType = true
    · have hne := Http.Headers.has_iff.mp hhas
      rw [if_pos hhas, if_neg]
      rintro ⟨rfl, hnil⟩
      exact hne hnil
    · have hnil : h.values .contentType = [] := by simpa using mt Http.Headers.has_iff.mpr hhas
      rw [if_neg hhas, Http.Headers.values_insert]
      by_cases hname : name = .contentType
      · simp [hname, hnil]
      · simp [hname, Ne.symm hname]
  | body | redact | proveFailed | throwOnError | proofTimeout | gateTimeout => rfl

/-- Where each step gives a new value or keeps the old one, the last value that is given counts. -/
theorem foldl_eq_last {α : Type} {next : α → Step → α} {given? : Step → Option α}
    (h : ∀ a step, next a step = (given? step).getD a) (first : α) (steps : List Step) :
    steps.foldl next first = (steps.filterMap given?).getLast?.getD first := by
  induction steps using List.reverseRecOn with
  | nil => rfl
  | append_singleton steps step ih =>
    rw [List.foldl_append, List.filterMap_append, List.foldl_cons, List.foldl_nil, ih, h]
    cases hg : given? step <;> simp [hg]

theorem foldl_provesFailed (b : Bool) (steps : List Step) :
    steps.foldl (fun content step => step.change .provesFailed content) b = true ↔
      b = true ∨ .proveFailed ∈ steps := by
  induction steps generalizing b with
  | nil => simp
  | cons step steps ih =>
    rw [List.foldl_cons, ih, List.mem_cons]
    cases step with
    | proveFailed => simp [Step.change]
    | header | headers | body | json | redact | throwOnError | proofTimeout | gateTimeout =>
      simp [Step.change]

/-- **Steps that do not fail** make a request of which each part is what they say. -/
theorem collects_of_build {method : Http.Method} {url : String} {policy : Policy} {steps : List Step}
    {r : ProxyRequest} (h : (start method url policy).build steps = .ok r) :
    r.Collects method url policy steps := by
  obtain ⟨hmethod, hurl, hpart⟩ := part_build h
  refine ⟨hmethod, hurl, fun name => ?_, ?_, ?_, ?_, ?_, ?_, ?_⟩
  · have hheaders : r.headers = steps.foldl (fun content step => step.change .headers content) .empty :=
      hpart .headers
    rw [hheaders]
    exact (List.foldl_hom (Http.Headers.values · name) fun h step => (values_change h name step).symm).symm
  · refine (hpart .body).trans (foldl_eq_last (fun a step => ?_) [] steps)
    rcases step with _ | _ | _ | (_ | _) | _ | _ | _ | _ | _ <;> rfl
  · have hset : r.redaction =
        (steps.filterMap fun step => step.redaction?.map some).getLast?.getD none :=
      (hpart .redaction).trans (foldl_eq_last (fun a step => by cases step <;> rfl) none steps)
    rw [hset, ← List.map_filterMap, List.getLast?_map]
    cases (steps.filterMap Step.redaction?).getLast? <;> rfl
  · have hset : r.provesFailed = steps.foldl (fun content step => step.change .provesFailed content) false :=
      hpart .provesFailed
    rw [hset, foldl_provesFailed]
    simp
  · refine (hpart .throwOnError).trans (foldl_eq_last (fun a step => ?_) policy.throwOnError steps)
    cases step <;> rfl
  · refine (hpart .proofTimeout).trans (foldl_eq_last (fun a step => ?_) policy.proofTimeout steps)
    cases step <;> rfl
  · refine (hpart .gateTimeout).trans (foldl_eq_last (fun a step => ?_) policy.gateTimeout steps)
    cases step <;> rfl

/-- **What building makes of steps,** in any order and of any number:

* it fails with an error just if this is the fault of a step and no step before it has one, whatever comes
  behind it;
* in any other case each part comes of the steps that concern it: the last value given counts, or what the
  request began with, the mark is set if a step sets it, and the headers are what one step after another has
  made of them; the steps that concern a part make the same of it without the others;
* two neighbours without a part in common can change places: if the steps make a request, they make the same
  one then, and they fail alike if no more than one of the two has a fault. -/
theorem parts_of_build (method : Http.Method) (url : String) (policy : Policy) (steps : List Step) :
    let r := start method url policy
    (∀ error, r.build steps = .error error ↔ ∃ before step after, steps = before ++ step :: after ∧
      step.fault? = some error ∧ ∀ s ∈ before, s.fault? = none) ∧
    ((∀ step ∈ steps, step.fault? = none) → ∃ built, r.build steps = .ok built ∧
      built.Collects method url policy steps ∧
      ∀ p, ∃ alone, r.build (steps.filter (p ∈ ·.parts)) = .ok alone ∧ alone.part p = built.part p) ∧
    ∀ before a b after, steps = before ++ a :: b :: after → (∀ p ∈ a.parts, p ∉ b.parts) →
      (∀ built, r.build steps = .ok built ↔ r.build (before ++ b :: a :: after) = .ok built) ∧
      (a.fault? = none ∨ b.fault? = none → r.build steps = r.build (before ++ b :: a :: after)) := by
  intro r
  refine ⟨fun error => ?_, fun hnone => ?_, ?_⟩
  · rw [build_eq_error_iff, List.findSome?_eq_some_iff]
  · obtain ⟨built, hbuilt⟩ := (exists_build_iff r steps).mpr hnone
    refine ⟨built, hbuilt, collects_of_build hbuilt, fun p => ?_⟩
    obtain ⟨alone, halone⟩ := (exists_build_iff r _).mpr fun step hstep =>
      hnone step (List.mem_filter.mp hstep).1
    refine ⟨alone, halone, ?_⟩
    rw [(part_build halone).2.2, (part_build hbuilt).2.2, foldl_change_filter]
  · rintro before a b after rfl hparts
    have hswap : a.fault? = none ∨ b.fault? = none →
        r.build (before ++ a :: b :: after) = r.build (before ++ b :: a :: after) :=
      fun hone => build_swap hparts hone r before after
    refine ⟨fun built => ?_, hswap⟩
    constructor
    · intro hbuilt
      have hfault := (exists_build_iff r _).mp ⟨built, hbuilt⟩ a (by simp)
      rw [← hswap (.inl hfault), hbuilt]
    · intro hbuilt
      have hfault := (exists_build_iff r _).mp ⟨built, hbuilt⟩ a (by simp)
      rw [hswap (.inl hfault), hbuilt]

/-- Two values for a header. -/
def twoTypes : Http.Headers := ⟨[(.accept, .ofText "text/html"), (.accept, .ofText "text/plain")]⟩

/-- Steps of several kinds, with a redaction that is given twice and a header that is given three times. -/
def mixedSteps : List Step :=
  [.redact "res:body", .header (Utf8.encode "Accept") (Utf8.encode "a"), .json (.ok (.object [])),
    .headers twoTypes, .throwOnError true, .header (Utf8.encode "ACCEPT") (Utf8.encode "b"),
    .redact "req:body", .proveFailed, .gateTimeout 7]

/-- They make a request, the same one if the last two change places, and fail with the first of two faults
that come behind them. -/
theorem parts_of_build_of_mixed_steps :
    let r := start .post "https://api.example.com/data" .default
    (∃ built, r.build mixedSteps = .ok built ∧ built.redaction = some "req:body" ∧
      built.body = Utf8.encode "\x7b\x7d" ∧ built.provesFailed = true ∧ built.policy.throwOnError = true ∧
      built.policy.proofTimeout = 30000 ∧ built.policy.gateTimeout = 7 ∧
      built.headers.values .contentType = [jsonType] ∧
      built.headers.values .accept = [.ofText "text/html", .ofText "text/plain", .ofText "b"] ∧
      r.build (mixedSteps.take 7 ++ [.gateTimeout 7, .proveFailed]) = .ok built) ∧
    r.build (mixedSteps ++ [.redact "\n", .json (.error .malformed), .throwOnError false]) =
      .error .invalidHeaderValue := by
  intro r
  have hnone : ∀ step ∈ mixedSteps, step.fault? = none := by decide +kernel
  have hparts := parts_of_build .post "https://api.example.com/data" .default
  obtain ⟨built, hbuilt, hcollects, -⟩ := (hparts mixedSteps).2.1 hnone
  refine ⟨⟨built, hbuilt, ?_, ?_, ?_, ?_, ?_, ?_, ?_, ?_, ?_⟩, ?_⟩
  · rw [hcollects.redaction]
    rfl
  · rw [hcollects.body]
    decide +kernel
  · exact hcollects.provesFailed.mpr (by simp [mixedSteps])
  · rw [hcollects.throwOnError]
    rfl
  · rw [hcollects.proofTimeout]
    rfl
  · rw [hcollects.gateTimeout]
    rfl
  · rw [hcollects.headers]
    decide +kernel
  · rw [hcollects.headers]
    decide +kernel
  · exact (((hparts mixedSteps).2.2 _ .proveFailed (.gateTimeout 7) [] rfl (by decide)).1 built).mp hbuilt
  · exact ((hparts _).1 _).mpr ⟨mixedSteps, .redact "\n", _, rfl, by decide +kernel, hnone⟩

end ProofRelay.ProxyRequest
