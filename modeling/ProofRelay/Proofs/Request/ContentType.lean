import ProofRelay.Proofs.Request.Building
import ProofRelay.Proofs.Request.Encoding

/-!
The content type of JSON.  A JSON step adds its content type if it finds none, and a header step behind it adds
another one, while given headers take the place of both.  So the content type of JSON stands beside that of the
caller just if nothing of the caller comes before it and nothing but header steps behind it
(`content_type_of_json`); in any other chain it is there only if the caller gives none.
-/

namespace ProofRelay.ProxyRequest

/-- Whether a step sends JSON. -/
def Step.isJson : Step → Bool
  | .json _ => true
  | _ => false

/-- Whether a step sets the content types anew. -/
def Step.setsTypes : Step → Bool
  | .headers given => given.has .contentType
  | _ => false

/-- The content types that the other steps than those that send JSON leave. -/
def ownTypes (steps : List Step) : List Http.HeaderValue :=
  (steps.filter (!·.isJson)).foldl (Step.valuesAfter .contentType) []

/-- A JSON step finds no content type, and no step behind it sets them anew. -/
def KeepsDefault (steps : List Step) : Prop :=
  ∃ before value after, steps = before ++ .json value :: after ∧ ownTypes before = [] ∧
    ∀ step ∈ after, step.setsTypes = false

/-- A JSON step finds no content type, and the steps behind it add some without setting them anew. -/
def AddsBehindDefault (steps : List Step) : Prop :=
  ∃ before value after, steps = before ++ .json value :: after ∧ ownTypes before = [] ∧
    (∀ step ∈ after, step.setsTypes = false) ∧ ownTypes after ≠ []

/-! ## One step more -/

theorem ownTypes_append_singleton (steps : List Step) (step : Step) :
    ownTypes (steps ++ [step]) =
      if step.isJson then ownTypes steps else step.valuesAfter .contentType (ownTypes steps) := by
  cases h : step.isJson <;> simp [ownTypes, List.filter_append, h]

theorem valuesAfter_cons {step : Step} (hjson : step.isJson = false) (hsets : step.setsTypes = false)
    (v : Http.HeaderValue) (vs : List Http.HeaderValue) :
    step.valuesAfter .contentType (v :: vs) = v :: step.valuesAfter .contentType vs := by
  cases step with
  | header name value =>
    simp only [Step.valuesAfter]
    split <;> rfl
  | headers given =>
    have hnone : given.values .contentType = [] := by
      simpa [Http.Headers.has_iff] using (Bool.eq_false_iff.mp hsets : ¬ given.has .contentType = true)
    simp [Step.valuesAfter, hnone]
  | json value => cases hjson
  | body | redact | proveFailed | throwOnError | proofTimeout | gateTimeout => rfl

theorem valuesAfter_of_setsTypes {step : Step} (hsets : step.setsTypes = true)
    (vs ws : List Http.HeaderValue) :
    step.valuesAfter .contentType vs = step.valuesAfter .contentType ws := by
  cases step with
  | headers given =>
    have hsome := Http.Headers.has_iff.mp (show given.has .contentType = true from hsets)
    simp [Step.valuesAfter, hsome]
  | header | json | body | redact | proveFailed | throwOnError | proofTimeout | gateTimeout => cases hsets

/-- Content types are never taken away. -/
theorem eq_nil_of_valuesAfter_eq_nil {step : Step} {vs : List Http.HeaderValue}
    (h : step.valuesAfter .contentType vs = []) : vs = [] ∧ step.setsTypes = false := by
  cases step with
  | header name value =>
    simp only [Step.valuesAfter] at h
    split at h
    · exact ⟨(List.append_eq_nil_iff.mp h).1, rfl⟩
    · exact ⟨h, rfl⟩
  | headers given =>
    simp only [Step.valuesAfter] at h
    split at h
    · next hnone => exact ⟨h, Bool.eq_false_iff.mpr fun hhas => Http.Headers.has_iff.mp hhas hnone⟩
    · next hsome => exact absurd h hsome
  | json value =>
    simp only [Step.valuesAfter, true_and] at h
    split at h
    · cases h
    · exact ⟨h, rfl⟩
  | body | redact | proveFailed | throwOnError | proofTimeout | gateTimeout => exact ⟨h, rfl⟩

theorem keepsDefault_append_singleton {steps : List Step} {step : Step} :
    KeepsDefault (steps ++ [step]) ↔
      step.isJson = true ∧ ownTypes steps = [] ∨ step.setsTypes = false ∧ KeepsDefault steps := by
  constructor
  · rintro ⟨before, value, after, hsplit, hnone, hafter⟩
    rcases List.eq_nil_or_concat after with rfl | ⟨after, last, rfl⟩
    · obtain ⟨rfl, hstep⟩ := List.append_inj' hsplit rfl
      obtain rfl : step = .json value := by simpa using hstep
      exact .inl ⟨rfl, hnone⟩
    · obtain ⟨hsteps, hstep⟩ := List.append_inj' (show steps ++ [step] =
        (before ++ .json value :: after) ++ [last] by simpa using hsplit) rfl
      obtain rfl : step = last := by simpa using hstep
      exact .inr ⟨hafter step (by simp), before, value, after, hsteps, hnone,
        fun s hs => hafter s (by simp [hs])⟩
  · rintro (⟨hjson, hnone⟩ | ⟨hsets, before, value, after, rfl, hnone, hafter⟩)
    · cases step with
      | json value => exact ⟨steps, value, [], rfl, hnone, by simp⟩
      | header | headers | body | redact | proveFailed | throwOnError | proofTimeout | gateTimeout =>
        cases hjson
    · refine ⟨before, value, after ++ [step], by simp, hnone, fun s hs => ?_⟩
      rcases List.mem_append.mp hs with hs | hs
      · exact hafter s hs
      · rwa [List.mem_singleton.mp hs]

/-! ## All steps -/

/-- The content type of JSON stands before those of the other steps, or is not there. -/
theorem types_of_steps (steps : List Step) :
    (KeepsDefault steps → steps.foldl (Step.valuesAfter .contentType) [] = jsonType :: ownTypes steps) ∧
      (¬ KeepsDefault steps → steps.foldl (Step.valuesAfter .contentType) [] = ownTypes steps) := by
  induction steps using List.reverseRecOn with
  | nil => exact ⟨fun ⟨_, _, _, h, _⟩ => by simp at h, fun _ => rfl⟩
  | append_singleton steps step ih =>
    rw [List.foldl_append, List.foldl_cons, List.foldl_nil, ownTypes_append_singleton,
      keepsDefault_append_singleton]
    generalize hvalues : steps.foldl (Step.valuesAfter .contentType) [] = values at ih ⊢
    obtain ⟨hkept, hleft⟩ := ih
    cases hjson : step.isJson with
    | true =>
      obtain ⟨value, rfl⟩ : ∃ value, step = .json value := by
        cases step <;> first | exact ⟨_, rfl⟩ | cases hjson
      have hafter : ∀ vs, Step.valuesAfter .contentType vs (.json value) = if vs = [] then [jsonType] else vs := by
        simp [Step.valuesAfter]
      rw [hafter]
      by_cases hk : KeepsDefault steps
      · simp [hkept hk, hk, Step.setsTypes]
      · by_cases hown : ownTypes steps = []
        · simp [hleft hk, hown]
        · simp [hleft hk, hk, hown]
    | false =>
      cases hsets : step.setsTypes with
      | true => simp [valuesAfter_of_setsTypes hsets values (ownTypes steps)]
      | false =>
        refine ⟨?_, ?_⟩
        · rintro (⟨h, -⟩ | ⟨-, hk⟩)
          · cases h
          · simp [hkept hk, valuesAfter_cons hjson hsets]
        · intro hnot
          have hk : ¬ KeepsDefault steps := fun hk => hnot (.inr ⟨rfl, hk⟩)
          simp [hleft hk]

/-- If the other steps leave no content type, that of JSON stands. -/
theorem keepsDefault_of_ownTypes_eq_nil {steps : List Step} (hjson : ∃ step ∈ steps, step.isJson = true)
    (h : ownTypes steps = []) : KeepsDefault steps := by
  induction steps using List.reverseRecOn with
  | nil => simp at hjson
  | append_singleton steps step ih =>
    rw [keepsDefault_append_singleton]
    rw [ownTypes_append_singleton] at h
    cases hstep : step.isJson with
    | true => 
      rw [hstep, if_pos rfl] at h
      exact .inl ⟨rfl, h⟩
    | false =>
      rw [hstep, if_neg (by decide)] at h
      obtain ⟨hnone, hsets⟩ := eq_nil_of_valuesAfter_eq_nil h
      obtain ⟨s, hs, hsjson⟩ := hjson
      rcases List.mem_append.mp hs with hs | hs
      · exact .inr ⟨hsets, ih ⟨s, hs, hsjson⟩ hnone⟩
      · rw [List.mem_singleton.mp hs, hstep] at hsjson
        cases hsjson

theorem addsBehindDefault_iff {steps : List Step} :
    AddsBehindDefault steps ↔ KeepsDefault steps ∧ ownTypes steps ≠ [] := by
  have hown : ∀ before value after, ownTypes before = [] →
      ownTypes (before ++ .json value :: after) = ownTypes after := by
    intro before value after hnone
    unfold ownTypes at hnone ⊢
    rw [List.filter_append, List.foldl_append, hnone]
    rfl
  constructor
  · rintro ⟨before, value, after, rfl, hnone, hafter, hsome⟩
    exact ⟨⟨before, value, after, rfl, hnone, hafter⟩, by rwa [hown before value after hnone]⟩
  · rintro ⟨⟨before, value, after, rfl, hnone, hafter⟩, hsome⟩
    exact ⟨before, value, after, rfl, hnone, hafter, by rwa [hown before value after hnone] at hsome⟩

/-- **The content type of a request that sends JSON,** against that of the same steps without those that send it:

* it is what the other steps leave, or that of JSON if they leave none, just if no header is added behind a
  JSON step that found none, or such a header is set anew;
* in any other case the content type of JSON stands before what the other steps leave. -/
theorem content_type_of_json {method : Http.Method} {url : String} {policy : Policy} {steps : List Step}
    {r : ProxyRequest} (hbuild : (start method url policy).build steps = .ok r)
    (hjson : ∃ step ∈ steps, step.isJson = true) :
    ∃ other, (start method url policy).build (steps.filter (!·.isJson)) = .ok other ∧
      let given := other.headers.values .contentType
      (r.headers.values .contentType = (if given = [] then [jsonType] else given) ↔
        ¬ AddsBehindDefault steps) ∧
      (AddsBehindDefault steps → given ≠ [] ∧ r.headers.values .contentType = jsonType :: given) := by
  have hfaults := (exists_build_iff _ steps).mp ⟨r, hbuild⟩
  obtain ⟨other, hother⟩ := (exists_build_iff (start method url policy) (steps.filter (!·.isJson))).mpr
    fun step hstep => hfaults step (List.mem_filter.mp hstep).1
  refine ⟨other, hother, ?_⟩
  have hgiven : other.headers.values .contentType = ownTypes steps := (collects_of_build hother).headers _
  have htypes := (collects_of_build hbuild).headers .contentType
  obtain ⟨hkept, hleft⟩ := types_of_steps steps
  rw [← htypes] at hkept hleft
  rw [hgiven, addsBehindDefault_iff]
  by_cases hk : KeepsDefault steps
  · rw [hkept hk]
    by_cases hown : ownTypes steps = []
    · simp [hown]
    · simp [hown, hk]
  · have hown : ownTypes steps ≠ [] := fun hnone => hk (keepsDefault_of_ownTypes_eq_nil hjson hnone)
    simp [hleft hk, hown, hk]

/-! ## A caller with a content type of its own -/

/-- The step of such a caller. -/
def typeStep : Step := .header (Utf8.encode "Content-Type") (Utf8.encode "text/plain")

theorem ofBytes?_contentType :
    Http.HeaderName.ofBytes? (Utf8.encode "Content-Type") = some .contentType :=
  Http.HeaderName.ofBytes?_of_letters (by decide) (by decide +kernel) (by decide +kernel) (by decide +kernel)

theorem ofBytes?_textPlain :
    Http.HeaderValue.ofBytes? (Utf8.encode "text/plain") = some (.ofText "text/plain") := by
  decide +kernel

theorem fault?_typeStep : typeStep.fault? = none := by
  simp [typeStep, Step.fault?, ofBytes?_contentType, ofBytes?_textPlain]

theorem valuesAfter_typeStep (vs : List Http.HeaderValue) :
    typeStep.valuesAfter .contentType vs = vs ++ [.ofText "text/plain"] := by
  simp [typeStep, Step.valuesAfter, ofBytes?_contentType, ofBytes?_textPlain]

/-- Two content types of another kind. -/
def twoOthers : Http.Headers := ⟨[(.contentType, .ofText "text/html"), (.contentType, .ofText "text/css")]⟩

/-- Two JSON steps and a header, all of which given headers replace. -/
def replacedTypes : List Step := [.json (.ok (.object [])), typeStep, .json (.ok .null), .headers twoOthers]

/-- Here only the given headers are left. -/
theorem content_type_of_json_of_replaced_types :
    ∃ r, (start .post "https://api.example.com/data" .default).build replacedTypes = .ok r ∧
      (∃ step ∈ replacedTypes, step.isJson = true) ∧
      r.headers.values .contentType = [.ofText "text/html", .ofText "text/css"] := by
  have hjson : ∃ step ∈ replacedTypes, step.isJson = true := ⟨_, List.mem_cons_self, rfl⟩
  have hfaults : ∀ step ∈ replacedTypes, step.fault? = none := by
    simp only [replacedTypes, List.forall_mem_cons]
    exact ⟨rfl, fault?_typeStep, rfl, rfl, by simp⟩
  obtain ⟨r, hbuild⟩ := (exists_build_iff (start .post "https://api.example.com/data" .default) _).mpr hfaults
  obtain ⟨other, hother, hiff, -⟩ := content_type_of_json hbuild hjson
  have hgiven : other.headers.values .contentType = [.ofText "text/html", .ofText "text/css"] :=
    (collects_of_build hother).headers .contentType
  have hset : replacedTypes =
      [.json (.ok (.object [])), typeStep, .json (.ok .null)] ++ [.headers twoOthers] := rfl
  have hnot : ¬ AddsBehindDefault replacedTypes := by
    rw [addsBehindDefault_iff, hset, keepsDefault_append_singleton]
    rintro ⟨⟨h, -⟩ | ⟨h, -⟩, -⟩
    · cases h
    · cases h
  refine ⟨r, hbuild, hjson, ?_⟩
  rw [hiff.mpr hnot, hgiven]
  rfl

/-- **A content type beside that of JSON:** of a JSON step and a header step behind it both stay, where the header
step alone leaves its own. -/
theorem default_type_beside_given_one :
    ∃ r other, (start .post "https://api.example.com/data" .default).build
        [.json (.ok (.object [])), typeStep] = .ok r ∧
      (start .post "https://api.example.com/data" .default).build [typeStep] = .ok other ∧
      other.headers.values .contentType = [.ofText "text/plain"] ∧
      r.headers.values .contentType = [jsonType, .ofText "text/plain"] := by
  let start := start .post "https://api.example.com/data" .default
  have hfaults : ∀ step ∈ [.json (.ok (.object [])), typeStep], step.fault? = none := by
    simp only [List.forall_mem_cons]
    exact ⟨rfl, fault?_typeStep, by simp⟩
  obtain ⟨r, hbuild⟩ := (exists_build_iff start _).mpr hfaults
  obtain ⟨other, hother⟩ := (exists_build_iff start [typeStep]).mpr (by simp [fault?_typeStep])
  refine ⟨r, other, hbuild, hother, ?_, ?_⟩
  · rw [(collects_of_build hother).headers]
    exact valuesAfter_typeStep []
  · rw [(collects_of_build hbuild).headers]
    exact valuesAfter_typeStep [jsonType]

end ProofRelay.ProxyRequest
