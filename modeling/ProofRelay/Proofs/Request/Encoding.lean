import ProofRelay.Proofs.Request

/-!
The request to the prover, for any request that was built.  Encoding fails for the endpoint first and for the
target second, and for nothing else; the header of a directive has the value of the directive alone, in whatever
letters the caller has written its name (`ofBytes?_of_toLower`), and any other header is the caller's.
-/

namespace ProofRelay

namespace Http.HeaderName

/-- The headers that tell the prover what to do. -/
def directives : List HeaderName := [requestId, proxyUrl, redacted, proveFailedRequest]

/-- The characters of these names. -/
def letters : String := "abcdefghijklmnopqrstuvwxyz-"

/-- A byte that is one of these characters in lower case may stand in a name. -/
theorem isNameByte_of_toLower {b : UInt8} (h : (Char.ofNat b.toNat).toLower ∈ letters.toList) :
    isNameByte b = true := by
  have hall : ∀ n : Fin 256, (Char.ofNat n).toLower ∈ letters.toList →
      n = 0x2D ∨ ((Char.ofNat n).isAlphanum && UInt8.ofNat n < 0x80) = true := by decide +kernel
  have hhyphen : isNameByte 0x2D = true := by simp [isNameByte]
  rcases hall ⟨b.toNat, b.toNat_lt⟩ h with heq | halphanum
  · have hb : b = 0x2D := UInt8.toNat_inj.mp (congrArg Fin.val heq)
    rw [hb, hhyphen]
  · rw [UInt8.ofNat_toNat] at halphanum
    simp only [isNameByte, halphanum, Bool.true_or]

/-- Bytes that are such characters in lower case write the name that they are then. -/
theorem ofBytes?_of_letters {written : Bytes} {name : HeaderName} (hne : name.text.toList ≠ [])
    (hlength : name.text.toList.length ≤ greatestNameLength) (hletters : name.text.toList ⊆ letters.toList)
    (h : (Utf8.ascii written).map Char.toLower = name.text) : ofBytes? written = some name := by
  have hchars : name.text.toList = written.map fun b => (Char.ofNat b.toNat).toLower := by
    rw [← h, String.toList_map, Utf8.ascii, String.toList_ofList, List.map_map]
    rfl
  rw [hchars] at hne hlength hletters
  have hempty : written.isEmpty = false := by simpa using hne
  have hall : written.all isNameByte = true :=
    List.all_eq_true.mpr fun b hb => isNameByte_of_toLower (hletters (List.mem_map_of_mem hb))
  have hshort : ¬ greatestNameLength < written.length := by simpa using hlength
  simp [ofBytes?, hempty, hall, hshort, h]

/-- **Letter case does not matter:** bytes that are a directive's name in lower case write this name. -/
theorem ofBytes?_of_toLower {written : Bytes} {name : HeaderName} (hname : name ∈ directives)
    (h : (Utf8.ascii written).map Char.toLower = name.text) : ofBytes? written = some name := by
  have hnames : ∀ name ∈ directives, name.text.toList ≠ [] ∧ name.text.toList.length ≤ greatestNameLength ∧
      name.text.toList ⊆ letters.toList := by decide +kernel
  obtain ⟨hne, hlength, hletters⟩ := hnames name hname
  exact ofBytes?_of_letters hne hlength hletters h

end Http.HeaderName

namespace ProxyRequest

/-! ## Headers -/

/-- Whether a request sets the header of this name itself. -/
def Sets (r : ProxyRequest) (name : Http.HeaderName) : Prop :=
  name = .requestId ∨ name = .proxyUrl ∨ name = .redacted ∧ r.redaction ≠ none ∨
    name = .proveFailedRequest ∧ r.provesFailed = true

/-- Headers in which each directive of a request is the only value of its name, and any other name has the
values that the caller gave, in their order. -/
structure CarriesDirectives (r : ProxyRequest) (id : RequestId) (headers : Http.Headers) : Prop where
  requestId : ∃ v, Http.HeaderValue.ofText? id.text = some v ∧ headers.values .requestId = [v]
  proxyUrl : ∃ v, Http.HeaderValue.ofText? r.url = some v ∧ headers.values .proxyUrl = [v]
  redacted : ∀ instruction, r.redaction = some instruction →
    ∃ v, Http.HeaderValue.ofText? instruction = some v ∧ headers.values .redacted = [v]
  proveFailed : r.provesFailed = true → headers.values .proveFailedRequest = [setMark]
  others : ∀ name, ¬ r.Sets name → headers.values name = r.headers.values name

/-- A name that a request does not set has no directive. -/
theorem directive?_eq_none {r : ProxyRequest} {name : Http.HeaderName} (h : ¬ r.Sets name)
    (id target : Http.HeaderValue) : r.directive? id target name = none := by
  simp only [Sets, not_or, not_and, ne_eq, not_not] at h
  obtain ⟨hid, hurl, hredacted, hmark⟩ := h
  rw [directive?, if_neg hid, if_neg hurl]
  split
  · next hname => rw [hredacted hname, Option.bind_none]
  · rw [if_neg fun hset => hmark hset.1 hset.2]

theorem carriesDirectives_of_values {r : ProxyRequest} {id : RequestId} {headers : Http.Headers}
    {vid target : Http.HeaderValue} (hr : r.RedactionEncodes)
    (hid : Http.HeaderValue.ofText? id.text = some vid) (htarget : Http.HeaderValue.ofText? r.url = some target)
    (hvalues : ∀ name, headers.values name =
      match r.directive? vid target name with
      | some v => [v]
      | none => r.headers.values name) : r.CarriesDirectives id headers where
  requestId := ⟨vid, hid, by rw [hvalues, directive?, if_pos rfl]⟩
  proxyUrl := ⟨target, htarget, by rw [hvalues, directive?, if_neg (by decide), if_pos rfl]⟩
  redacted := by
    intro instruction hi
    obtain ⟨v, hv⟩ := hr instruction hi
    refine ⟨v, hv, ?_⟩
    rw [hvalues, directive?, if_neg (by decide), if_neg (by decide), if_pos rfl, hi, Option.bind_some, hv]
  proveFailed := by
    intro hset
    rw [hvalues, directive?, if_neg (by decide), if_neg (by decide), if_neg (by decide), if_pos ⟨rfl, hset⟩]
  others := by
    intro name hname
    rw [hvalues, directive?_eq_none hname]

/-! ## The encoded request -/

/-- **What is sent to the prover.**  For any request that building gives, any id and any endpoint:

* encoding fails with the configuration just if the endpoint is no URI, and else with the request just if the
  target is no header value;
* in any other case the encoded request has the method and the body of the request, the URI of the endpoint, and
  headers in which the directives stand over those of the caller;
* the name of a directive in any case of letters is this name. -/
theorem encode_of_build {method : Http.Method} {url : String} {policy : Policy} {steps : List Step}
    {r : ProxyRequest} (hbuild : (start method url policy).build steps = .ok r) (bits : BitVec 122)
    (endpoint : String) :
    (r.encode (.ofBits bits) endpoint = .error ⟨.configuration, some .uri⟩ ↔ Http.Uri.parse? endpoint = none) ∧
    (r.encode (.ofBits bits) endpoint = .error ⟨.builder, some .invalidHeaderValue⟩ ↔
      Http.Uri.parse? endpoint ≠ none ∧ Http.HeaderValue.ofText? r.url = none) ∧
    (∀ uri, Http.Uri.parse? endpoint = some uri → Http.HeaderValue.ofText? r.url ≠ none →
      ∃ headers, r.encode (.ofBits bits) endpoint = .ok ⟨r.method, uri, headers, r.body⟩ ∧
        r.CarriesDirectives (.ofBits bits) headers) ∧
    ∀ written, ∀ name ∈ Http.HeaderName.directives, (Utf8.ascii written).map Char.toLower = name.text →
      Http.HeaderName.ofBytes? written = some name := by
  have hr := redactionEncodes_of_build hbuild
  obtain ⟨vid, hid, -⟩ := RequestId.exists_headerValue bits
  have hspelling : ∀ written, ∀ name ∈ Http.HeaderName.directives,
      (Utf8.ascii written).map Char.toLower = name.text → Http.HeaderName.ofBytes? written = some name :=
    fun written name hname h => Http.HeaderName.ofBytes?_of_toLower hname h
  cases hu : Http.Uri.parse? endpoint with
  | none =>
    rw [encode_eq_error_of_endpoint hu]
    exact ⟨by simp, by simp, fun _ huri => (nomatch huri), hspelling⟩
  | some uri =>
    cases ht : Http.HeaderValue.ofText? r.url with
    | none =>
      rw [encode_eq_error_of_target hu ht]
      exact ⟨by simp [ClientError.invalidHeaderValue], by simp [ClientError.invalidHeaderValue],
        fun _ _ hne => absurd rfl hne, hspelling⟩
    | some target =>
      obtain ⟨headers, hencode, hvalues⟩ := encode_eq_ok hr hu hid ht
      rw [hencode]
      refine ⟨by simp, by simp, fun uri' huri _ => ?_, hspelling⟩
      obtain rfl := Option.some.inj huri
      exact ⟨headers, rfl, carriesDirectives_of_values hr hid ht hvalues⟩

/-- A caller who spells the name of the id and that of the redaction in letters of any case, beside two values
of another header. -/
theorem encode_of_build_of_spoofed_headers :
    let steps : List Step :=
      [.header (Utf8.encode "T-Request-ID") (Utf8.encode "a"), .header (Utf8.encode "ACCEPT") (Utf8.encode "a"),
        .redact "res:body", .header (Utf8.encode "t-redacted") (Utf8.encode "b"),
        .header (Utf8.encode "accept") (Utf8.encode "b")]
    ∃ r headers uri, (start .get "http://target/" .default).build steps = .ok r ∧
      r.headers.values .redacted = [.ofText "b"] ∧
      r.encode (.ofBits 0) "http://prover/proxy" = .ok ⟨.get, uri, headers, []⟩ ∧
      (∃ v, Http.HeaderValue.ofText? (RequestId.ofBits 0).text = some v ∧ headers.values .requestId = [v]) ∧
      (∃ v, Http.HeaderValue.ofText? "res:body" = some v ∧ headers.values .redacted = [v]) ∧
      headers.values .accept = [.ofText "a", .ofText "b"] := by
  intro steps
  have hid : Http.HeaderName.ofBytes? (Utf8.encode "T-Request-ID") = some .requestId :=
    Http.HeaderName.ofBytes?_of_toLower (by decide) (by decide +kernel)
  have hredacted : Http.HeaderName.ofBytes? (Utf8.encode "t-redacted") = some .redacted :=
    Http.HeaderName.ofBytes?_of_toLower (by decide) (by decide +kernel)
  have hupper : Http.HeaderName.ofBytes? (Utf8.encode "ACCEPT") = some .accept := by decide +kernel
  have hlower : Http.HeaderName.ofBytes? (Utf8.encode "accept") = some .accept := by decide +kernel
  have ha : Http.HeaderValue.ofBytes? (Utf8.encode "a") = some (.ofText "a") := by decide +kernel
  have hb : Http.HeaderValue.ofBytes? (Utf8.encode "b") = some (.ofText "b") := by decide +kernel
  have hbody : Http.HeaderValue.ofText? "res:body" = some (.ofText "res:body") := by decide +kernel
  let r : ProxyRequest :=
    { start .get "http://target/" .default with
      headers :=
        ⟨[(.requestId, .ofText "a"), (.accept, .ofText "a"), (.redacted, .ofText "b"), (.accept, .ofText "b")]⟩
      redaction := some "res:body" }
  have hbuild : (start .get "http://target/" .default).build steps = .ok r := by
    simp only [build, steps, List.foldlM_cons, Step.apply, headerValue, hid, hredacted, hupper, hlower, ha, hb,
      hbody]
    rfl
  obtain ⟨uri, huri⟩ : ∃ uri, Http.Uri.parse? "http://prover/proxy" = some uri :=
    Option.isSome_iff_exists.mp (by decide +kernel)
  obtain ⟨-, -, hok, -⟩ := encode_of_build hbuild 0 "http://prover/proxy"
  obtain ⟨headers, hencode, hdirectives⟩ := hok uri huri (by decide +kernel)
  have hother : ¬ r.Sets .accept := by
    unfold Sets
    decide
  refine ⟨r, headers, uri, hbuild, by decide +kernel, hencode, hdirectives.requestId, ?_, ?_⟩
  · exact hdirectives.redacted "res:body" rfl
  · rw [hdirectives.others .accept hother]
    decide +kernel

end ProxyRequest
end ProofRelay
