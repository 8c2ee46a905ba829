import ProofRelay.Proofs.Http.Headers
import ProofRelay.Proofs.Json.Objects
import ProofRelay.Proofs.Prover.Handling
import ProofRelay.Proofs.Prover.Target
import ProofRelay.Prover.Basic

/-!
What a prover does with the requests that it is to proxy.  A request without a readable id or target is refused,
and the prover stays as it was.  Any other one is kept, is answered with the status of its target and an echo, and
fills the slot of its own id if its response is proven (`Proxies`).  Over any run of such requests (`Proxied`) the
prover keeps the accepted ones in order, each once, and it holds the proofs of the proven ones beside what it held
before (`proxied_proxyAll`).
-/

namespace ProofRelay.Prover

/-- A request that reaches the prover to be proxied, and the moment. -/
structure ProxyCall where
  now : Instant
  method : Http.Method
  headers : Http.Headers
  body : Bytes

/-- The answer to a request to be proxied, and the prover after it. -/
def proxyOne (p : Prover) (c : ProxyCall) : ProverReply × Prover := p.proxy c.now c.method c.headers c.body

/-- The answers to requests to be proxied, one after another, and the prover after them. -/
def proxyAll (p : Prover) : List ProxyCall → List ProverReply × Prover
  | [] => ([], p)
  | c :: later => ((p.proxyOne c).1 :: ((p.proxyOne c).2.proxyAll later).1, ((p.proxyOne c).2.proxyAll later).2)

/-! ## What is read of a request -/

namespace ProxyCall

/-- Whether the id or the target is missing, or is no text. -/
def IsRefused (c : ProxyCall) : Prop :=
  (∀ id, ¬c.headers.Says .requestId id) ∨ ∀ url, ¬c.headers.Says .proxyUrl url

/-- What is read of a request. -/
structure ReadAs (c : ProxyCall) (r : ProxiedRequest) : Prop where
  id : c.headers.Says .requestId r.id
  target : c.headers.Says .proxyUrl r.target
  method : r.method = c.method
  redacted : ∀ instruction, r.redacted = some instruction ↔ c.headers.Says .redacted instruction
  provesFailed : r.provesFailed = true ↔ c.headers.Says .proveFailedRequest "true"
  body : r.body = c.body

theorem readAs_of_readProxied {c : ProxyCall} {r : ProxiedRequest}
    (h : readProxied c.method c.headers c.body = some r) : c.ReadAs r := by
  simp only [readProxied, Option.bind_eq_bind, Option.bind_eq_some_iff] at h
  obtain ⟨id, hid, target, htarget, h⟩ := h
  cases h
  refine ⟨Http.Headers.says_iff.mpr hid, Http.Headers.says_iff.mpr htarget, rfl, fun instruction => ?_, ?_, rfl⟩
  · rw [Http.Headers.says_iff]
  · rw [decide_eq_true_iff, Http.Headers.says_iff]
    rfl

theorem isRefused_of_readProxied {c : ProxyCall} (h : readProxied c.method c.headers c.body = none) :
    c.IsRefused := by
  simp only [IsRefused, ← Http.Headers.text?_eq_none_iff]
  cases hid : c.headers.text? .requestId with
  | none => exact .inl rfl
  | some id =>
    cases htarget : c.headers.text? .proxyUrl with
    | none => exact .inr rfl
    | some target => simp [readProxied, hid, htarget] at h

end ProxyCall

/-! ## What is answered -/

/-- The status that a target answers with: the one that its URL gives, or success. -/
def TargetAnswers (url : String) (status : Http.Status) : Prop :=
  Target.Gives url status ∨ (∀ other, ¬Target.Gives url other) ∧ status = .ok

theorem targetAnswers_iff {url : String} {status : Http.Status} :
    TargetAnswers url status ↔ Target.status url = status := by
  constructor
  · rintro (hgives | ⟨hnone, rfl⟩)
    · exact Target.status_of_gives hgives
    · exact Target.status_of_not_gives hnone
  · rintro rfl
    by_cases h : ∃ status, Target.Gives url status
    · obtain ⟨status, hstatus⟩ := h
      rw [Target.status_of_gives hstatus]
      exact .inl hstatus
    · rw [not_exists] at h
      exact .inr ⟨h, Target.status_of_not_gives h⟩

/-- The JSON echo of a request. -/
structure Echoes (r : ProxiedRequest) (reply : ProverReply) : Prop where
  status : TargetAnswers r.target reply.status
  contentType : reply.contentType = some "application/json"
  body : ∃ text, reply.body = .whole text ∧ Json.Value.parse text = .ok (.object
    [("body", .text (Utf8.decodeLossy r.body)), ("method", .text r.method.name), ("url", .text r.target)])

/-- The keys of an echo stand in order. -/
theorem ofEntries_echo (method url body : String) :
    Json.Value.ofEntries (Json.textEntries [("method", method), ("url", url), ("body", body)]) =
      .object (Json.textEntries [("body", body), ("method", method), ("url", url)]) ∧
    Json.Value.ofEntries (Json.textEntries [("body", body), ("method", method), ("url", url)]) =
      .object (Json.textEntries [("body", body), ("method", method), ("url", url)]) := by
  have hurl : ¬"url" < "method" ∧ ¬"url" < "body" := by decide +kernel
  have hmethod : ¬"method" < "body" ∧ "body" < "method" := by decide +kernel
  simp [Json.Value.ofEntries, Json.textEntries, Json.insertEntry, hurl, hmethod]

theorem echoes_json (r : ProxiedRequest) : Echoes r (.json (Target.status r.target) (echo r).write) where
  status := targetAnswers_iff.mpr rfl
  contentType := rfl
  body := by
    obtain ⟨hecho, hread⟩ := ofEntries_echo r.method.name r.target (Utf8.decodeLossy r.body)
    have hparse := Json.parse_write_object ("body", Utf8.decodeLossy r.body)
      [("method", r.method.name), ("url", r.target)]
    rw [hread, ← hecho] at hparse
    refine ⟨_, rfl, hparse.trans ?_⟩
    rw [hecho]
    rfl

/-! ## What is done -/

/-- Whether the response to a request is proven: its target answers with success, or any response is to be. -/
def IsProven (r : ProxiedRequest) : Prop :=
  (∃ status, TargetAnswers r.target status ∧ status.isSuccess = true) ∨ r.provesFailed = true

theorem proves_iff {r : ProxiedRequest} : proves r = true ↔ IsProven r := by
  simp [proves, IsProven, targetAnswers_iff]

/-- The proof of an id is published: it is in the slot of this id, those who wait for it have it, and it is kept
for its time.  The slots of all other ids and those who wait for them are as they were. -/
structure Fills (s : Slots) (now : Instant) (id : String) (s' : Slots) : Prop where
  own : s'.held? id = some (some (notaryPubKey ++ "|proof-for-" ++ id))
  others : ∀ k ≠ id, s'.held? k = s.held? k
  subscribers : ∀ number, s'.subscriber? number = (s.subscriber? number).map fun sub =>
    if sub.attached = true ∧ sub.id = id then { sub with proof := some (notaryPubKey ++ "|proof-for-" ++ id) } else sub
  nextNumber : s'.nextNumber = s.nextNumber
  retained : s'.retained = s.retained.add (now + Slots.retention) id

theorem fills_publish (s : Slots) (now : Instant) (id : String) :
    Fills s now id (s.publish now id (payloadFor id).raw) where
  own := by rw [Slots.held?_publish, if_pos rfl, raw_payloadFor]
  others := fun k hk => by rw [Slots.held?_publish, if_neg hk]
  subscribers := fun number => by
    rw [raw_payloadFor]
    exact Slots.lookup_mapAttached (fun sub => { sub with proof := _ }) id number s.subscribers
  nextNumber := rfl
  retained := rfl

/-- What a prover does with a request that it accepts. -/
structure Proxies (p : Prover) (c : ProxyCall) (r : ProxiedRequest) (reply : ProverReply) (p' : Prover) : Prop where
  echoes : Echoes r reply
  requests : p'.requests = p.requests ++ [r]
  slots : IsProven r ∧ Fills p.slots c.now r.id p'.slots ∨ ¬IsProven r ∧ p'.slots = p.slots
  mode : p'.mode = p.mode

/-- The answer to a request that is refused. -/
structure Refuses (reply : ProverReply) : Prop where
  status : reply.status.code = 400
  contentType : reply.contentType = some "text/plain; charset=utf-8"
  body : reply.body = .whole (Utf8.encode "missing proxy headers")

/-- **One request** is refused and leaves the prover as it was, or it is proxied as what is read of it. -/
theorem proxyOne_cases (p : Prover) (c : ProxyCall) :
    (c.IsRefused ∧ Refuses (p.proxyOne c).1 ∧ (p.proxyOne c).2 = p) ∨
      ∃ r, c.ReadAs r ∧ Proxies p c r (p.proxyOne c).1 (p.proxyOne c).2 := by
  cases hr : readProxied c.method c.headers c.body with
  | none =>
    have hproxy : p.proxyOne c = (.plain .badRequest "missing proxy headers", p) := by
      rw [proxyOne, proxy, hr]
    rw [hproxy]
    exact .inl ⟨ProxyCall.isRefused_of_readProxied hr, ⟨rfl, rfl, rfl⟩, rfl⟩
  | some r =>
    refine .inr ⟨r, ProxyCall.readAs_of_readProxied hr, ?_⟩
    have hproxy : p.proxyOne c = (.json (Target.status r.target) (echo r).write, p.record c.now r) := by
      rw [proxyOne, proxy, hr]
    rw [hproxy]
    refine ⟨echoes_json r, rfl, ?_, rfl⟩
    by_cases hproven : IsProven r
    · have hslots : (p.record c.now r).slots = p.slots.publish c.now r.id (payloadFor r.id).raw :=
        if_pos (proves_iff.mpr hproven)
      rw [hslots]
      exact .inl ⟨hproven, fills_publish p.slots c.now r.id⟩
    · exact .inr ⟨hproven, if_neg fun h => hproven (proves_iff.mp h)⟩

/-! ## Runs -/

/-- What a prover does with requests, one after another: the answers, the prover after them, and the requests that
are accepted, in order. -/
inductive Proxied : Prover → List ProxyCall → List ProverReply → Prover → List ProxiedRequest → Prop
  | nil {p : Prover} : Proxied p [] [] p []
  | refused {p p' : Prover} {c : ProxyCall} {later : List ProxyCall} {replies : List ProverReply}
      {accepted : List ProxiedRequest} {reply : ProverReply} (refused : c.IsRefused) (refuses : Refuses reply)
      (rest : Proxied p later replies p' accepted) : Proxied p (c :: later) (reply :: replies) p' accepted
  | accepted {p p₁ p' : Prover} {c : ProxyCall} {r : ProxiedRequest} {reply : ProverReply} {later : List ProxyCall}
      {replies : List ProverReply} {accepted : List ProxiedRequest} (read : c.ReadAs r)
      (proxies : Proxies p c r reply p₁) (rest : Proxied p₁ later replies p' accepted) :
      Proxied p (c :: later) (reply :: replies) p' (r :: accepted)

theorem proxied_proxyAll (p : Prover) (calls : List ProxyCall) :
    ∃ accepted, Proxied p calls (p.proxyAll calls).1 (p.proxyAll calls).2 accepted := by
  induction calls generalizing p with
  | nil => exact ⟨[], .nil⟩
  | cons c later ih =>
    obtain ⟨accepted, hlater⟩ := ih (p.proxyOne c).2
    rw [proxyAll]
    rcases proxyOne_cases p c with ⟨hrefused, hrefuses, hsame⟩ | ⟨r, hread, hproxies⟩
    · rw [hsame] at hlater ⊢
      exact ⟨accepted, .refused hrefused hrefuses hlater⟩
    · exact ⟨r :: accepted, .accepted hread hproxies hlater⟩

section
variable {p p' : Prover} {calls : List ProxyCall} {replies : List ProverReply} {accepted : List ProxiedRequest}

/-- **The accepted requests are kept**, in order, each once. -/
theorem Proxied.requests (h : Proxied p calls replies p' accepted) : p'.requests = p.requests ++ accepted := by
  induction h with
  | nil => rw [List.append_nil]
  | refused _ _ _ ih => exact ih
  | accepted _ proxies _ ih => rw [ih, proxies.requests, List.append_assoc, List.singleton_append]

/-- The slot of an id is as it was, but for a proof if a request of this id is proven. -/
theorem Proxied.held? (h : Proxied p calls replies p' accepted) (id : String) :
    (∃ r ∈ accepted, r.id = id ∧ IsProven r) ∧ p'.slots.held? id = some (some (notaryPubKey ++ "|proof-for-" ++ id)) ∨
      (¬∃ r ∈ accepted, r.id = id ∧ IsProven r) ∧ p'.slots.held? id = p.slots.held? id := by
  induction h with
  | nil => exact .inr ⟨by simp, rfl⟩
  | refused _ _ _ ih => exact ih
  | @accepted p p₁ p' c r reply later replies accepted _ proxies _ ih =>
    rcases ih with ⟨⟨r', hr', hid, hproven⟩, hheld⟩ | ⟨hnone, hheld⟩
    · exact .inl ⟨⟨r', List.mem_cons_of_mem _ hr', hid, hproven⟩, hheld⟩
    · by_cases hown : r.id = id ∧ IsProven r
      · refine .inl ⟨⟨r, List.mem_cons_self, hown⟩, hheld.trans ?_⟩
        rcases proxies.slots with ⟨-, hfills⟩ | ⟨hunproven, -⟩
        · exact hown.1 ▸ hfills.own
        · exact absurd hown.2 hunproven
      · refine .inr ⟨?_, hheld.trans ?_⟩
        · rintro ⟨r', hmem, hr'⟩
          rcases List.mem_cons.mp hmem with rfl | hmem
          · exact hown hr'
          · exact hnone ⟨r', hmem, hr'⟩
        · rcases proxies.slots with ⟨hproven, hfills⟩ | ⟨-, hslots⟩
          · exact hfills.others id fun heq => hown ⟨heq.symm, hproven⟩
          · rw [hslots]

end

/-- **Requests to be proxied**, whatever they carry and however many they are: each is refused or proxied.  The
accepted ones are kept, in order, each once, and the slots hold the proofs of the proven ones. -/
theorem proxied_requests_are_kept (p : Prover) (calls : List ProxyCall) :
    ∃ accepted, Proxied p calls (p.proxyAll calls).1 (p.proxyAll calls).2 accepted ∧
      (p.proxyAll calls).2.requests = p.requests ++ accepted ∧
      ∀ id,
        (∃ r ∈ accepted, r.id = id ∧ IsProven r) ∧
          (p.proxyAll calls).2.slots.held? id = some (some (notaryPubKey ++ "|proof-for-" ++ id)) ∨
        (¬∃ r ∈ accepted, r.id = id ∧ IsProven r) ∧ (p.proxyAll calls).2.slots.held? id = p.slots.held? id := by
  obtain ⟨accepted, hproxied⟩ := proxied_proxyAll p calls
  exact ⟨accepted, hproxied, hproxied.requests, hproxied.held?⟩

end ProofRelay.Prover
