import ProofRelay.EventStream.Opener
import ProofRelay.Proofs.Http.HeaderValue
import ProofRelay.Proofs.Payload
import ProofRelay.Proofs.Prover.Slots
import ProofRelay.Proofs.Text.Percent
import ProofRelay.Prover.Serving

/-!
What a prover does to its slots.  Whatever is asked of a prover that pushes proofs, and whatever is read from
its bodies or dropped, a proof that it holds for an id is the one it publishes for this id (`Sound`), and
subscribers keep their ids (`Continues`).  The only answer that opens a channel is the stream of a new
subscriber to the id that the path names (`handle_get_eq_stream`).
-/

namespace ProofRelay.Prover

/-! ## What is published -/

/-- Whether a text is what a prover publishes for an id. -/
def Published (id text : String) : Prop := text = (payloadFor id).raw ∧ '\r' ∉ id.toList

theorem raw_payloadFor (id : String) : (payloadFor id).raw = notaryPubKey ++ "|proof-for-" ++ id := by
  rw [← String.toList_inj, payloadFor, Payload.toList_raw_ofParts]
  simp [proofFor, Payload.separator]

theorem Published.cr_not_mem {id text : String} (h : Published id text) : '\r' ∉ text.toList := by
  obtain ⟨rfl, hid⟩ := h
  have hkey : '\r' ∉ notaryPubKey.toList := by decide +kernel
  rw [payloadFor, Payload.toList_raw_ofParts]
  simp [hkey, hid, Payload.separator, proofFor]

/-! ## What stays -/

/-- A prover that pushes proofs, and holds for each id what it publishes for it. -/
structure Sound (p : Prover) : Prop where
  mode : p.mode = .prove
  origin : p.slots.Origin Published

/-- A later state of a prover, in which subscribers have the ids that they had. -/
structure Continues (p p' : Prover) : Prop where
  sound : p'.Sound
  keepsIds : p.slots.KeepsIds p'.slots

variable {p : Prover}

theorem Sound.continues (h : p.Sound) : p.Continues p := ⟨h, .refl p.slots⟩

theorem Continues.trans {p' p'' : Prover} (h : p.Continues p') (h' : p'.Continues p'') :
    p.Continues p'' :=
  ⟨h'.sound, h.keepsIds.trans h'.keepsIds⟩

/-- Whatever happens to the slots of a prover, if only its own proofs are published. -/
theorem Sound.step (h : p.Sound) (now : Instant) (move : Slots.Move)
    (hp : ∀ id proof, move = .publish id proof → Published id proof) :
    p.Continues { p with slots := p.slots.step now move } := by
  exact ⟨⟨h.mode, h.origin.step now hp⟩, Slots.keepsIds_step p.slots now move⟩

/-- Reading the stream of a subscriber polls its slot. -/
theorem slots_poll (p : Prover) (number : Nat) :
    (p.poll (.proof number)).2.2 = { p with slots := (p.slots.poll number).2 } := by
  rw [Prover.poll]
  generalize p.slots.poll number = polled
  obtain ⟨delivery, slots⟩ := polled
  cases delivery <;> rfl

theorem Sound.poll (h : p.Sound) (body : ReplyBody) : p.Continues (p.poll body).2.2 := by
  cases body with
  | whole bytes => cases bytes <;> exact h.continues
  | silent => exact h.continues
  | proof number =>
    rw [slots_poll]
    exact h.step 0 (.poll number) (by rintro _ _ ⟨⟩)

theorem Sound.dropBody (h : p.Sound) (body : ReplyBody) : p.Continues (p.dropBody body) := by
  cases body with
  | whole bytes => exact h.continues
  | silent => exact h.continues
  | proof number => exact h.step 0 (.leave number) (by rintro _ _ ⟨⟩)

theorem Sound.expire (h : p.Sound) (now : Instant) : p.Continues (p.expire now) := by
  rw [Prover.expire, Slots.expire_eq_run]
  refine ⟨⟨h.mode, h.origin.run ?_⟩, Slots.keepsIds_run p.slots _⟩
  intro t id proof hmem
  cases (List.mem_replicate.mp hmem).2

/-- Proxying publishes for the id that the request has, which is a text of a header. -/
theorem Sound.proxy (h : p.Sound) (now : Instant) (method : Http.Method) (headers : Http.Headers)
    (body : Bytes) : p.Continues (p.proxy now method headers body).2 := by
  unfold Prover.proxy
  cases hr : readProxied method headers body with
  | none => exact h.continues
  | some r =>
    have hid : '\r' ∉ r.id.toList := by
      simp only [readProxied, Option.bind_eq_bind, Option.bind_eq_some_iff] at hr
      obtain ⟨id, htext, target, -, hr⟩ := hr
      cases hr
      obtain ⟨v, -, hv⟩ := Option.bind_eq_some_iff.mp htext
      exact Http.HeaderValue.cr_not_mem_of_text? hv
    show p.Continues (p.record now r)
    unfold record
    split
    · have hstep := h.step now (.publish r.id (payloadFor r.id).raw) (by
        rintro _ _ ⟨⟩
        exact ⟨rfl, hid⟩)
      exact ⟨⟨hstep.sound.mode, hstep.sound.origin⟩, hstep.keepsIds⟩
    · exact ⟨⟨h.mode, h.origin⟩, .refl p.slots⟩

theorem awaitProof_of_prove (h : p.mode = .prove) (id : String) :
    p.awaitProof id =
      (.stream (.proof p.slots.nextNumber), { p with slots := (p.slots.subscribe id).2 }) := by
  cases p
  cases h
  rfl

theorem Sound.awaitProof (h : p.Sound) (id : String) : p.Continues (p.awaitProof id).2 := by
  rw [awaitProof_of_prove h.mode]
  exact h.step 0 (.subscribe id) (by rintro _ _ ⟨⟩)

theorem Sound.answer (h : p.Sound) (now : Instant) (method : Http.Method) (headers : Http.Headers)
    (body : Bytes) (route : Route) : p.Continues (p.answer now method headers body route).2 := by
  cases route with
  | proxy =>
    simp only [Prover.answer]
    split
    · exact h.continues
    · exact h.proxy now method headers body
  | notaryInfo =>
    simp only [Prover.answer]
    split <;> exact h.continues
  | proof encodedId =>
    simp only [Prover.answer]
    split
    · split
      · exact h.awaitProof _
      · exact h.continues
    · exact h.continues

/-- **Whatever is asked of a prover,** it holds for each id what it publishes for it. -/
theorem Sound.handle (h : p.Sound) (now : Instant) (method : Http.Method) (path : String)
    (headers : Http.Headers) (body : Bytes) : p.Continues (p.handle now method path headers body).2 := by
  unfold Prover.handle
  split
  · exact h.continues
  · next route hroute =>
    have hanswer := h.answer now method headers body route
    simp only []
    split
    · exact hanswer.trans (hanswer.sound.dropBody _)
    · exact hanswer

/-! ## What opens a channel -/

/-- The id for whose proof one waits at a path, if it is the path of a proof. -/
def awaited? (path : String) : Option String :=
  match Route.ofPath? path with
  | some (.proof encodedId) => Text.Percent.decodeText? encodedId
  | _ => none

open EventStream (accepts refusal?)

/-- An answer of another type than that of event streams opens no channel. -/
theorem refusal?_sent {reply : ProverReply}
    (h : (reply.headers.text? .contentType).any accepts = false) : refusal? reply.sent.head ≠ none := by
  have hhead : reply.sent.head = reply.head ∨
      reply.sent.head = (ProverReply.empty .internalServerError).head := by
    unfold ProverReply.sent
    simp only []
    split
    · exact .inr rfl
    · split <;> exact .inl rfl
  rcases hhead with hhead | hhead
  · rw [hhead]
    unfold refusal?
    split
    · simp
    · rw [if_neg (by simpa [ProverReply.head] using h)]
      simp
  · rw [hhead]
    decide +kernel

theorem refusal?_empty (status : Http.Status) : refusal? (ProverReply.empty status).sent.head ≠ none :=
  refusal?_sent rfl

theorem refusal?_plain (status : Http.Status) (text : String) :
    refusal? (ProverReply.plain status text).sent.head ≠ none := by
  have htype : ((Http.Headers.empty.append .contentType (.ofText "text/plain; charset=utf-8")).text?
      .contentType).any accepts = false := by decide +kernel
  exact refusal?_sent htype

theorem refusal?_json (status : Http.Status) (text : String) :
    refusal? (ProverReply.json status text).sent.head ≠ none := by
  have htype : ((Http.Headers.empty.append .contentType (.ofText "application/json")).text?
      .contentType).any accepts = false := by decide +kernel
  exact refusal?_sent htype

/-- **A channel is opened** by the stream of a new subscriber only, to the id that the path names. -/
theorem handle_get_eq_stream (h : p.Sound) {now : Instant} {path : String} {headers : Http.Headers}
    {body : Bytes} (hopen : refusal? (p.handle now .get path headers body).1.sent.head = none) :
    ∃ id, awaited? path = some id ∧ p.handle now .get path headers body =
      (.stream (.proof p.slots.nextNumber), { p with slots := (p.slots.subscribe id).2 }) := by
  have hbody : ∀ status, leavesOutBody .get status = false := fun status => by
    have hhead : Http.Method.get ≠ .head := by decide
    have hconnect : Http.Method.get ≠ .connect := by decide
    simp [leavesOutBody, hhead, hconnect]
  unfold Prover.handle at hopen ⊢
  cases hroute : Route.ofPath? path with
  | none =>
    rw [hroute] at hopen
    exact absurd hopen (refusal?_empty _)
  | some route =>
    simp only [hroute, hbody, Bool.false_eq_true, if_false] at hopen ⊢
    cases route with
    | notaryInfo =>
      rw [Prover.answer, if_pos (.inl rfl)] at hopen
      exact absurd hopen (refusal?_json _ _)
    | proxy =>
      rw [Prover.answer] at hopen
      split at hopen
      · exact absurd hopen (refusal?_plain _ _)
      · unfold Prover.proxy at hopen
        split at hopen
        · exact absurd hopen (refusal?_plain _ _)
        · exact absurd hopen (refusal?_json _ _)
    | proof encodedId =>
      rw [Prover.answer, if_pos (.inl rfl)] at hopen ⊢
      cases hid : Text.Percent.decodeText? encodedId with
      | none =>
        rw [hid] at hopen
        exact absurd hopen (refusal?_plain _ _)
      | some id =>
        refine ⟨id, ?_, awaitProof_of_prove h.mode id⟩
        rw [awaited?, hroute]
        exact hid

end ProofRelay.Prover
