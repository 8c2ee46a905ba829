import ProofRelay.Proofs.EventStream.Chunks
import ProofRelay.Proofs.EventStream.Frames
import ProofRelay.Proofs.Network.Basic
import ProofRelay.Proofs.Prover.Handling

/-!
What a connection carries.  A prover gives nothing on it, or one frame: that of the proof of the id that was
asked for, or the empty one (`Gives`).  Whatever the client has read of it and whatever is on the way, the two
together are what was given (`Line.Carries`), so no message is read but that proof.
-/

namespace ProofRelay.Network

open EventStream Prover

/-- Whether these bytes are nothing, or the frame of what is published for an id, or of nothing. -/
def IsGiven (id : String) (given : Bytes) : Prop :=
  given = [] ∨ ∃ text, (text = "" ∨ Published id text) ∧ given = Utf8.encode (frame text)

/-- Whether a prover that has given these bytes to one who asked for an id, and has this body left, gives
nothing but the proof of the id. -/
def Gives (slots : Slots) (id : String) (given : Bytes) : ReplyBody → Prop
  | .proof number =>
    given = [] ∧ number < slots.nextNumber ∧ ∀ sub, slots.subscriber? number = some sub → sub.id = id
  | .whole bytes => bytes = [] ∧ IsGiven id given
  | .silent => IsGiven id given

/-- The messages of what is given are what is published. -/
theorem IsGiven.published {id : String} {given : Bytes} (h : IsGiven id given) {message : String}
    (hm : message ∈ Batch.messages given) : Published id message := by
  rcases h with rfl | ⟨text, htext, rfl⟩
  · have hnone : Batch.messages [] = [] := by decide +kernel
    rw [hnone] at hm
    cases hm
  rcases htext with rfl | hpublished
  · rw [messages_frame (by simp)] at hm
    simp at hm
  · rw [messages_frame hpublished.cr_not_mem] at hm
    split at hm
    · cases hm
    · rw [List.mem_singleton.mp hm]
      exact hpublished

section
variable {slots slots' : Slots} {id : String} {given : Bytes} {body : ReplyBody}

theorem Gives.isGiven (h : Gives slots id given body) : IsGiven id given := by
  cases body with
  | proof number => exact .inl h.1
  | whole bytes => exact h.2
  | silent => exact h

/-- Others may do what they like with the slots. -/
theorem Gives.keepsIds (h : Gives slots id given body) (hk : slots.KeepsIds slots') :
    Gives slots' id given body := by
  cases body with
  | proof number =>
    obtain ⟨hgiven, hlt, hid⟩ := h
    refine ⟨hgiven, Nat.lt_of_lt_of_le hlt hk.nextNumber, fun sub' hsub' => ?_⟩
    obtain ⟨sub, hsub, heq⟩ := hk.ids number hlt sub' hsub'
    exact heq.trans (hid sub hsub)
  | whole bytes => exact h
  | silent => exact h

/-- What is read from the body of a subscriber is the frame of what was published for its id. -/
theorem Gives.poll {p : Prover} (hp : p.Sound) (h : Gives p.slots id given body) :
    Gives (p.poll body).2.2.slots id (given ++ (p.poll body).1.bytes) (p.poll body).2.1 := by
  cases body with
  | whole bytes =>
    obtain ⟨rfl, hgiven⟩ := h
    show Gives p.slots id (given ++ []) (.whole [])
    rw [List.append_nil]
    exact ⟨rfl, hgiven⟩
  | silent =>
    show Gives p.slots id (given ++ []) .silent
    rw [List.append_nil]
    exact h
  | proof number =>
    obtain ⟨rfl, hlt, hid⟩ := h
    rw [Prover.poll, List.nil_append]
    rcases p.slots.poll_cases number with ⟨text, hdelivery, hpoll⟩ | ⟨hslots, hpoll⟩
    · rw [hpoll]
      obtain ⟨sub, hsub, htext⟩ := hp.origin.delivery hdelivery
      rw [hid sub hsub] at htext
      exact ⟨rfl, .inr ⟨text, htext, rfl⟩⟩
    · generalize p.slots.poll number = polled at hslots hpoll
      obtain ⟨delivery, slots⟩ := polled
      simp only [] at hslots hpoll
      subst hslots
      rcases hpoll with rfl | rfl
      · exact ⟨rfl, hlt, hid⟩
      · exact ⟨rfl, .inl rfl⟩

end

/-- Whether the client has read and will read on a connection what the prover gives for an id, if the
address names one. -/
def Line.Carries (slots : Slots) (source? : Option String) (line : Line) : Prop :=
  match line.reader with
  | .head head => refusal? head = none →
    ∃ id, source? = some id ∧ Gives slots id line.wire line.body
  | .events d =>
    ∃ uses id, d = (Decoder.use uses).decoder ∧ source? = some id ∧
      Gives slots id (Decoder.pushed uses ++ line.wire) line.body
  | .gone => True

namespace Line.Carries

variable {slots slots' : Slots} {source? : Option String} {line : Line}

/-- What is left to give may change as long as it fits what was given. -/
theorem mono (h : line.Carries slots source?) (more : Bytes) (body : ReplyBody)
    (hgives : ∀ id given, Gives slots id given line.body → Gives slots' id (given ++ more) body) :
    ({ line with wire := line.wire ++ more, body } : Line).Carries slots' source? := by
  obtain ⟨reader, wire, rest⟩ := line
  cases reader with
  | head head =>
    intro hopen
    obtain ⟨id, hid, hg⟩ := h hopen
    exact ⟨id, hid, hgives id wire hg⟩
  | events d =>
    obtain ⟨uses, id, hd, hid, hg⟩ := h
    refine ⟨uses, id, hd, hid, ?_⟩
    show Gives slots' id (Decoder.pushed uses ++ (wire ++ more)) body
    rw [← List.append_assoc]
    exact hgives id _ hg
  | gone => exact True.intro

theorem keepsIds (h : line.Carries slots source?) (hk : slots.KeepsIds slots') :
    line.Carries slots' source? := by
  have hmono := h.mono [] line.body fun id given hg => by
    rw [List.append_nil]
    exact hg.keepsIds hk
  rwa [List.append_nil] at hmono

theorem poll {p : Prover} (hp : p.Sound) (h : line.Carries p.slots source?) :
    ({ line with wire := line.wire ++ (p.poll line.body).1.bytes, body := (p.poll line.body).2.1 } :
      Line).Carries (p.poll line.body).2.2.slots source? :=
  h.mono _ _ fun _ _ hg => hg.poll hp

theorem silent (h : line.Carries slots source?) :
    ({ line with body := .silent } : Line).Carries slots' source? := by
  have hgives : ∀ id given, Gives slots id given line.body → Gives slots' id (given ++ []) .silent := by
    intro id given hg
    rw [List.append_nil]
    exact hg.isGiven
  have hmono := h.mono [] .silent hgives
  rwa [List.append_nil] at hmono

/-- A stream that is opened has not been read. -/
theorem opened (h : line.Carries slots source?) {head : Http.Head} (hr : line.reader = .head head)
    (hopen : refusal? head = none) : ({ line with reader := .events {} } : Line).Carries slots source? := by
  rw [Line.Carries, hr] at h
  obtain ⟨id, hid, hg⟩ := h hopen
  exact ⟨[], id, rfl, hid, hg⟩

/-- A chunk goes from the wire to the decoder. -/
theorem chunk (h : line.Carries slots source?) {d : Decoder} (hr : line.reader = .events d) (size : Nat) :
    ({ line with reader := .events (d.push (line.wire.take size)), wire := line.wire.drop size } :
      Line).Carries slots source? := by
  rw [Line.Carries, hr] at h
  obtain ⟨uses, id, rfl, hid, hg⟩ := h
  refine ⟨uses ++ [.push (line.wire.take size)], id, ?_, hid, ?_⟩
  · simp [Decoder.use, List.foldl_append, Decoder.InUse.step]
  · have hpushed : Decoder.pushed (uses ++ [.push (line.wire.take size)]) ++ line.wire.drop size =
        Decoder.pushed uses ++ line.wire := by
      simp [Decoder.pushed]
    rw [← hpushed] at hg
    exact hg

/-- A message that is taken is published for the id that the address names. -/
theorem message (h : line.Carries slots source?) {d rest : Decoder} {message : String}
    (hr : line.reader = .events d) (hn : d.next? = some (message, rest)) :
    ({ line with reader := .events rest } : Line).Carries slots source? ∧
      ∃ id, source? = some id ∧ Published id message := by
  rw [Line.Carries, hr] at h
  obtain ⟨uses, id, rfl, hid, hg⟩ := h
  refine ⟨⟨uses ++ [.next], id, ?_, hid, ?_⟩, id, hid, ?_⟩
  · simp [Decoder.use, List.foldl_append, Decoder.InUse.step] at hn ⊢
    simp [hn]
  · have hpushed : Decoder.pushed (uses ++ [.next]) = Decoder.pushed uses := by simp [Decoder.pushed]
    rw [hpushed]
    exact hg
  · exact hg.isGiven.published (Decoder.mem_messages_of_next? hn line.wire)

end Line.Carries

end ProofRelay.Network
