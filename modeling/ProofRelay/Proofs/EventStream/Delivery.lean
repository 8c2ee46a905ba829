import ProofRelay.Proofs.EventStream.Chunks
import ProofRelay.Proofs.EventStream.Frames
import ProofRelay.Proofs.Response

/-!
Proofs on their way through an event stream.  The payload of a key and a proof is framed as one event.  However
the bytes of the event are cut, one message is read from them, and it is this payload; a response that is joined
with it has the key and the proof, and is otherwise as it was:

    pushed uses = encode (frame message) → (use (uses ++ [.next])).popped = [message]        (popped_of_frame)
    compose response (.delivered (ofParts key proof)) policy = .ok ⟨response, key, proof⟩    (compose_ofParts)

Each layer has marks of its own, and the next one meets none of them: a payload is cut at its first separator
only, line feeds stand between data lines, and every data line begins with the name of its field, so no line of
a proof is a blank one or begins with a byte order mark.
-/

namespace ProofRelay

namespace EventStream.Decoder

/-- The message of a frame is the only one that is read from it, however it is cut. -/
theorem popped_of_frame {message : String} (hne : message ≠ "") (hcr : '\r' ∉ message.toList)
    {uses : List Use} (h : pushed uses = Utf8.encode (frame message)) :
    (use (uses ++ [.next])).popped = [message] := by
  have hmessages : Batch.messages (pushed uses) = [message] := by
    rw [h, messages_frame hcr, if_neg hne]
  have hcount : (Batch.messages (pushed uses)).length ≤ 1 := by simp [hmessages]
  rw [← hmessages]
  exact popped_append_nexts hcount

end EventStream.Decoder

namespace ProvenResponse

/-- A payload of parts gives its parts to any response, whatever the policy. -/
theorem compose_ofParts {key : String} (hkey : Payload.separator ∉ key.toList) (proof : String)
    (response : Http.Response) (policy : Policy) :
    compose response (.delivered (.ofParts key proof)) policy =
      .ok ⟨response, some key, some proof⟩ := by
  have hfull : (Payload.ofParts key proof).isEmpty = false := by
    simpa [Payload.isEmpty] using Payload.raw_ofParts_ne_empty key proof
  obtain ⟨hk, hp⟩ := Payload.split_ofParts hkey proof
  simp [compose, failure?, attach, hfull, hk, hp]

end ProvenResponse

namespace EventStream

/-- **Proofs are delivered unchanged.**  For a key without separators and carriage returns and a proof
without carriage returns, the event of their payload is read, in any chunks and with takings in between, as
one message, which gives the key and the proof to any response under any policy. -/
theorem key_and_proof_of_chunks {key proof : String} (hkey : Payload.separator ∉ key.toList)
    (hkeyCr : '\r' ∉ key.toList) (hproofCr : '\r' ∉ proof.toList) {uses : List Decoder.Use}
    (hbytes : Decoder.pushed uses = Utf8.encode (frame (Payload.ofParts key proof).raw)) :
    ∃ message, (Decoder.use (uses ++ [.next])).popped = [message] ∧
      ∀ (response : Http.Response) (policy : Policy),
        ProvenResponse.compose response (.delivered ⟨message⟩) policy =
          .ok ⟨response, some key, some proof⟩ := by
  have hcr : '\r' ∉ (Payload.ofParts key proof).raw.toList := by
    rw [Payload.toList_raw_ofParts]
    simp [hkeyCr, hproofCr, Payload.separator]
  have hne := Payload.raw_ofParts_ne_empty key proof
  exact ⟨_, Decoder.popped_of_frame hne hcr hbytes, ProvenResponse.compose_ofParts hkey proof⟩

/-- The uses of a decoder that gets its bytes one by one, and that is asked for a message after each. -/
def Decoder.bytewise (bytes : Bytes) : List Decoder.Use := bytes.flatMap fun b => [.push [b], .next]

theorem Decoder.pushed_bytewise (bytes : Bytes) : pushed (bytewise bytes) = bytes := by
  induction bytes with
  | nil => rfl
  | cons b bytes ih => exact congrArg (b :: ·) ih

/-- Blank lines, blanks, colons, a byte order mark and cuts within characters do not matter. -/
theorem key_and_proof_of_chunks_of_bytes :
    let key := "\n\uFEFFdata: é"
    let proof := " |\n\n\uFEFF:ß|\n"
    let uses := Decoder.bytewise (Utf8.encode (frame (Payload.ofParts key proof).raw))
    Payload.separator ∉ key.toList ∧ '\r' ∉ key.toList ∧ '\r' ∉ proof.toList ∧
      ∃ message, (Decoder.use (uses ++ [.next])).popped = [message] ∧
        ∀ (response : Http.Response) (policy : Policy),
          ProvenResponse.compose response (.delivered ⟨message⟩) policy =
            .ok ⟨response, some key, some proof⟩ := by
  intro key proof uses
  have hkey : Payload.separator ∉ key.toList := by decide +kernel
  have hkeyCr : '\r' ∉ key.toList := by decide +kernel
  have hproofCr : '\r' ∉ proof.toList := by decide +kernel
  exact ⟨hkey, hkeyCr, hproofCr,
    key_and_proof_of_chunks hkey hkeyCr hproofCr (Decoder.pushed_bytewise _)⟩

end EventStream
end ProofRelay
