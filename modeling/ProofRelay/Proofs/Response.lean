import ProofRelay.Proofs.Payload
import ProofRelay.Response

/-!
What a response comes to, said for each way in which its subscription can end: with the key and the
proof if a payload came, and otherwise without them or, under a strict policy, as a failure of the
kind that fits.
-/

namespace ProofRelay

namespace ProvenResponse

/-- The proof is missing: a failure of this kind if the policy is strict, and else the response alone. -/
def Lacks (response : Http.Response) (policy : Policy) (kind : ErrorKind)
    (answer : Except ClientError ProvenResponse) : Prop :=
  if policy.throwOnError then ∃ cause, answer = .error ⟨kind, cause⟩
  else answer = .ok ⟨response, none, none⟩

/-- What a response comes to if nobody gave up on the proof. -/
def Answers (response : Http.Response) (policy : Policy) (answer : Except ClientError ProvenResponse) :
    Outcome → Prop
  | .delivered payload =>
    if payload.raw = "" then Lacks response policy .proofUnavailable answer
    else ∃ key proof, payload.CutsInto key proof ∧ answer = .ok ⟨response, some key, some proof⟩
  | .timedOut => Lacks response policy .proofTimeout answer
  | .streamError _ => Lacks response policy .proofStream answer
  | .unavailable _ => Lacks response policy .proofUnavailable answer
  | .cancelled => False

theorem lacks_of_failure? {response : Http.Response} {policy : Policy} {outcome : Outcome}
    {error : ClientError} (h : failure? outcome = some error) :
    Lacks response policy error.kind (compose response outcome policy) := by
  unfold Lacks compose
  rw [h]
  split
  · exact ⟨error.cause, rfl⟩
  · rfl

theorem answers_compose (response : Http.Response) (policy : Policy) {outcome : Outcome}
    (h : outcome ≠ .cancelled) :
    Answers response policy (compose response outcome policy) outcome := by
  cases outcome with
  | delivered payload =>
    by_cases hp : payload.raw = ""
    · have hf : failure? (.delivered payload) =
          some ⟨.proofUnavailable, some (.text "Prover delivered an empty proof")⟩ := by
        simp [failure?, Payload.isEmpty, hp]
      have hl : Lacks response policy .proofUnavailable (compose response (.delivered payload) policy) :=
        lacks_of_failure? hf
      simpa only [Answers, hp, if_true] using hl
    · have he : payload.isEmpty = false := by simp [Payload.isEmpty, hp]
      simp only [Answers, hp, if_false]
      refine ⟨payload.key, payload.proof, payload.cutsInto_key_proof, ?_⟩
      simp [compose, failure?, attach, he]
  | timedOut => exact lacks_of_failure? (show failure? .timedOut = some ⟨.proofTimeout, _⟩ from rfl)
  | streamError error =>
    exact lacks_of_failure? (show failure? (.streamError error) = some ⟨.proofStream, _⟩ from rfl)
  | unavailable error =>
    exact lacks_of_failure? (show failure? (.unavailable error) = some ⟨.proofUnavailable, _⟩ from rfl)
  | cancelled => exact absurd rfl h

/-- The response comes back without a proof and without a failure just in these cases. -/
theorem compose_eq_unproven_iff {response : Http.Response} {policy : Policy} {outcome : Outcome} :
    compose response outcome policy = .ok (unproven response) ↔
      outcome = .cancelled ∨
        (policy.throwOnError = false ∧ ∀ payload, outcome = .delivered payload → payload.isEmpty = true) := by
  cases hp : policy.throwOnError <;> cases outcome with
  | delivered payload =>
    cases he : payload.isEmpty <;> simp [compose, failure?, attach, unproven, he, hp]
  | _ => simp [compose, failure?, attach, hp]

end ProvenResponse
end ProofRelay
