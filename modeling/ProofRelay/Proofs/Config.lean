import ProofRelay.Exchange
import ProofRelay.Proofs.Http.Uri
import ProofRelay.Proofs.RequestId

/-!
The addresses that a configuration gives: the address of a prover, which ends in no slash (`getLast?_base`), and
the paths that are put behind it, in which nothing ends a path (`endsPath_proxy`, `endsPath_proofPath`).
-/

namespace ProofRelay

theorem Config.getLast?_base (config : Config) : config.base.toList.getLast? ≠ some '/' := by
  rw [base, trimSlashes, String.toList_ofList, List.getLast?_reverse]
  intro h
  have hstop := List.head?_dropWhile_not (fun c => decide (c = '/')) config.proverUrl.toList.reverse
  rw [h] at hstop
  simp at hstop

/-- A character of an id does not end a path, and stands for itself. -/
theorem RequestId.IsIdChar.plain {c : Char} (h : IsIdChar c) : Http.Uri.endsPath c = false ∧ c ≠ '%' := by
  have hne : ∀ d, isHexChar d = false ∧ d ≠ '-' → c ≠ d := by
    rintro d ⟨hhex, hhyphen⟩ rfl
    rcases h with h | h
    · rw [hhex] at h
      cases h
    · exact hhyphen h
  have hquery := hne '?' (by decide)
  have hfragment := hne '#' (by decide)
  exact ⟨by simp [Http.Uri.endsPath, hquery, hfragment], hne '%' (by decide)⟩

/-! ## The paths at a prover -/

namespace Config

/-- The path under which the proof of a request is pushed. -/
def proofPath (id : RequestId) : String := ProverPath.proof.text ++ "/" ++ id.text

theorem proofUrl_eq (config : Config) (id : RequestId) : config.proofUrl id = config.base ++ proofPath id := by
  rw [proofUrl, endpoint, proofPath, String.append_assoc, String.append_assoc, String.append_assoc]

theorem toList_proxy : ProverPath.proxy.text.toList = '/' :: 'p' :: ['r', 'o', 'x', 'y'] := by decide +kernel

theorem toList_proofPath (id : RequestId) :
    (proofPath id).toList = '/' :: 'p' :: (['r', 'o', 'o', 'f'] ++ '/' :: id.text.toList) := by
  have htext : ProverPath.proof.text.toList = '/' :: 'p' :: ['r', 'o', 'o', 'f'] := by decide +kernel
  simp [proofPath, htext]

theorem endsPath_proxy : ∀ d ∈ ProverPath.proxy.text.toList, Http.Uri.endsPath d = false := by
  rw [toList_proxy]
  simp [Http.Uri.endsPath]

theorem endsPath_proofPath (bits : BitVec 122) :
    ∀ d ∈ (proofPath (.ofBits bits)).toList, Http.Uri.endsPath d = false := by
  rw [toList_proofPath]
  simp only [List.forall_mem_append, List.forall_mem_cons]
  exact ⟨by decide, by decide, by simp [Http.Uri.endsPath], by decide,
    fun d hd => (RequestId.isIdChar_of_mem bits d hd).plain.1⟩

end Config
end ProofRelay
