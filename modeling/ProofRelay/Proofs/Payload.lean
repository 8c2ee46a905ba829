import Mathlib.Data.List.TakeWhile
import ProofRelay.Payload

/-!
Where a payload is cut.  `Payload.CutsInto` says it without cutting: the key holds no separator and
the first separator follows it, or there is no separator and all is proof.

Parts that are joined and cut again, and a payload that is cut and joined again, are kept under conditions of
their own:

    (ofParts key proof).split = (key, proof)  ↔  the key holds no separator      (split_ofParts_eq_iff)
    ofParts p.key p.proof = p                 ↔  the payload holds a separator   (ofParts_key_proof_eq_iff)
-/

namespace ProofRelay.Payload

/-- What the key and the proof of a payload are. -/
def CutsInto (p : Payload) (key proof : String) : Prop :=
  (p.raw = key.push separator ++ proof ∧ separator ∉ key.toList) ∨
    (separator ∉ p.raw.toList ∧ key = "" ∧ proof = p.raw)

theorem ne_separator {cs : List Char} (h : separator ∉ cs) : ∀ c ∈ cs, decide (c ≠ separator) = true := by
  intro c hc
  rw [decide_eq_true_iff]
  rintro rfl
  exact h hc

theorem splitChars_of_not_mem {cs : List Char} (h : separator ∉ cs) : splitChars cs = ([], cs) := by
  unfold splitChars
  rw [List.dropWhile_eq_nil_iff.mpr (ne_separator h)]

theorem splitChars_append {key : List Char} (h : separator ∉ key) (proof : List Char) :
    splitChars (key ++ separator :: proof) = (key, proof) := by
  unfold splitChars
  rw [List.dropWhile_append_of_pos (ne_separator h), List.takeWhile_append_of_pos (ne_separator h)]
  simp

theorem key_eq (p : Payload) : p.key = String.ofList (splitChars p.raw.toList).1 := rfl

theorem proof_eq (p : Payload) : p.proof = String.ofList (splitChars p.raw.toList).2 := rfl

/-- A payload is cut at its first separator. -/
theorem cutsInto_key_proof (p : Payload) : p.CutsInto p.key p.proof := by
  rw [key_eq, proof_eq]
  by_cases h : separator ∈ p.raw.toList
  · obtain ⟨key, proof, hraw, hkey⟩ := List.eq_append_cons_of_mem h
    have hs : splitChars p.raw.toList = (key, proof) := by
      rw [hraw, splitChars_append hkey]
    rw [hs]
    refine .inl ⟨?_, by simpa using hkey⟩
    rw [← String.toList_inj, hraw]
    simp
  · rw [splitChars_of_not_mem h]
    exact .inr ⟨h, rfl, String.ofList_toList⟩

theorem toList_raw_ofParts (key proof : String) :
    (ofParts key proof).raw.toList = key.toList ++ separator :: proof.toList := by
  simp [ofParts]

/-- Parts always make a payload that is not empty. -/
theorem raw_ofParts_ne_empty (key proof : String) : (ofParts key proof).raw ≠ "" := by
  intro h
  have hlist := toList_raw_ofParts key proof
  rw [h] at hlist
  simp at hlist

/-- A key without a separator is read again from its payload, and so is the proof. -/
theorem split_ofParts {key : String} (h : separator ∉ key.toList) (proof : String) :
    (ofParts key proof).key = key ∧ (ofParts key proof).proof = proof := by
  rw [key_eq, proof_eq, toList_raw_ofParts, splitChars_append h]
  exact ⟨String.ofList_toList, String.ofList_toList⟩

/-! ## Joined and cut again -/

theorem split_eq (p : Payload) : p.split = (p.key, p.proof) := rfl

/-- A key ends before the first separator. -/
theorem separator_not_mem_key (p : Payload) : separator ∉ p.key.toList := by
  rcases p.cutsInto_key_proof with ⟨-, hkey⟩ | ⟨-, hkey, -⟩
  · exact hkey
  · rw [hkey]
    exact List.not_mem_nil

/-- Parts are read again from their payload if the key holds no separator, and only then. -/
theorem split_ofParts_eq_iff {key proof : String} :
    (ofParts key proof).split = (key, proof) ↔ separator ∉ key.toList := by
  constructor
  · intro h
    have hkey : (ofParts key proof).key = key := congrArg Prod.fst h
    exact hkey ▸ separator_not_mem_key (ofParts key proof)
  · intro h
    obtain ⟨hkey, hproof⟩ := split_ofParts h proof
    rw [split_eq, hkey, hproof]

/-- A payload is made again from its parts if it holds a separator; without one it would get one. -/
theorem ofParts_key_proof_eq_iff {p : Payload} : ofParts p.key p.proof = p ↔ separator ∈ p.raw.toList := by
  constructor
  · intro h
    rw [← h, toList_raw_ofParts]
    exact List.mem_append_right _ List.mem_cons_self
  · intro h
    rcases p.cutsInto_key_proof with ⟨hraw, -⟩ | ⟨hnone, -, -⟩
    · rw [ofParts, ← hraw]
    · exact absurd h hnone

/-- **Parts and payloads**: parts survive being joined just if their key holds no separator, and a payload survives
being cut just if it holds one.  Every key that is cut off holds none, so joining what was cut changes no part. -/
theorem joined_cut_and_cut_joined :
    (∀ key proof : String, (ofParts key proof).split = (key, proof) ↔ separator ∉ key.toList) ∧
    ∀ p : Payload,
      (ofParts p.key p.proof = p ↔ separator ∈ p.raw.toList) ∧
      (ofParts p.key p.proof).split = p.split ∧
      separator ∉ p.key.toList :=
  ⟨fun _ _ => split_ofParts_eq_iff, fun p =>
    ⟨ofParts_key_proof_eq_iff, split_ofParts_eq_iff.mpr p.separator_not_mem_key, p.separator_not_mem_key⟩⟩

end ProofRelay.Payload
