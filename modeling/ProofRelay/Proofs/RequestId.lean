import ProofRelay.Proofs.Http.HeaderValue
import ProofRelay.RequestId

/-!
The characters of ids.  An id is written in hexadecimal digits and hyphens, so it is a header value
and needs no encoding in a path.
-/

namespace ProofRelay.RequestId

/-- Whether a character may stand in an id. -/
def IsIdChar (c : Char) : Prop := isHexChar c = true ∨ c = '-'

theorem isHexChar_digitChar {n : Nat} (h : n < 16) : isHexChar (Nat.digitChar n) = true := by
  have hall : ∀ n : Fin 16, isHexChar (Nat.digitChar n) = true := by decide
  exact hall ⟨n, h⟩

theorem isHexChar_of_mem_hexDigits {count n : Nat} {c : Char} (h : c ∈ hexDigits count n) :
    isHexChar c = true := by
  induction count generalizing n with
  | zero => simp [hexDigits] at h
  | succ count ih =>
    rw [hexDigits, List.mem_append] at h
    rcases h with h | h
    · exact ih h
    · rw [List.mem_singleton.mp h]
      exact isHexChar_digitChar (Nat.mod_lt _ (by decide))

/-- An id is written in hexadecimal digits and hyphens. -/
theorem isIdChar_of_mem (bits : BitVec 122) : ∀ c ∈ (ofBits bits).text.toList, IsIdChar c := by
  have hdigits : ∀ count n, ∀ c ∈ hexDigits count n, IsIdChar c :=
    fun count n c hc => .inl (isHexChar_of_mem_hexDigits hc)
  have hvariant : ∀ n : Nat, IsIdChar (Nat.digitChar (8 + n % 4)) :=
    fun n => .inl (isHexChar_digitChar (by omega))
  have hhyphen : IsIdChar '-' := .inr rfl
  have hversion : IsIdChar '4' := .inl (by decide)
  simp only [ofBits, String.toList_ofList, List.forall_mem_append, List.forall_mem_cons]
  refine ⟨⟨⟨⟨fun c hc => ?_, hhyphen, fun c hc => ?_⟩, hhyphen, hversion, fun c hc => ?_⟩, hhyphen,
    hvariant _, hdigits _ _⟩, hhyphen, hdigits _ _⟩
  · exact hdigits _ _ c (List.mem_of_mem_take hc)
  · exact hdigits _ _ c (List.mem_of_mem_drop (List.mem_of_mem_take hc))
  · exact hdigits _ _ c (List.mem_of_mem_drop hc)

theorem IsIdChar.visible {c : Char} (h : IsIdChar c) : 0x20 ≤ c.toNat ∧ c.toNat < 0x7F := by
  rcases h with h | rfl
  · simp only [isHexChar, Char.isDigit, Bool.or_eq_true, Bool.and_eq_true, decide_eq_true_eq, Char.le_def,
      UInt32.le_iff_toNat_le] at h
    show 0x20 ≤ c.val.toNat ∧ c.val.toNat < 0x7F
    rcases h with ⟨hl, hu⟩ | ⟨hl, hu⟩
    · exact ⟨Nat.le_trans (by decide) hl, Nat.lt_of_le_of_lt hu (by decide)⟩
    · exact ⟨Nat.le_trans (by decide) hl, Nat.lt_of_le_of_lt hu (by decide)⟩
  · decide

/-- An id is a header value, and reads as text. -/
theorem exists_headerValue (bits : BitVec 122) :
    ∃ v, Http.HeaderValue.ofText? (ofBits bits).text = some v ∧ v.text? = some (ofBits bits).text :=
  Http.HeaderValue.exists_of_readsAsText fun c hc => .inl (isIdChar_of_mem bits c hc).visible

end ProofRelay.RequestId
