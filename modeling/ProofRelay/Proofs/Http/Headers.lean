import ProofRelay.Proofs.Http.HeaderValue
import ProofRelay.Proofs.Text.Lossy

/-!
What headers say.  A name may have any number of values, of any bytes without controls; only the first one is
read, and only if it is a text of visible ASCII characters, blanks and tabs:

    h.text? name = some s  ↔  the first value of the name has the bytes of s, and s is such a text      (says_iff)
-/

namespace ProofRelay.Http

namespace HeaderValue

/-- **A value reads as a text** just if it has the bytes of it, and all its characters are read. -/
theorem text?_eq_some_iff {v : HeaderValue} {s : String} :
    v.text? = some s ↔ v.bytes = Utf8.encode s ∧ ReadsAsText s := by
  unfold text?
  constructor
  · intro h
    split at h
    · next hall =>
      cases h
      have hbytes : Utf8.encode (Utf8.ascii v.bytes) = v.bytes := by
        refine Utf8.encode_ascii fun b hb => ?_
        have hrange := List.all_eq_true.mp hall b hb
        simp only [Bool.or_eq_true, Bool.and_eq_true, decide_eq_true_eq] at hrange
        rcases hrange with ⟨-, hlt⟩ | rfl
        · exact Nat.lt_trans (UInt8.lt_iff_toNat_lt.mp hlt) (by decide)
        · decide
      exact ⟨hbytes.symm, all_encode_iff.mp (by rwa [hbytes])⟩
    · cases h
  · rintro ⟨hbytes, hs⟩
    rw [hbytes, if_pos (all_encode_iff.mpr hs), Utf8.ascii_encode hs.ascii]

end HeaderValue

namespace Headers

/-- Whether the first value of a name reads as a text. -/
def Says (h : Headers) (name : HeaderName) (text : String) : Prop :=
  ∃ v later, h.values name = v :: later ∧ v.bytes = Utf8.encode text ∧ HeaderValue.ReadsAsText text

theorem says_iff {h : Headers} {name : HeaderName} {text : String} :
    h.Says name text ↔ h.text? name = some text := by
  unfold Says text? first?
  cases hvalues : h.values name with
  | nil => simp
  | cons v later =>
    rw [List.head?_cons, Option.bind_some, HeaderValue.text?_eq_some_iff]
    constructor
    · rintro ⟨v', later', heq, hbytes, hs⟩
      cases heq
      exact ⟨hbytes, hs⟩
    · rintro ⟨hbytes, hs⟩
      exact ⟨v, later, rfl, hbytes, hs⟩

/-- Nothing is said by a name without values, or whose first one does not read as text. -/
theorem text?_eq_none_iff {h : Headers} {name : HeaderName} : h.text? name = none ↔ ∀ text, ¬h.Says name text := by
  simp only [says_iff, Option.eq_none_iff_forall_ne_some]

end Headers
end ProofRelay.Http
