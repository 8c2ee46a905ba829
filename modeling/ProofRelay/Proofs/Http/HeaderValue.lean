import Mathlib.Tactic.ByContra
import ProofRelay.Http.Headers
import ProofRelay.Proofs.Text.Utf8

/-!
Texts as header values.  A text of visible ASCII characters, blanks and tabs is a header value, and reads as
the same text again.  Other texts can be header values as well, but these do not read as text:

    ofText? s = some v → v.text? = if ReadsAsText s then some s else none          (text?_of_ofText?)

The text that a header value reads as has no carriage return.
-/

namespace ProofRelay.Http.HeaderValue

/-- Whether a text is of visible ASCII characters, blanks and tabs. -/
def ReadsAsText (s : String) : Prop := ∀ c ∈ s.toList, 0x20 ≤ c.toNat ∧ c.toNat < 0x7F ∨ c = '\t'

instance : DecidablePred ReadsAsText := fun s =>
  List.decidableBAll (fun c : Char => 0x20 ≤ c.toNat ∧ c.toNat < 0x7F ∨ c = '\t') s.toList

theorem ReadsAsText.ascii {s : String} (h : ReadsAsText s) : ∀ c ∈ s.toList, c.toNat < 0x80 := by
  intro c hc
  rcases h c hc with ⟨-, hlt⟩ | rfl
  · omega
  · decide

/-- A text reads as text just if all of its bytes do. -/
theorem all_encode_iff {s : String} :
    ((Utf8.encode s).all fun b => 0x20 ≤ b && b < 0x7F || b = 0x09) = true ↔ ReadsAsText s := by
  have hbyte : ∀ c : Char, c.toNat < 0x80 →
      ((0x20 ≤ UInt8.ofNat c.toNat && UInt8.ofNat c.toNat < 0x7F || UInt8.ofNat c.toNat = 0x09) = true ↔
        (0x20 ≤ c.toNat ∧ c.toNat < 0x7F ∨ c = '\t')) := by
    intro c hc
    have hb : (UInt8.ofNat c.toNat).toNat = c.toNat := Utf8.toNat_ofNat (by omega)
    have htab : c.toNat = 9 ↔ c = '\t' := ⟨fun h => Char.toNat_inj.mp h, fun h => h ▸ rfl⟩
    simp only [Bool.or_eq_true, Bool.and_eq_true, decide_eq_true_eq, UInt8.le_iff_toNat_le,
      UInt8.lt_iff_toNat_lt, ← UInt8.toNat_inj, hb, ← htab]
    rfl
  constructor
  · intro hall
    have hascii : ∀ c ∈ s.toList, c.toNat < 0x80 := by
      intro c hc
      by_contra hge
      obtain ⟨b, hb, hhigh⟩ := Utf8.exists_high_of_mem hc (Nat.le_of_not_lt hge)
      have hrange := List.all_eq_true.mp hall b hb
      simp only [Bool.or_eq_true, Bool.and_eq_true, decide_eq_true_eq, UInt8.lt_iff_toNat_lt] at hrange
      rcases hrange with ⟨-, hlt⟩ | rfl
      · exact absurd (Nat.lt_of_le_of_lt hhigh hlt) (by decide)
      · exact absurd hhigh (by decide)
    intro c hc
    rw [Utf8.encode_of_ascii hascii, List.all_map] at hall
    exact (hbyte c (hascii c hc)).mp (List.all_eq_true.mp hall c hc)
  · intro h
    rw [Utf8.encode_of_ascii h.ascii, List.all_map]
    exact List.all_eq_true.mpr fun c hc => (hbyte c (h.ascii c hc)).mpr (h c hc)

theorem bytes_of_ofText? {s : String} {v : HeaderValue} (h : ofText? s = some v) :
    v.bytes = Utf8.encode s := by
  unfold ofText? ofBytes? at h
  split at h
  · cases h
    rfl
  · cases h

/-- **What a text reads as** once it is a header value: itself, unless it has other characters. -/
theorem text?_of_ofText? {s : String} {v : HeaderValue} (h : ofText? s = some v) :
    v.text? = if ReadsAsText s then some s else none := by
  unfold text?
  rw [bytes_of_ofText? h]
  by_cases hs : ReadsAsText s
  · rw [if_pos hs, if_pos (all_encode_iff.mpr hs), Utf8.ascii_encode hs.ascii]
  · rw [if_neg hs, if_neg (fun hall => hs (all_encode_iff.mp hall))]

/-- A text that reads as text is a header value. -/
theorem exists_of_readsAsText {s : String} (h : ReadsAsText s) :
    ∃ v, ofText? s = some v ∧ v.text? = some s := by
  have hall : (Utf8.encode s).all isValueByte = true := by
    refine List.all_eq_true.mpr fun b hb => ?_
    have hrange := List.all_eq_true.mp (all_encode_iff.mpr h) b hb
    simp only [Bool.or_eq_true, Bool.and_eq_true, decide_eq_true_eq] at hrange
    rcases hrange with ⟨hl, hu⟩ | rfl
    · have hne : b ≠ 0x7F := by
        rintro rfl
        exact absurd hu (by decide)
      simp [isValueByte, hl, hne]
    · rfl
  have hv : ofText? s = some ⟨Utf8.encode s, hall⟩ := by rw [ofText?, ofBytes?, dif_pos hall]
  exact ⟨_, hv, by rw [text?_of_ofText? hv, if_pos h]⟩

/-- No text of a header ends a line. -/
theorem cr_not_mem_of_text? {v : HeaderValue} {s : String} (h : v.text? = some s) : '\r' ∉ s.toList := by
  unfold text? at h
  split at h
  · next hall =>
    cases h
    rw [Utf8.ascii, String.toList_ofList]
    intro hmem
    obtain ⟨b, hb, hchar⟩ := List.mem_map.mp hmem
    have hrange := List.all_eq_true.mp hall b hb
    have hcode : ∀ n : Fin 256, Char.ofNat n = '\r' → n.val = 13 := by decide +kernel
    have hb : b = 13 := UInt8.toNat_inj.mp (hcode ⟨b.toNat, b.toNat_lt⟩ hchar)
    rw [hb] at hrange
    exact absurd hrange (by decide)
  · cases h

end ProofRelay.Http.HeaderValue
