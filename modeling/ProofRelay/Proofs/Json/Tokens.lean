import ProofRelay.Proofs.Json.Text

/-!
The tokens of JSON: blanks, words, numbers (`IsNumber`), and what stands between quotes (`IsQuoted`).
The grammar is told without a reader, and numbers and texts are skipped to their end:

    IsNumber bs → EndsNumber rest → skipNumber (bs ++ rest) = .ok rest     (skipNumber_append)
    IsQuoted bs → skipText (bs ++ quote :: rest) = .ok rest                (skipText_append)

A number has no mark at its end, so what follows it may not continue it (`EndsNumber`).
-/

namespace ProofRelay.Json

def colonByte : UInt8 := 0x3A

def commaByte : UInt8 := 0x2C

/-! ## Blanks -/

def AreBlanks (ws : Bytes) : Prop := ∀ b ∈ ws, isBlank b = true

theorem AreBlanks.nil : AreBlanks [] := by
  intro b hb
  cases hb

theorem skipBlanks_append {ws : Bytes} (h : AreBlanks ws) (bs : Bytes) : skipBlanks (ws ++ bs) = skipBlanks bs :=
  List.dropWhile_append_of_pos h

theorem skipBlanks_cons {b : UInt8} (h : isBlank b = false) (bs : Bytes) : skipBlanks (b :: bs) = b :: bs := by
  rw [skipBlanks, List.dropWhile_cons, if_neg (by rw [h]; decide)]

theorem skipBlanks_append_cons {ws : Bytes} (hws : AreBlanks ws) {b : UInt8} (hb : isBlank b = false) (bs : Bytes) :
    skipBlanks (ws ++ b :: bs) = b :: bs := by
  rw [skipBlanks_append hws, skipBlanks_cons hb]

/-! ## Words -/

theorem encode_null : Utf8.encode "null" = [0x6E, 0x75, 0x6C, 0x6C] := by decide +kernel

theorem encode_true : Utf8.encode "true" = [0x74, 0x72, 0x75, 0x65] := by decide +kernel

theorem encode_false : Utf8.encode "false" = [0x66, 0x61, 0x6C, 0x73, 0x65] := by decide +kernel

/-! ## Numbers -/

/-- Decimal digits, at least one. -/
structure AreDigits (ds : Bytes) : Prop where
  some_digit : ds ≠ []
  isSome_digit? : ∀ b ∈ ds, (digit? b).isSome

inductive IsFraction : Bytes → Prop
  | none : IsFraction []
  | point {ds : Bytes} (digits : AreDigits ds) : IsFraction (0x2E :: ds)

inductive IsExponent : Bytes → Prop
  | none : IsExponent []
  | mark {e : UInt8} {s ds : Bytes} (mark : e = 0x65 ∨ e = 0x45) (sign : s = [] ∨ s = [0x2B] ∨ s = [0x2D])
      (digits : AreDigits ds) : IsExponent (e :: (s ++ ds))

/-- The bytes of a number after its sign.  No zero stands before another digit of the whole part. -/
inductive IsNumber : Bytes → Prop
  | parts {ds fs es : Bytes} (whole : AreDigits ds) (zero : ds.head? = some 0x30 → ds = [0x30])
      (fraction : IsFraction fs) (exponent : IsExponent es) : IsNumber (ds ++ (fs ++ es))

/-- What follows does not continue a number. -/
def EndsNumber (rest : Bytes) : Prop := ∀ b ∈ rest.head?, digit? b = none ∧ b ≠ 0x2E ∧ b ≠ 0x65 ∧ b ≠ 0x45

theorem endsNumber_cons {b : UInt8} (h : digit? b = none ∧ b ≠ 0x2E ∧ b ≠ 0x65 ∧ b ≠ 0x45) (rest : Bytes) :
    EndsNumber (b :: rest) := by
  intro c hc
  obtain rfl := Option.some.inj hc
  exact h

theorem endsNumber_of_isBlank {b : UInt8} (h : isBlank b = true) (rest : Bytes) : EndsNumber (b :: rest) := by
  refine endsNumber_cons ?_ rest
  simp only [isBlank, Bool.or_eq_true, decide_eq_true_eq] at h
  rcases h with ((rfl | rfl) | rfl) | rfl <;> decide

/-- Blanks do not continue a number. -/
theorem EndsNumber.append {ws rest : Bytes} (hws : AreBlanks ws) (h : EndsNumber rest) : EndsNumber (ws ++ rest) := by
  cases ws with
  | nil => exact h
  | cons b ws => exact endsNumber_of_isBlank (hws b List.mem_cons_self) (ws ++ rest)

theorem digit?_eq_zero {b : UInt8} (h : digit? b = some 0) : b = 0x30 := by
  unfold digit? at h
  split at h
  · next hrange =>
    obtain ⟨hl, -⟩ := hrange
    have hle : 0x30 ≤ b.toNat := UInt8.le_iff_toNat_le.mp hl
    have hzero : b.toNat - 0x30 = 0 := Option.some.inj h
    rw [← UInt8.toNat_inj]
    show b.toNat = 0x30
    omega
  · cases h

theorem spanDigits_append {ds rest : Bytes} (hds : ∀ b ∈ ds, (digit? b).isSome)
    (hrest : ∀ b ∈ rest.head?, digit? b = none) : spanDigits (ds ++ rest) = (ds.filterMap digit?, rest) := by
  induction ds with
  | nil =>
    cases rest with
    | nil => rfl
    | cons b rest =>
      rw [List.nil_append, spanDigits, hrest b rfl]
      rfl
  | cons b ds ih =>
    obtain ⟨d, hd⟩ := Option.isSome_iff_exists.mp (hds b List.mem_cons_self)
    rw [List.cons_append, spanDigits, hd, List.filterMap_cons_some hd]
    simp only []
    rw [ih fun c hc => hds c (List.mem_cons_of_mem _ hc)]

theorem AreDigits.span {ds rest : Bytes} (h : AreDigits ds) (hrest : ∀ b ∈ rest.head?, digit? b = none) :
    ∃ d ds', spanDigits (ds ++ rest) = (d :: ds', rest) ∧ ds.filterMap digit? = d :: ds' := by
  rw [spanDigits_append h.isSome_digit? hrest]
  obtain ⟨b, ds', rfl⟩ := List.exists_cons_of_ne_nil h.some_digit
  obtain ⟨d, hd⟩ := Option.isSome_iff_exists.mp (h.isSome_digit? b List.mem_cons_self)
  exact ⟨d, ds'.filterMap digit?, by rw [List.filterMap_cons_some hd], List.filterMap_cons_some hd⟩

theorem skipDigits_append {ds rest : Bytes} (h : AreDigits ds) (hrest : ∀ b ∈ rest.head?, digit? b = none) :
    skipDigits (ds ++ rest) = .ok rest := by
  obtain ⟨d, ds', hspan, -⟩ := h.span hrest
  rw [skipDigits, hspan]

theorem skipExponent_append {es rest : Bytes} (h : IsExponent es) (hrest : EndsNumber rest) :
    skipExponent (es ++ rest) = .ok rest := by
  rw [skipExponent.eq_def]
  cases h with
  | none =>
    cases rest with
    | nil => rfl
    | cons b rest =>
      obtain ⟨-, -, hlower, hupper⟩ := hrest b rfl
      simp only [List.nil_append]
      rw [if_neg (by simp [hlower, hupper])]
  | @mark e s ds mark sign digits =>
    have hskip := skipDigits_append digits fun b hb => (hrest b hb).1
    simp only [List.cons_append]
    rw [if_pos mark]
    rcases sign with rfl | rfl | rfl
    · -- a digit is no sign
      obtain ⟨b, ds', rfl⟩ := List.exists_cons_of_ne_nil digits.some_digit
      have hb := digits.isSome_digit? b List.mem_cons_self
      split
      · next heq =>
        obtain ⟨rfl, -⟩ := List.cons.inj heq
        cases hb
      · next heq =>
        obtain ⟨rfl, -⟩ := List.cons.inj heq
        cases hb
      · exact hskip
    · exact hskip
    · exact hskip

/-- What follows the whole part is no digit. -/
theorem head?_fraction_exponent {fs es rest : Bytes} (hfs : IsFraction fs) (hes : IsExponent es)
    (hrest : EndsNumber rest) : ∀ b ∈ (fs ++ es ++ rest).head?, digit? b = none := by
  intro b hb
  cases hfs with
  | point => obtain rfl := Option.some.inj hb; decide
  | none =>
    cases hes with
    | none => exact (hrest b hb).1
    | mark mark =>
      obtain rfl := Option.some.inj hb
      rcases mark with rfl | rfl <;> decide

section
variable {bs rest : Bytes} {d : Nat} {ds : List Nat} (hzero : d = 0 → ds = [])
include hzero

theorem skipNumber_of_point (hspan : spanDigits bs = (d :: ds, 0x2E :: rest)) :
    skipNumber bs = skipDigits rest >>= skipExponent := by
  rw [skipNumber, hspan]
  split
  · next heq => cases heq
  · next heq =>
    obtain ⟨rfl, rfl⟩ := List.cons.inj (Prod.mk.inj heq).1
    cases hzero rfl
  · next heq =>
    obtain ⟨-, rfl⟩ := List.cons.inj (Prod.mk.inj heq).2
    rfl
  · next hpoint heq => exact absurd (Prod.mk.inj heq).2.symm (hpoint _)

theorem skipNumber_of_not_point (hspan : spanDigits bs = (d :: ds, rest)) (hpoint : rest.head? ≠ some 0x2E) :
    skipNumber bs = skipExponent rest := by
  rw [skipNumber, hspan]
  split
  · next heq => cases heq
  · next heq =>
    obtain ⟨rfl, rfl⟩ := List.cons.inj (Prod.mk.inj heq).1
    cases hzero rfl
  · next heq =>
    rw [(Prod.mk.inj heq).2] at hpoint
    exact absurd rfl hpoint
  · next heq => rw [(Prod.mk.inj heq).2]

end

/-- **A number is skipped.** -/
theorem skipNumber_append {bs rest : Bytes} (h : IsNumber bs) (hrest : EndsNumber rest) :
    skipNumber (bs ++ rest) = .ok rest := by
  obtain ⟨whole, zero, fraction, exponent⟩ := h
  next ds fs es =>
  obtain ⟨d, ds', hspan, hvalues⟩ := whole.span (head?_fraction_exponent fraction exponent hrest)
  have hzero : d = 0 → ds' = [] := by
    rintro rfl
    obtain ⟨b, more, rfl⟩ := List.exists_cons_of_ne_nil whole.some_digit
    obtain ⟨d₀, hd₀⟩ := Option.isSome_iff_exists.mp (whole.isSome_digit? b List.mem_cons_self)
    rw [List.filterMap_cons_some hd₀] at hvalues
    obtain ⟨rfl, rfl⟩ := List.cons.inj hvalues
    obtain rfl := digit?_eq_zero hd₀
    obtain ⟨-, rfl⟩ := List.cons.inj (zero rfl)
    rfl
  rw [List.append_assoc]
  cases fraction with
  | @point fs digits =>
    have hskip : skipDigits (fs ++ (es ++ rest)) = .ok (es ++ rest) :=
      skipDigits_append digits (head?_fraction_exponent .none exponent hrest)
    rw [List.cons_append, List.cons_append, List.append_assoc] at hspan ⊢
    rw [skipNumber_of_point hzero hspan, hskip]
    exact skipExponent_append exponent hrest
  | none =>
    rw [List.nil_append] at hspan ⊢
    rw [skipNumber_of_not_point hzero hspan ?_]
    · exact skipExponent_append exponent hrest
    · intro hpoint
      cases exponent with
      | none => exact (hrest _ hpoint).2.1 rfl
      | mark mark =>
        obtain rfl := Option.some.inj hpoint
        rcases mark with h | h <;> cases h

/-! ## Texts -/

/-- The bytes between quotes, which need not be UTF-8. -/
inductive IsQuoted : Bytes → Prop
  | nil : IsQuoted []
  | plain {b : UInt8} {bs : Bytes} (first : IsPlain b) (later : IsQuoted bs) : IsQuoted (b :: bs)
  | short {e : UInt8} {bs : Bytes} (escape : (shortEscape? e).isSome) (later : IsQuoted bs) :
      IsQuoted (0x5C :: e :: bs)
  /-- An escaped unit need not be a character. -/
  | unit {u₁ u₂ u₃ u₄ : UInt8} {bs : Bytes} (escape : (hexUnit? u₁ u₂ u₃ u₄).isSome) (later : IsQuoted bs) :
      IsQuoted (0x5C :: 0x75 :: u₁ :: u₂ :: u₃ :: u₄ :: bs)

/-- **A text is skipped.** -/
theorem skipText_append {bs : Bytes} (h : IsQuoted bs) (rest : Bytes) :
    skipText (bs ++ quoteByte :: rest) = .ok rest := by
  induction h with
  | nil =>
    rw [List.nil_append, skipText.eq_def]
    simp [quoteByte]
  | plain first later ih =>
    obtain ⟨hquote, hescape, hcontrol⟩ := first
    rw [List.cons_append, skipText.eq_def]
    simp only []
    rw [if_neg hquote, if_neg hescape, if_neg (UInt8.not_lt.mpr hcontrol), ih]
  | short escape later ih =>
    obtain ⟨b, hb⟩ := Option.isSome_iff_exists.mp escape
    obtain ⟨hunit, -⟩ := lt_of_shortEscape? hb
    rw [List.cons_append, List.cons_append, skipText.eq_def]
    simp only []
    rw [if_neg (by decide), if_pos trivial, if_pos escape, ih]
  | unit escape later ih =>
    rw [skipText.eq_def]
    simp only [List.cons_append]
    rw [if_neg (by decide), if_pos trivial, if_pos escape, ih]

end ProofRelay.Json
