import ProofRelay.Decimal.Natural

/-!
Which texts are numbers.  A numeral is one or more decimal digits (`IsNumeral`), with zeros before the others as one
likes, and a number is a numeral that may have a plus sign before it (`Writes`).  The reader takes the digits one by
one and gives up as soon as the number is too large, however many digits follow:

    parse greatest cs = .ok n  ↔  Writes cs n ∧ n ≤ greatest        (parse_eq_ok_iff)
-/

namespace ProofRelay.Decimal.Natural

/-- Digits that have a value. -/
structure IsNumeral (ds : List Char) (n : Nat) : Prop where
  ne_nil : ds ≠ []
  digits : ∀ c ∈ ds, c.isDigit = true
  value : Nat.ofDigitChars 10 ds 0 = n

/-- A numeral, or a plus sign and a numeral. -/
def Writes (cs : List Char) (n : Nat) : Prop :=
  IsNumeral cs n ∨ ∃ ds, cs = '+' :: ds ∧ IsNumeral ds n

/-! ## Numerals -/

/-- A sign is no digit. -/
theorem not_isNumeral_plus {ds : List Char} {n : Nat} : ¬IsNumeral ('+' :: ds) n := fun h =>
  absurd (h.digits '+' List.mem_cons_self) (by decide)

theorem isNumeral_toDigits (n : Nat) : IsNumeral (Nat.toDigits 10 n) n where
  ne_nil := Nat.toDigits_ne_nil
  digits _ hc := Nat.isDigit_of_mem_toDigits (by decide) (by decide) hc
  value := Nat.ofDigitChars_ten_toDigits

theorem writes_plus_cons_iff {ds : List Char} {n : Nat} : Writes ('+' :: ds) n ↔ IsNumeral ds n := by
  constructor
  · rintro (h | ⟨ds', hds, h⟩)
    · exact absurd h not_isNumeral_plus
    · exact (List.cons.inj hds).2 ▸ h
  · exact fun h => .inr ⟨ds, rfl, h⟩

theorem writes_iff_of_unsigned {cs : List Char} {n : Nat} (h : ∀ ds, cs ≠ '+' :: ds) :
    Writes cs n ↔ IsNumeral cs n := by
  constructor
  · rintro (hcs | ⟨ds, hds, -⟩)
    · exact hcs
    · exact absurd hds (h ds)
  · exact .inl

/-- Characters write one number at most. -/
theorem Writes.unique {cs : List Char} {n m : Nat} (hn : Writes cs n) (hm : Writes cs m) : n = m := by
  rcases hn with hn | ⟨ds, rfl, hn⟩
  · rcases hm with hm | ⟨ds, rfl, -⟩
    · exact hn.value.symm.trans hm.value
    · exact absurd hn not_isNumeral_plus
  · exact hn.value.symm.trans (writes_plus_cons_iff.mp hm).value

/-! ## Digits one by one -/

theorem takeDigit_eq_ok_iff {greatest n m : Nat} {c : Char} :
    takeDigit greatest n c = .ok m ↔
      c.isDigit = true ∧ 10 * n + (c.toNat - '0'.toNat) = m ∧ m ≤ greatest := by
  rw [takeDigit, Nat.mul_comm n 10]
  cases c.isDigit with
  | false => simp
  | true =>
    by_cases hle : 10 * n + (c.toNat - '0'.toNat) ≤ greatest
    · simp only [Bool.not_true, Bool.false_eq_true, if_false, if_pos hle, Except.ok.injEq, true_and]
      exact ⟨fun h => ⟨h, h ▸ hle⟩, And.left⟩
    · simp only [Bool.not_true, Bool.false_eq_true, if_false, if_neg hle, true_and]
      exact ⟨nofun, fun ⟨hvalue, hm⟩ => absurd (hvalue ▸ hm) hle⟩

theorem le_ofDigitChars (n : Nat) (ds : List Char) : n ≤ Nat.ofDigitChars 10 ds n := by
  induction ds generalizing n with
  | nil => exact Nat.le_refl n
  | cons c ds ih =>
    rw [Nat.ofDigitChars_cons]
    exact Nat.le_trans (by omega) (ih _)

/-- Digits are taken behind a number that is not too large if what comes out is not. -/
theorem foldlM_takeDigit_eq_ok_iff {greatest n m : Nat} {ds : List Char} (hn : n ≤ greatest) :
    ds.foldlM (takeDigit greatest) n = .ok m ↔
      (∀ c ∈ ds, c.isDigit = true) ∧ Nat.ofDigitChars 10 ds n = m ∧ m ≤ greatest := by
  induction ds generalizing n with
  | nil =>
    have hnil : ([] : List Char).foldlM (takeDigit greatest) n = .ok n := rfl
    rw [hnil, Except.ok.injEq, Nat.ofDigitChars_nil]
    exact ⟨fun h => ⟨fun c hc => absurd hc List.not_mem_nil, h, h ▸ hn⟩, fun h => h.2.1⟩
  | cons c ds ih =>
    rw [List.foldlM_cons, List.forall_mem_cons, Nat.ofDigitChars_cons]
    cases htake : takeDigit greatest n c with
    | ok next =>
      obtain ⟨hc, hnext, hle⟩ := takeDigit_eq_ok_iff.mp htake
      rw [hnext, and_iff_right hc]
      exact ih hle
    | error fault =>
      -- the first digit is none, or the number is too large from here on
      refine ⟨nofun, fun ⟨⟨hc, _⟩, hvalue, hm⟩ => ?_⟩
      have hnext : 10 * n + (c.toNat - '0'.toNat) ≤ greatest :=
        Nat.le_trans (le_ofDigitChars _ ds) (hvalue ▸ hm)
      rw [takeDigit_eq_ok_iff.mpr ⟨hc, rfl, hnext⟩] at htake
      cases htake

/-! ## Numbers -/

theorem foldlM_takeDigit_zero_eq_ok_iff {greatest n : Nat} {ds : List Char} (hds : ds ≠ []) :
    ds.foldlM (takeDigit greatest) 0 = .ok n ↔ IsNumeral ds n ∧ n ≤ greatest := by
  rw [foldlM_takeDigit_eq_ok_iff (Nat.zero_le greatest)]
  exact ⟨fun ⟨hdigits, hvalue, hle⟩ => ⟨⟨hds, hdigits, hvalue⟩, hle⟩,
    fun ⟨h, hle⟩ => ⟨h.digits, h.value, hle⟩⟩

/-- **What is read is what is written**, up to the greatest number. -/
theorem parse_eq_ok_iff {greatest n : Nat} {cs : List Char} :
    parse greatest cs = .ok n ↔ Writes cs n ∧ n ≤ greatest := by
  fun_cases parse greatest cs with
  | case1 =>
    rw [writes_iff_of_unsigned fun ds => (List.cons_ne_nil '+' ds).symm]
    exact ⟨nofun, fun ⟨h, _⟩ => absurd rfl h.ne_nil⟩
  | case2 =>
    rw [writes_plus_cons_iff]
    exact ⟨nofun, fun ⟨h, _⟩ => absurd rfl h.ne_nil⟩
  | case3 digits hdigits =>
    rw [writes_plus_cons_iff]
    exact foldlM_takeDigit_zero_eq_ok_iff hdigits
  | case4 _ hnil _ hunsigned =>
    rw [writes_iff_of_unsigned hunsigned]
    exact foldlM_takeDigit_zero_eq_ok_iff hnil

end ProofRelay.Decimal.Natural
