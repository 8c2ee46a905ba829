import Mathlib.Data.List.Infix
import ProofRelay.Proofs.Decimal.Natural
import ProofRelay.Prover.Target

/-!
The status that a target answers with is told from its URL alone: the number after the last `/status/`, if it is a
number of three digits (`Gives`), and success for every other URL (`status_of_gives`, `status_of_not_gives`).

`EndsInCode` says the same without reading: what stands behind the last mark writes a number from 100 to 999, with
zeros or a plus sign before it as one likes.  A URL that ends so has this code (`EndsInCode.code_eq`), and every other
has that of success (`code_of_not_endsInCode`):

    /status/503    /status/status/503    /status/+00503        503
    /status/503/   /status/503?retry=1   /status/65536100      200
-/

namespace ProofRelay.Target

/-! ## The last mark -/

/-- What stands after the last occurrence of a mark: no occurrence begins later than this one. -/
def IsAfterLast (mark cs rest : List Char) : Prop :=
  ∃ before, cs = before ++ (mark ++ rest) ∧ ¬ mark <:+: (mark.tail ++ rest)

theorem afterLast?_eq_none_iff {mark : List Char} (hmark : mark ≠ []) {cs : List Char} :
    afterLast? mark cs = none ↔ ¬ mark <:+: cs := by
  induction cs with
  | nil => simp [afterLast?, hmark]
  | cons c cs ih =>
    rw [List.infix_cons_iff, not_or, afterLast?]
    cases hlast : afterLast? mark cs with
    | some rest => simp [← ih, hlast]
    | none => simp [← ih, hlast]

/-- The last mark begins behind the first character, or there and nowhere else. -/
theorem isAfterLast_cons_iff {mark : List Char} (hmark : mark ≠ []) {c : Char} {cs rest : List Char} :
    IsAfterLast mark (c :: cs) rest ↔ IsAfterLast mark cs rest ∨ c :: cs = mark ++ rest ∧ ¬ mark <:+: cs := by
  obtain ⟨m, ms, rfl⟩ := List.exists_cons_of_ne_nil hmark
  constructor
  · rintro ⟨before, hcs, hlater⟩
    cases before with
    | nil =>
      obtain ⟨rfl, rfl⟩ := List.cons.inj hcs
      exact .inr ⟨rfl, hlater⟩
    | cons b before =>
      obtain ⟨rfl, rfl⟩ := List.cons.inj hcs
      exact .inl ⟨before, rfl, hlater⟩
  · rintro (⟨before, rfl, hlater⟩ | ⟨hcs, hlater⟩)
    · exact ⟨c :: before, rfl, hlater⟩
    · obtain ⟨rfl, rfl⟩ := List.cons.inj hcs
      exact ⟨[], rfl, hlater⟩

/-- The end of a text after the last mark in it. -/
theorem afterLast?_eq_some_iff {mark : List Char} (hmark : mark ≠ []) {cs rest : List Char} :
    afterLast? mark cs = some rest ↔ IsAfterLast mark cs rest := by
  induction cs with
  | nil => simp [afterLast?, IsAfterLast, hmark]
  | cons c cs ih =>
    rw [isAfterLast_cons_iff hmark, ← ih, ← afterLast?_eq_none_iff hmark, afterLast?]
    cases afterLast? mark cs with
    | some rest' => simp
    | none =>
      have hbegins : mark.isPrefixOf (c :: cs) = true ↔ ∃ rest, c :: cs = mark ++ rest := by
        rw [List.isPrefixOf_iff_prefix]
        exact ⟨fun ⟨rest, h⟩ => ⟨rest, h.symm⟩, fun ⟨rest, h⟩ => ⟨rest, h.symm⟩⟩
      simp only []
      split
      · next h =>
        obtain ⟨rest', hrest'⟩ := hbegins.mp h
        rw [hrest', List.drop_left]
        simp
      · next h =>
        have hne : ¬ c :: cs = mark ++ rest := fun heq => h (hbegins.mpr ⟨rest, heq⟩)
        simp [hne]

/-- What stands behind the last mark is one text. -/
theorem IsAfterLast.unique {mark cs rest rest' : List Char} (hmark : mark ≠ []) (h : IsAfterLast mark cs rest)
    (h' : IsAfterLast mark cs rest') : rest = rest' := by
  rw [← afterLast?_eq_some_iff hmark] at h h'
  exact Option.some.inj (h.symm.trans h')

theorem marker_ne_nil : marker ≠ [] := by decide +kernel

/-- The mark is the last one if no slash follows it. -/
theorem isAfterLast_marker {rest : List Char} (hrest : '/' ∉ rest) (before : List Char) :
    IsAfterLast marker (before ++ (marker ++ rest)) rest := by
  refine ⟨before, rfl, fun hinfix => ?_⟩
  -- the mark has two slashes, and one is left behind its first character
  have hcount := hinfix.sublist.count_le '/'
  rw [List.count_append, List.count_eq_zero.mpr hrest] at hcount
  exact absurd hcount (by decide +kernel)

/-- What stands behind the mark of a URL that ends in a number. -/
theorem isAfterLast_append_toString (before : String) (n : Nat) :
    IsAfterLast marker (before ++ "/status/" ++ toString n).toList (Nat.toDigits 10 n) := by
  have hdigits : (toString n).toList = Nat.toDigits 10 n := Nat.toList_repr
  have hslash : '/' ∉ Nat.toDigits 10 n := fun h =>
    absurd ((Decimal.Natural.isNumeral_toDigits n).digits _ h) (by decide)
  rw [String.toList_append, String.toList_append, hdigits, List.append_assoc]
  exact isAfterLast_marker hslash before.toList

/-! ## Statuses -/

/-- A URL gives a status if this is the number after the last mark in it. -/
def Gives (url : String) (status : Http.Status) : Prop :=
  ∃ rest, IsAfterLast marker url.toList rest ∧ Decimal.Natural.parse greatestNumber rest = .ok status.code

theorem status?_eq_some_iff {url : String} {status : Http.Status} :
    status? url = some status ↔ Gives url status := by
  simp only [status?, Gives, Option.bind_eq_bind, Option.bind_eq_some_iff, afterLast?_eq_some_iff marker_ne_nil,
    Http.Status.ofCode?_eq_some_iff]
  refine exists_congr fun rest => and_congr_right fun _ => ?_
  cases Decimal.Natural.parse greatestNumber rest with
  | error fault => simp [Except.toOption]
  | ok code => simp [Except.toOption]

theorem status_of_gives {url : String} {status' : Http.Status} (h : Gives url status') : status url = status' := by
  rw [status, status?_eq_some_iff.mpr h]
  rfl

theorem status_of_not_gives {url : String} (h : ∀ status', ¬ Gives url status') : status url = .ok := by
  have hnone : status? url = none :=
    Option.eq_none_iff_forall_ne_some.mpr fun status' hs => h status' (status?_eq_some_iff.mp hs)
  rw [status, hnone]
  rfl

/-! ## Codes -/

/-- Whether a number from 100 to 999 stands behind the last mark of a URL, and nothing else. -/
def EndsInCode (url : String) (code : Nat) : Prop :=
  ∃ rest, IsAfterLast marker url.toList rest ∧ Decimal.Natural.Writes rest code ∧ 100 ≤ code ∧ code ≤ 999

theorem gives_iff_endsInCode {url : String} {status : Http.Status} :
    Gives url status ↔ EndsInCode url status.code := by
  have hle : status.code ≤ greatestNumber := Nat.le_trans status.three_digits.2 (by decide)
  simp only [Gives, EndsInCode, Decimal.Natural.parse_eq_ok_iff, hle, status.three_digits, and_true]

theorem EndsInCode.code_eq {url : String} {code : Nat} (h : EndsInCode url code) : (status url).code = code := by
  have ⟨_, _, _, hbounds⟩ := h
  have hgives : Gives url ⟨code, hbounds⟩ := gives_iff_endsInCode.mpr h
  rw [status_of_gives hgives]

/-- A URL ends in the code of its status, or in none, and then the status is that of success. -/
theorem endsInCode_or (url : String) :
    EndsInCode url (status url).code ∨ (∀ code, ¬EndsInCode url code) ∧ (status url).code = 200 := by
  by_cases h : ∃ code, EndsInCode url code
  · obtain ⟨code, hcode⟩ := h
    exact .inl (hcode.code_eq.symm ▸ hcode)
  · rw [not_exists] at h
    have hnone : ∀ status', ¬Gives url status' := fun status' hgives => h _ (gives_iff_endsInCode.mp hgives)
    refine .inr ⟨h, ?_⟩
    rw [status_of_not_gives hnone]
    rfl

theorem code_of_not_endsInCode {url : String} (h : ∀ code, code ≠ 200 → ¬EndsInCode url code) :
    (status url).code = 200 := by
  by_contra hcode
  rcases endsInCode_or url with hends | ⟨-, hsuccess⟩
  · exact h _ hcode hends
  · exact hcode hsuccess

/-- A URL that ends in the mark and a number ends in this number, if it is in bounds. -/
theorem endsInCode_append_toString_iff {before : String} {n code : Nat} :
    EndsInCode (before ++ "/status/" ++ toString n) code ↔ code = n ∧ 100 ≤ n ∧ n ≤ 999 := by
  have hlast := isAfterLast_append_toString before n
  have hwrites : Decimal.Natural.Writes (Nat.toDigits 10 n) n := .inl (Decimal.Natural.isNumeral_toDigits n)
  constructor
  · rintro ⟨rest, hrest, hcode, hbounds⟩
    rw [hrest.unique marker_ne_nil hlast] at hcode
    obtain rfl := hcode.unique hwrites
    exact ⟨rfl, hbounds⟩
  · rintro ⟨rfl, hbounds⟩
    exact ⟨_, hlast, hwrites, hbounds⟩

/-- **Every URL has the code that it ends in**, and that of success if it ends in none.  A number that is put behind
a mark counts from 100 to 999 and no further, however many digits it has. -/
theorem code_is_number_behind_last_mark (url : String) :
    (∀ code, code ≠ 200 → ((status url).code = code ↔ EndsInCode url code)) ∧
    ((∀ code, code ≠ 200 → ¬EndsInCode url code) → (status url).code = 200) ∧
    ∀ (before : String) (n : Nat),
      (status (before ++ "/status/" ++ toString n)).code = if 100 ≤ n ∧ n ≤ 999 then n else 200 := by
  refine ⟨fun code hcode => ⟨?_, EndsInCode.code_eq⟩, code_of_not_endsInCode, fun before n => ?_⟩
  · rintro rfl
    rcases endsInCode_or url with hends | ⟨-, hsuccess⟩
    · exact hends
    · exact absurd hsuccess hcode
  · split
    · next hbounds => exact (endsInCode_append_toString_iff.mpr ⟨rfl, hbounds⟩).code_eq
    · next hbounds =>
      exact code_of_not_endsInCode fun code _ hends => hbounds (endsInCode_append_toString_iff.mp hends).2

/-- Of two marks that share a slash the second counts, and a sign and zeros before the number do no harm; what
follows a number does. -/
theorem code_is_number_behind_last_mark_of_shared_slash :
    503 ≠ 200 ∧ EndsInCode "https://x.test/status/status/+00503" 503 ∧
      (status "https://x.test/status/status/+00503").code = 503 ∧
      (∀ code, code ≠ 200 → ¬EndsInCode "https://x.test/status/503?retry=1" code) ∧
      (status "https://x.test/status/503?retry=1").code = 200 := by
  have hends : EndsInCode "https://x.test/status/status/+00503" 503 :=
    ⟨"+00503".toList, ⟨"https://x.test/status".toList, by decide +kernel, by decide +kernel⟩,
      .inr ⟨"00503".toList, by decide, by decide, List.all_eq_true.mp (by decide), by decide⟩, by decide⟩
  have hnone : ∀ code, code ≠ 200 → ¬EndsInCode "https://x.test/status/503?retry=1" code := by
    rintro code - ⟨rest, hrest, hcode, -⟩
    have hlast : IsAfterLast marker "https://x.test/status/503?retry=1".toList "503?retry=1".toList :=
      ⟨"https://x.test".toList, by decide +kernel, by decide +kernel⟩
    rw [hrest.unique marker_ne_nil hlast, Decimal.Natural.writes_iff_of_unsigned (by simp)] at hcode
    exact absurd (hcode.digits '?' (by decide)) (by decide)
  exact ⟨by decide, hends, ((code_is_number_behind_last_mark _).1 503 (by decide)).mpr hends, hnone,
    (code_is_number_behind_last_mark _).2.1 hnone⟩

end ProofRelay.Target
