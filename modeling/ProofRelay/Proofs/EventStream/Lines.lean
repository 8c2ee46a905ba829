import ProofRelay.EventStream.Batch
import ProofRelay.EventStream.Decoder

/-!
Lines and events, read at once and read one by one.  A list is cut at the first mark, then again
behind it (`ended_append_cons`, `cut_induction`), and the line ends of a stream can be told one byte
at a time if a line feed is skipped after a carriage return (`plainEnds_cr`).  What the decoder sees in a line is
what the value of its text is (`data?_ofText`).
-/

namespace ProofRelay.EventStream.Batch

/-! ## Cutting -/

section
variable {α : Type} [BEq α] [LawfulBEq α] {mark : α} {xs : List α}

theorem ended_of_not_mem (h : mark ∉ xs) : ended mark xs = [] := by
  unfold ended
  rw [List.splitOn_eq_singleton h]
  rfl

/-- The first mark ends the first piece. -/
theorem ended_append_cons (h : mark ∉ xs) (rest : List α) :
    ended mark (xs ++ mark :: rest) = xs :: ended mark rest := by
  unfold ended
  rw [List.splitOn_append_cons_self_of_not_mem h, List.dropLast_cons_of_ne_nil (List.splitOn_ne_nil mark rest)]

/-- What is cut at its first mark, again and again. -/
@[elab_as_elim] theorem cut_induction (mark : α) {motive : List α → Prop}
    (whole : ∀ xs, mark ∉ xs → motive xs)
    (cut : ∀ piece rest, mark ∉ piece → (∀ ys : List α, ys.length ≤ rest.length → motive ys) →
      motive (piece ++ mark :: rest))
    (xs : List α) : motive xs := by
  induction hn : xs.length using Nat.strongRecOn generalizing xs with
  | _ n ih =>
    by_cases hmem : mark ∈ xs
    · obtain ⟨piece, rest, rfl, hpiece⟩ := List.eq_append_cons_of_mem hmem
      refine cut piece rest hpiece fun ys hys => ih ys.length ?_ ys rfl
      rw [← hn, List.length_append, List.length_cons]
      omega
    · exact whole xs hmem

theorem ended_append_of_not_mem {start : List α} (h : mark ∉ start) (xs : List α) :
    ended mark (start ++ xs) = (ended mark xs).modifyHead (start ++ ·) := by
  induction xs using cut_induction mark with
  | whole xs hxs =>
    rw [ended_of_not_mem hxs, ended_of_not_mem (List.not_mem_append h hxs)]
    rfl
  | cut piece rest hpiece =>
    rw [← List.append_assoc, ended_append_cons (List.not_mem_append h hpiece), ended_append_cons hpiece]
    rfl

/-- Pieces that are each put before a mark are the ones that it ends. -/
theorem ended_flatMap {pieces : List (List α)} (h : ∀ piece ∈ pieces, mark ∉ piece) :
    ended mark (pieces.flatMap (· ++ [mark])) = pieces := by
  induction pieces with
  | nil => exact ended_of_not_mem List.not_mem_nil
  | cons piece pieces ih =>
    obtain ⟨hpiece, hpieces⟩ := List.forall_mem_cons.mp h
    rw [List.flatMap_cons, List.append_assoc, List.singleton_append, ended_append_cons hpiece, ih hpieces]

theorem without_append (start rest : List α) : without start (start ++ rest) = rest := by
  have h : start.isPrefixOf (start ++ rest) = true := List.isPrefixOf_iff_prefix.mpr (List.prefix_append ..)
  rw [without, if_pos h, List.drop_left]

theorem without_eq_self {start : List α} (h : ¬ start <+: xs) : without start xs = xs := by
  rw [without, if_neg (mt List.isPrefixOf_iff_prefix.mp h)]

end

/-- The stream after a carriage return that has ended a line: a line feed at its front belongs to that. -/
def skipLf : Bytes → Bytes
  | [] => []
  | b :: rest => if b = lf then rest else b :: rest

theorem plainEnds_of_ne {b : UInt8} (h : b ≠ cr) (rest : Bytes) :
    plainEnds (b :: rest) = b :: plainEnds rest := by
  rw [plainEnds, if_neg h]

/-- A carriage return ends a line, whatever comes after it. -/
theorem plainEnds_cr (rest : Bytes) : plainEnds (cr :: rest) = lf :: plainEnds (skipLf rest) := by
  rw [plainEnds, if_pos rfl]
  cases rest with
  | nil => rfl
  | cons b rest =>
    by_cases hb : b = lf
    · subst hb
      have hne : lf ≠ cr := by decide
      simp [skipLf, plainEnds_of_ne hne]
    · simp [skipLf, hb]

theorem skipLf_eq_without (bs : Bytes) : skipLf bs = without [lf] bs := by
  cases bs with
  | nil => rfl
  | cons b rest =>
    by_cases hb : b = lf
    · subst hb
      rw [skipLf, if_pos rfl]
      exact (without_append [lf] rest).symm
    · have hnot : ¬ [lf] <+: b :: rest := fun h => hb (List.cons_prefix_cons.mp h).1.symm
      rw [skipLf, if_neg hb, without_eq_self hnot]

theorem length_skipLf_le (bs : Bytes) : (skipLf bs).length ≤ bs.length := by
  cases bs with
  | nil => exact Nat.le_refl _
  | cons b rest =>
    rw [skipLf]
    split
    · exact Nat.le_succ _
    · exact Nat.le_refl _

/-- Line ends are told from the first carriage return on. -/
theorem plainEnds_append_of_not_mem {as : Bytes} (h : cr ∉ as) (bs : Bytes) :
    plainEnds (as ++ bs) = as ++ plainEnds bs := by
  induction as with
  | nil => rfl
  | cons a as ih =>
    obtain ⟨ha, has⟩ := not_or.mp (mt List.mem_cons.mpr h)
    rw [List.cons_append, plainEnds_of_ne (Ne.symm ha), ih has, List.cons_append]

theorem plainEnds_of_not_mem {bs : Bytes} (h : cr ∉ bs) : plainEnds bs = bs := by
  have hplain := plainEnds_append_of_not_mem h []
  rwa [plainEnds, List.append_nil] at hplain

theorem without_byteOrderMark (bs : Bytes) : without byteOrderMark bs = dropMark bs := by
  unfold dropMark
  split
  · next rest => exact without_append byteOrderMark rest
  · next hne =>
    refine without_eq_self ?_
    rintro ⟨rest, rfl⟩
    exact hne rest rfl

/-! ## Lines -/

theorem ofChars_eq_blank_iff {cs : List Char} : Line.ofChars cs = .blank ↔ cs = [] := by
  fun_cases Line.ofChars cs <;> simp_all

theorem ofText_eq_blank_iff {text : String} : Line.ofText text = .blank ↔ text = "" := by
  rw [Line.ofText, ofChars_eq_blank_iff, String.toList_eq_nil_iff]

theorem data?_field (name : List Char) (value : String) :
    (Line.field (String.ofList name) value).data? = if name = "data".toList then some value else none := by
  have hname : String.ofList name = dataField ↔ name = "data".toList := by
    constructor
    · intro h
      rw [← String.toList_ofList (l := name), h]
      rfl
    · rintro rfl
      exact String.ofList_toList
  simp only [Line.data?, hname]

theorem without_blank (value : List Char) : without [' '] (' ' :: value) = value := without_append [' '] value

theorem without_of_not_blank {cs : List Char} (h : ∀ value, cs ≠ ' ' :: value) : without [' '] cs = cs := by
  refine without_eq_self ?_
  rintro ⟨value, rfl⟩
  exact h value rfl

/-- What a line says is what its text has as the value. -/
theorem data?_ofText (text : String) : (Line.ofText text).data? = value? text := by
  unfold Line.ofText value?
  -- the cases are those of a line: blank, comment, and a field with a blank before its value, without, or alone
  fun_cases Line.ofChars text.toList
  · rfl
  · rfl
  · next hd =>
    rw [data?_field]
    simp only [hd, List.tail_cons, without_blank]
  · next hne _ _ _ hd =>
    rw [data?_field]
    simp only [hd, List.tail_cons, without_of_not_blank hne]
  · next hd =>
    rw [data?_field, hd]
    rfl

/-! ## Messages -/

theorem message?_append_of_none {event : List String} {line : String} (h : value? line = none) :
    message? (event ++ [line]) = message? event := by
  simp [message?, List.filterMap_append, h]

/-- One more data line adds to the message of an event. -/
theorem message?_append_of_some {event : List String} {line value : String} (h : value? line = some value) :
    message? (event ++ [line]) = some (joinData (message? event) value) := by
  have hvalues : (event ++ [line]).filterMap value? = event.filterMap value? ++ [value] := by
    simp [List.filterMap_append, h]
  unfold message?
  rw [hvalues]
  cases hv : event.filterMap value? with
  | nil => simp [joinData]
  | cons first rest =>
    have hjoin : "\n".intercalate (first :: rest ++ [value]) =
        "\n".intercalate (first :: rest) ++ "\n" ++ value := by
      rw [String.intercalate_append_of_ne_nil (by simp) (by simp), String.intercalate_singleton]
    exact congrArg some hjoin

end ProofRelay.EventStream.Batch
