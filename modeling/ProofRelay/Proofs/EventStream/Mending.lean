import ProofRelay.Proofs.EventStream.Chunks
import ProofRelay.Proofs.Text.Lossy

/-!
Bytes that are no text, in an event stream.  The lines of a stream are cut before they are read, so bytes that
are no text might be replaced otherwise than in the whole stream.  They are not: what is replaced never reaches
across a line end or the byte order mark, so each step of the cutting can be done on the mended bytes,

    plainEnds (mend bs) = mend (plainEnds bs)                                     (plainEnds_mend)
    ended lf (mend bs) = (ended lf bs).map mend                                   (ended_mend)

and the lines are then read as the same texts.
-/

namespace ProofRelay.EventStream

open Utf8 (mend mem_of_mem_mend mend_append_cons)

namespace Batch

/-! ## What is at the front -/

/-- A character at the front is there before and after mending. -/
theorem without_mend {c : Char} (hne : c ≠ Utf8.replacement) (bs : Bytes) :
    without (String.utf8EncodeChar c) (mend bs) = mend (without (String.utf8EncodeChar c) bs) := by
  by_cases h : String.utf8EncodeChar c <+: bs
  · obtain ⟨rest, rfl⟩ := h
    rw [Utf8.mend_utf8EncodeChar_append, without_append, without_append]
  · rw [without_eq_self h, without_eq_self (mt (Utf8.prefix_mend_iff hne bs).mp h)]

theorem skipLf_mend (bs : Bytes) : skipLf (mend bs) = mend (skipLf bs) := by
  have hlf : [lf] = String.utf8EncodeChar '\n' := by decide
  rw [skipLf_eq_without, skipLf_eq_without, hlf]
  exact without_mend (by decide) bs

theorem dropMark_mend (bs : Bytes) : dropMark (mend bs) = mend (dropMark bs) := by
  have hmark : byteOrderMark = String.utf8EncodeChar '\uFEFF' := by decide
  rw [← without_byteOrderMark, ← without_byteOrderMark, hmark]
  exact without_mend (by decide) bs

/-! ## Line ends -/

/-- Line ends are where they were. -/
theorem plainEnds_mend (bs : Bytes) : plainEnds (mend bs) = mend (plainEnds bs) := by
  induction bs using cut_induction cr with
  | whole bs h => rw [plainEnds_of_not_mem h, plainEnds_of_not_mem (mt (mem_of_mem_mend (by decide)) h)]
  | cut line rest h ih =>
    rw [mend_append_cons (by decide), plainEnds_append_of_not_mem (mt (mem_of_mem_mend (by decide)) h),
      plainEnds_cr, skipLf_mend, ih (skipLf rest) (length_skipLf_le rest), plainEnds_append_of_not_mem h,
      plainEnds_cr, mend_append_cons (by decide)]

/-- Each line is mended by itself. -/
theorem ended_mend (bs : Bytes) : ended lf (mend bs) = (ended lf bs).map mend := by
  induction bs using cut_induction lf with
  | whole bs h => rw [ended_of_not_mem h, ended_of_not_mem (mt (mem_of_mem_mend (by decide)) h), List.map_nil]
  | cut line rest h ih =>
    rw [mend_append_cons (by decide), ended_append_cons (mt (mem_of_mem_mend (by decide)) h),
      ih rest (Nat.le_refl _), ended_append_cons h, List.map_cons]

/-! ## Messages -/

theorem lines_mend (bs : Bytes) : lines (mend bs) = lines bs := by
  rw [lines, plainEnds_mend, ended_mend, lines]
  cases ended lf (plainEnds bs) with
  | nil => rfl
  | cons first rest =>
    simp only [List.map_cons, List.modifyHead_cons, List.map_map, without_byteOrderMark, dropMark_mend,
      Function.comp_def, Utf8.decodeLossy_mend]

theorem messages_mend (bs : Bytes) : messages (mend bs) = messages bs := by
  rw [messages, lines_mend, messages]

end Batch

namespace Decoder

/-- **Reading each line is reading the whole stream.**  A decoder yields the same messages of any bytes as it
does of the text that they are read as, however the one and the other are cut and whenever messages are taken;
and these are the messages that are taken in the end. -/
theorem yielded_of_mended {uses mended : List Use}
    (h : pushed mended = Utf8.encode (Utf8.decodeLossy (pushed uses))) :
    (use mended).yielded = (use uses).yielded ∧
      ∀ count, (use uses).yielded.length ≤ count →
        (use (uses ++ List.replicate count .next)).popped = (use uses).yielded ∧
        (use (mended ++ List.replicate count .next)).popped = (use uses).yielded := by
  have hmessages : Batch.messages (pushed mended) = Batch.messages (pushed uses) := by
    rw [h]
    exact Batch.messages_mend (pushed uses)
  rw [yielded_use, yielded_use, hmessages]
  refine ⟨rfl, fun count hcount => ⟨popped_append_nexts hcount, ?_⟩⟩
  rw [← hmessages] at hcount ⊢
  exact popped_append_nexts hcount

/-- Characters that are cut off by a carriage return within a chunk and by a line feed, an overlong form, and a
byte order mark that is cut off. -/
theorem yielded_of_mended_of_cut_characters :
    let uses : List Use :=
      [.push (byteOrderMark ++ Utf8.encode "data: a" ++ [0xE2, 0x82]), .push [cr], .next,
        .push (lf :: Utf8.encode "data:" ++ [0xC0, 0x80, lf, 0xEF, 0xBB, lf, lf])]
    let mended : List Use := [.push (Utf8.encode "\uFEFFdata: a\uFFFD\r\ndata:\uFFFD\uFFFD\n\uFFFD\n\n")]
    pushed mended = Utf8.encode (Utf8.decodeLossy (pushed uses)) ∧
      (use uses).yielded = ["a\uFFFD\n\uFFFD\uFFFD"] ∧
      (use mended).yielded = (use uses).yielded ∧
        ∀ count, (use uses).yielded.length ≤ count →
          (use (uses ++ List.replicate count .next)).popped = (use uses).yielded ∧
          (use (mended ++ List.replicate count .next)).popped = (use uses).yielded := by
  intro uses mended
  have h : pushed mended = Utf8.encode (Utf8.decodeLossy (pushed uses)) := by decide +kernel
  exact ⟨h, by decide +kernel, yielded_of_mended h⟩

end Decoder
end ProofRelay.EventStream
