import Mathlib.Data.List.Induction
import ProofRelay.Proofs.EventStream.Lines

/-!
Decoders in use.  Chunks are pushed and messages are taken in any order.  A decoder keeps what it
needs to know of the bytes before: the lines of the event that has not ended are in its data
(`Reads`), and the lines that end later are told from what it holds (`Decoder.texts`).  So the
messages that were taken and those that wait are always those of the whole stream:

    s.popped ++ s.decoder.queue.toList = Batch.messages (pushed uses)         (popped_append_queue)
-/

namespace ProofRelay.EventStream

open Batch

namespace Decoder

/-! ## Use -/

/-- What is done with a decoder. -/
inductive Use
  | push (chunk : Bytes)
  /-- The oldest message is taken, if there is one. -/
  | next
deriving DecidableEq, Repr

/-- A decoder in use. -/
structure InUse where
  /-- The messages that were taken from it, in order. -/
  popped : List String := []
  decoder : Decoder := {}
deriving Repr

/-- The messages that were taken and those that wait, in order. -/
def InUse.yielded (s : InUse) : List String := s.popped ++ s.decoder.queue.toList

/-- One use. -/
def InUse.step (s : InUse) : Use → InUse
  | .push chunk => { s with decoder := s.decoder.push chunk }
  | .next =>
    match s.decoder.next? with
    | some (message, rest) => ⟨s.popped ++ [message], rest⟩
    | none => s

/-- Several uses of a new decoder. -/
def use (uses : List Use) : InUse := uses.foldl InUse.step {}

/-- The bytes that are pushed, however they are cut. -/
def pushed (uses : List Use) : Bytes :=
  uses.flatMap fun
    | .push chunk => chunk
    | .next => []

/-! ## Lines to come -/

/-- The text of the line if it ended now. -/
def lineText (d : Decoder) : String :=
  Utf8.decodeLossy (if d.started then d.line.reverse else dropMark d.line.reverse)

/-- The texts of lines, of which the first one ends now. -/
def textsOf (d : Decoder) (lines : List Bytes) : List String :=
  (if d.started then lines else lines.modifyHead (without byteOrderMark)).map Utf8.decodeLossy

/-- The texts of the lines that end while these bytes come. -/
def texts (d : Decoder) (bs : Bytes) : List String :=
  d.textsOf (ended lf (d.line.reverse ++ plainEnds (if d.afterCr then skipLf bs else bs)))

/-- A line changes the data and the queue only. -/
theorem takeLine_keeps (d : Decoder) (line : Line) :
    ∃ data queue, d.takeLine line = { d with data, queue } := by
  unfold takeLine
  split
  · exact ⟨none, _, rfl⟩
  · exact ⟨d.data, d.queue, rfl⟩
  · split
    · exact ⟨_, d.queue, rfl⟩
    · exact ⟨d.data, d.queue, rfl⟩

theorem line_takeLine (d : Decoder) (line : Line) : (d.takeLine line).line = d.line := by
  obtain ⟨data, queue, h⟩ := takeLine_keeps d line
  rw [h]

theorem texts_takeLine (d : Decoder) (line : Line) (bs : Bytes) :
    (d.takeLine line).texts bs = d.texts bs := by
  obtain ⟨data, queue, h⟩ := takeLine_keeps d line
  rw [h]
  rfl

theorem texts_nil {d : Decoder} (hline : lf ∉ d.line) : d.texts [] = [] := by
  have hmem : lf ∉ d.line.reverse := by simpa using hline
  have hskip : (if d.afterCr then skipLf [] else []) = [] := by split <;> rfl
  simp [texts, textsOf, hskip, plainEnds, ended_of_not_mem hmem]

/-- A line feed behind a carriage return ends no line. -/
theorem texts_skip {d : Decoder} (h : d.afterCr = true) (bs : Bytes) :
    d.texts (lf :: bs) = ({ d with afterCr := false } : Decoder).texts bs := by
  simp [texts, textsOf, h, skipLf]

/-- Any other byte is what it is without the carriage return before it. -/
theorem texts_forget {d : Decoder} {b : UInt8} (h : ¬ (d.afterCr = true ∧ b = lf)) (bs : Bytes) :
    d.texts (b :: bs) = ({ d with afterCr := false } : Decoder).texts (b :: bs) := by
  by_cases hc : d.afterCr = true
  · have hb : b ≠ lf := fun hb => h ⟨hc, hb⟩
    simp [texts, textsOf, hc, skipLf, hb]
  · simp [texts, textsOf, hc]

theorem textsOf_cons (d : Decoder) (rest : List Bytes) :
    d.textsOf (d.line.reverse :: rest) = d.lineText :: rest.map Utf8.decodeLossy := by
  cases hs : d.started <;> simp [textsOf, lineText, hs, without_byteOrderMark]

section
variable {d : Decoder} (hc : d.afterCr = false)

include hc

theorem texts_of_other {b : UInt8} (hb : b ≠ cr) (bs : Bytes) :
    d.texts (b :: bs) = ({ d with line := b :: d.line } : Decoder).texts bs := by
  simp [texts, textsOf, hc, plainEnds_of_ne hb]

variable (hline : lf ∉ d.line)

include hline

/-- A line feed ends the line. -/
theorem texts_lf (bs : Bytes) :
    d.texts (lf :: bs) =
      d.lineText :: ({ d with line := [], started := true } : Decoder).texts bs := by
  have hne : lf ≠ cr := by decide
  have hmem : lf ∉ d.line.reverse := by simpa using hline
  rw [texts, hc, if_neg (by simp), plainEnds_of_ne hne, ended_append_cons hmem, textsOf_cons]
  simp [texts, textsOf]

/-- A carriage return ends the line, and a line feed behind it will be skipped. -/
theorem texts_cr (bs : Bytes) :
    d.texts (cr :: bs) =
      d.lineText :: ({ d with line := [], started := true, afterCr := true } : Decoder).texts bs := by
  have hmem : lf ∉ d.line.reverse := by simpa using hline
  rw [texts, hc, if_neg (by simp), plainEnds_cr, ended_append_cons hmem, textsOf_cons]
  simp [texts, textsOf]

end

/-! ## What a decoder knows -/

/-- Of the bytes that were pushed, a decoder keeps the lines of the event that has not ended and the
bytes of the line that has not; the messages of any longer stream are those that were taken, those
that wait, and those of the events that end later. -/
structure Reads (popped : List String) (d : Decoder) (event : List String) (bytes : Bytes) : Prop where
  no_blank : "" ∉ event
  data : d.data = message? event
  line : lf ∉ d.line
  messages : ∀ more, popped ++ d.queue.toList ++ (ended "" (event ++ d.texts more)).filterMap message? =
    Batch.messages (bytes ++ more)

theorem reads_nil : Reads [] {} [] [] where
  no_blank := by simp
  data := rfl
  line := by simp
  messages more := rfl

theorem takeLine_of_data? {d : Decoder} {line : Line} {value : String} (h : line.data? = some value) :
    d.takeLine line = { d with data := some (joinData d.data value) } := by
  cases line with
  | field name text => simp [takeLine, h]
  | blank | comment => cases h

theorem takeLine_of_no_data {d : Decoder} {line : Line} (hline : line ≠ .blank) (h : line.data? = none) :
    d.takeLine line = d := by
  cases line with
  | field name text => simp [takeLine, h]
  | comment => simp [takeLine, Line.data?]
  | blank => exact absurd rfl hline

/-- A line that is taken is the blank one, which ends the event and gives its message, or one more
line of the event. -/
theorem takeLine_ofText {d : Decoder} {event : List String} (hblank : "" ∉ event)
    (hdata : d.data = message? event) (text : String) :
    ∃ event', "" ∉ event' ∧ (d.takeLine (.ofText text)).data = message? event' ∧
      ∀ later, (d.takeLine (.ofText text)).queue.toList ++ (ended "" (event' ++ later)).filterMap message? =
        d.queue.toList ++ (ended "" (event ++ text :: later)).filterMap message? := by
  by_cases htext : text = ""
  · subst htext
    refine ⟨[], by simp, ?_, fun later => ?_⟩
    · rw [ofText_eq_blank_iff.mpr rfl]
      unfold takeLine
      cases hd : d.data <;> simp [hd, message?]
    · rw [ofText_eq_blank_iff.mpr rfl, ended_append_cons hblank, List.nil_append]
      unfold takeLine
      cases hd : d.data with
      | none => simp [← hdata, hd]
      | some message => simp [← hdata, hd]
  · have hline : Line.ofText text ≠ .blank := fun h => htext (ofText_eq_blank_iff.mp h)
    refine ⟨event ++ [text], by simpa [hblank] using Ne.symm htext, ?_⟩
    cases hvalue : value? text with
    | none =>
      rw [takeLine_of_no_data hline (by rw [data?_ofText, hvalue]), message?_append_of_none hvalue]
      exact ⟨hdata, fun later => by rw [List.append_assoc, List.singleton_append]⟩
    | some value =>
      rw [takeLine_of_data? (by rw [data?_ofText, hvalue]), message?_append_of_some hvalue, hdata]
      exact ⟨rfl, fun later => by rw [List.append_assoc, List.singleton_append]⟩

/-- What a decoder knows when a line has ended, given what it will tell of the bytes to come. -/
theorem reads_takeLine {popped : List String} {d : Decoder} {event : List String} {bytes : Bytes}
    (hblank : "" ∉ event) (hdata : d.data = message? event) (hline : lf ∉ d.line) (text : String)
    (hmessages : ∀ more, popped ++ d.queue.toList ++
      (ended "" (event ++ text :: d.texts more)).filterMap message? = Batch.messages (bytes ++ more)) :
    ∃ event', Reads popped (d.takeLine (.ofText text)) event' bytes := by
  obtain ⟨event', hblank', hdata', hqueue⟩ := takeLine_ofText hblank hdata text
  refine ⟨event', hblank', hdata', ?_, fun more => ?_⟩
  · rw [line_takeLine]
    exact hline
  · rw [texts_takeLine, List.append_assoc, hqueue, ← List.append_assoc]
    exact hmessages more

theorem endLine_eq (d : Decoder) :
    d.endLine = ({ d with line := [], started := true } : Decoder).takeLine (.ofText d.lineText) := rfl

theorem takeLine_afterCr (d : Decoder) (line : Line) (afterCr : Bool) :
    { d.takeLine line with afterCr } = ({ d with afterCr } : Decoder).takeLine line := by
  cases line with
  | blank => cases hd : d.data <;> simp [takeLine, hd]
  | comment => simp [takeLine, Line.data?]
  | field name value => cases hv : (Line.field name value).data? <;> simp [takeLine, hv]

/-- **One byte more** ends no line, or the line that was begun. -/
theorem Reads.pushByte {popped : List String} {d : Decoder} {event : List String} {bytes : Bytes}
    (h : Reads popped d event bytes) (b : UInt8) :
    ∃ event', Reads popped (d.pushByte b) event' (bytes ++ [b]) := by
  obtain ⟨hblank, hdata, hline, hmessages⟩ := h
  have hmore : ∀ more, popped ++ d.queue.toList ++
      (ended "" (event ++ d.texts (b :: more))).filterMap message? =
        Batch.messages (bytes ++ [b] ++ more) := by
    intro more
    rw [hmessages, List.append_assoc, List.singleton_append]
  by_cases hskip : d.afterCr = true ∧ b = lf
  · obtain ⟨hc, rfl⟩ := hskip
    have hpush : d.pushByte lf = { d with afterCr := false } := by simp [Decoder.pushByte, hc]
    rw [hpush]
    refine ⟨event, hblank, hdata, hline, fun more => ?_⟩
    rw [← hmore, texts_skip hc]
  · -- any other byte is seen by a decoder that has forgotten the carriage return
    let d' : Decoder := { d with afterCr := false }
    have htexts : ∀ more, d.texts (b :: more) = d'.texts (b :: more) := texts_forget hskip
    have hc : d'.afterCr = false := rfl
    have hpush : d.pushByte b =
        if b = lf then d'.endLine
        else if b = cr then { d'.endLine with afterCr := true }
        else { d' with line := b :: d'.line } := by
      simp only [Decoder.pushByte, Bool.and_eq_true, decide_eq_true_eq, if_neg hskip, d']
    rw [hpush]
    split
    · next hb =>
      subst hb
      rw [endLine_eq]
      refine reads_takeLine (d := { d' with line := [], started := true }) hblank hdata (by simp) _
        fun more => ?_
      rw [← texts_lf hc hline, ← htexts]
      exact hmore more
    · next hlf =>
      split
      · next hb =>
        subst hb
        rw [endLine_eq, takeLine_afterCr]
        refine reads_takeLine (d := { d' with line := [], started := true, afterCr := true }) hblank hdata
          (by simp) _ fun more => ?_
        rw [← texts_cr hc hline, ← htexts]
        exact hmore more
      · next hcr =>
        refine ⟨event, hblank, hdata, ?_, fun more => ?_⟩
        · exact List.not_mem_cons_of_ne_of_not_mem (Ne.symm hlf) hline
        · rw [← texts_of_other hc hcr, ← htexts]
          exact hmore more

theorem Reads.push {popped : List String} {d : Decoder} {event : List String} {bytes : Bytes}
    (h : Reads popped d event bytes) (chunk : Bytes) :
    ∃ event', Reads popped (d.push chunk) event' (bytes ++ chunk) := by
  induction chunk using List.reverseRecOn with
  | nil => exact ⟨event, by simpa [Decoder.push] using h⟩
  | append_singleton chunk b ih =>
    obtain ⟨event', h'⟩ := ih
    rw [push_append, ← List.append_assoc]
    exact h'.pushByte b

/-- Taking a message moves it from those that wait to those that were taken. -/
theorem Reads.next {popped : List String} {d rest : Decoder} {event : List String} {bytes : Bytes}
    (h : Reads popped d event bytes) {message : String} (hn : d.next? = some (message, rest)) :
    Reads (popped ++ [message]) rest event bytes := by
  unfold next? at hn
  split at hn
  · cases hn
  · next first queue hpop =>
    cases hn
    refine ⟨h.no_blank, h.data, h.line, fun more => ?_⟩
    rw [← h.messages, Queue.toList_of_pop? hpop, List.append_assoc popped, List.singleton_append]
    rfl

theorem use_append_singleton (uses : List Use) (u : Use) : use (uses ++ [u]) = (use uses).step u := by
  simp [use, List.foldl_append]

theorem reads_use (uses : List Use) :
    ∃ event, Reads (use uses).popped (use uses).decoder event (pushed uses) := by
  induction uses using List.reverseRecOn with
  | nil => exact ⟨[], reads_nil⟩
  | append_singleton uses u ih =>
    obtain ⟨event, h⟩ := ih
    rw [use_append_singleton]
    cases u with
    | push chunk =>
      have hpushed : pushed (uses ++ [.push chunk]) = pushed uses ++ chunk := by simp [pushed]
      rw [hpushed]
      exact h.push chunk
    | next =>
      have hpushed : pushed (uses ++ [.next]) = pushed uses := by simp [pushed]
      rw [hpushed]
      unfold InUse.step
      cases hn : (use uses).decoder.next? with
      | none => exact ⟨event, h⟩
      | some pair => exact ⟨event, h.next hn⟩

/-! ## Messages of the stream -/

theorem yielded_use (uses : List Use) : (use uses).yielded = Batch.messages (pushed uses) := by
  obtain ⟨event, h⟩ := reads_use uses
  have hnow := h.messages []
  rw [texts_nil h.line, List.append_nil, ended_of_not_mem h.no_blank] at hnow
  simpa [InUse.yielded] using hnow

/-- What was yielded stays, whatever follows. -/
theorem yielded_mono (uses : List Use) (more : Bytes) :
    (use uses).yielded <+: Batch.messages (pushed uses ++ more) := by
  obtain ⟨event, h⟩ := reads_use uses
  rw [← h.messages more]
  exact List.prefix_append ..

/-- A message that can be taken is one of the stream, whatever follows. -/
theorem mem_messages_of_next? {uses : List Use} {message : String} {rest : Decoder}
    (h : (use uses).decoder.next? = some (message, rest)) (more : Bytes) :
    message ∈ Batch.messages (pushed uses ++ more) := by
  refine (yielded_mono uses more).subset ?_
  unfold next? at h
  split at h
  · cases h
  · next first queue hpop =>
    cases h
    simp [InUse.yielded, Queue.toList_of_pop? hpop]

theorem next?_eq_none_iff (uses : List Use) :
    (use uses).decoder.next? = none ↔ (use uses).popped = Batch.messages (pushed uses) := by
  have hnext : (use uses).decoder.next? = none ↔ (use uses).decoder.queue.toList = [] := by
    rw [← Queue.pop?_eq_none_iff, next?]
    cases (use uses).decoder.queue.pop? <;> simp
  rw [hnext, ← yielded_use, InUse.yielded]
  simp

theorem step_next (s : InUse) :
    (s.step .next).popped = s.popped ++ s.decoder.queue.toList.take 1 ∧
      (s.step .next).decoder.queue.toList = s.decoder.queue.toList.drop 1 := by
  rw [InUse.step, next?]
  cases hpop : s.decoder.queue.pop? with
  | none => simp [Queue.pop?_eq_none_iff.mp hpop]
  | some pair =>
    obtain ⟨message, queue⟩ := pair
    simp [Queue.toList_of_pop? hpop]

theorem popped_nexts (s : InUse) (count : Nat) :
    ((List.replicate count Use.next).foldl InUse.step s).popped =
      s.popped ++ s.decoder.queue.toList.take count := by
  induction count generalizing s with
  | zero => simp
  | succ count ih =>
    obtain ⟨hpopped, hqueue⟩ := step_next s
    rw [List.replicate_succ, List.foldl_cons, ih, hpopped, hqueue, List.append_assoc, ← List.take_add,
      Nat.add_comm 1 count]

/-- A decoder that is asked for as many messages as there are has given all of them. -/
theorem popped_append_nexts {uses : List Use} {count : Nat}
    (h : (Batch.messages (pushed uses)).length ≤ count) :
    (use (uses ++ List.replicate count .next)).popped = Batch.messages (pushed uses) := by
  rw [← yielded_use, InUse.yielded, List.length_append] at h
  rw [use, List.foldl_append, popped_nexts, ← yielded_use, InUse.yielded, ← use,
    List.take_of_length_le (by omega)]

/-- **However a stream is cut and whenever messages are taken,** those that were taken and those
that wait are the messages of the stream so far; nothing waits just if all of them were taken. -/
theorem popped_append_queue (uses : List Use) :
    (use uses).popped ++ (use uses).decoder.queue.toList = Batch.messages (pushed uses) ∧
      ((use uses).decoder.next? = none ↔ (use uses).popped = Batch.messages (pushed uses)) :=
  ⟨yielded_use uses, next?_eq_none_iff uses⟩

/-- A carriage return and its line feed may come in two chunks. -/
example : (use [.push (Utf8.encode "data: a\r"), .push (Utf8.encode "\n\r\n"), .next]).popped = ["a"] := by
  decide +kernel

end Decoder
end ProofRelay.EventStream
