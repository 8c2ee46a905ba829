import Mathlib.Data.List.Chain
import Mathlib.Data.List.TakeWhile
import ProofRelay.Proofs.EventStream.Chunks
import ProofRelay.Proofs.Text.Lossy

/-!
All the ways to write messages as an event stream, and that each of them is read.  A message is a line or more
(`pieces`), each on a data line that may be spelled in three ways.  There may be lines that carry nothing
anywhere, more blank lines between events, a byte order mark at the front, and any line end after each line:

    Encodes messages lines → (ended "" lines).filterMap message? = messages      (Encodes.filterMap_message?)
    lines (write ends) = the texts of the lines                                               (lines_write)

Two line ends can be taken for one: a line feed that ends an empty line belongs to the carriage return before
it, so these two may not be `Apart`.
-/

namespace ProofRelay.EventStream

open Batch

/-! ## Lines of a message -/

theorem splitLines_eq_splitOn (cs : List Char) : splitLines cs = cs.splitOn '\n' := by
  induction cs with
  | nil => rfl
  | cons c cs ih =>
    rw [List.splitOn_cons_eq_if_modifyHead, splitLines, ih]
    by_cases hc : c = '\n'
    · simp [hc]
    · cases hs : cs.splitOn '\n' with
      | nil => exact absurd hs (List.splitOn_ne_nil _ _)
      | cons first rest => simp [hc]

theorem mem_of_mem_splitLines {cs line : List Char} (h : line ∈ splitLines cs) :
    ∀ c ∈ line, c ∈ cs ∧ c ≠ '\n' := by
  induction cs generalizing line with
  | nil =>
    obtain rfl := List.mem_singleton.mp h
    simp
  | cons d cs ih =>
    rw [splitLines] at h
    split at h
    · rcases List.mem_cons.mp h with rfl | h
      · simp
      · exact fun c hc => ⟨List.mem_cons_of_mem _ (ih h c hc).1, (ih h c hc).2⟩
    · next hd =>
      cases hs : splitLines cs with
      | nil =>
        rw [splitLines_eq_splitOn] at hs
        exact absurd hs (List.splitOn_ne_nil _ _)
      | cons first rest =>
        simp only [hs] at h
        rcases List.mem_cons.mp h with rfl | h
        · have hfirst := ih (show first ∈ splitLines cs by simp [hs])
          intro c hc
          rcases List.mem_cons.mp hc with rfl | hc
          · exact ⟨by simp, hd⟩
          · exact ⟨List.mem_cons_of_mem _ (hfirst c hc).1, (hfirst c hc).2⟩
        · have hline := ih (show line ∈ splitLines cs by simp [hs, h])
          exact fun c hc => ⟨List.mem_cons_of_mem _ (hline c hc).1, (hline c hc).2⟩

/-- The lines of a message; there is always one. -/
def pieces (message : String) : List String := (splitLines message.toList).map String.ofList

theorem pieces_ne_nil (message : String) : pieces message ≠ [] := by
  rw [pieces, ne_eq, List.map_eq_nil_iff, splitLines_eq_splitOn]
  exact List.splitOn_ne_nil _ _

theorem intercalate_pieces (message : String) : "\n".intercalate (pieces message) = message := by
  rw [← String.toList_inj, String.toList_intercalate, pieces, List.map_map]
  have hid : String.toList ∘ String.ofList = id := funext fun cs => String.toList_ofList
  rw [hid, List.map_id, splitLines_eq_splitOn]
  exact List.intercalate_splitOn '\n'

/-- An event whose data lines have the lines of a message as values has this message. -/
theorem message?_of_pieces {event : List String} {message : String}
    (h : event.filterMap value? = pieces message) : message? event = some message := by
  unfold message?
  rw [h]
  split
  · next hnil => exact absurd hnil (pieces_ne_nil message)
  · rw [intercalate_pieces]

/-! ## Ways to write -/

/-- A text in which nothing ends a line. -/
structure IsLine (text : String) : Prop where
  no_lf : '\n' ∉ text.toList
  no_cr : '\r' ∉ text.toList

instance (text : String) : Decidable (IsLine text) :=
  decidable_of_iff ('\n' ∉ text.toList ∧ '\r' ∉ text.toList) ⟨fun h => ⟨h.1, h.2⟩, fun h => ⟨h.no_lf, h.no_cr⟩⟩

/-- A line that does not begin with a byte order mark. -/
def Unmarked (line : String) : Prop := line.toList.head? ≠ some '\uFEFF'

instance (line : String) : Decidable (Unmarked line) := inferInstanceAs (Decidable (_ ≠ _))

/-- The name of a field that carries nothing. -/
structure IsOtherName (name : String) : Prop extends IsLine name where
  no_colon : ':' ∉ name.toList
  ne_empty : name ≠ ""
  ne_data : name ≠ dataField
  unmarked : Unmarked name

instance (name : String) : Decidable (IsOtherName name) :=
  decidable_of_iff (IsLine name ∧ ':' ∉ name.toList ∧ name ≠ "" ∧ name ≠ dataField ∧ Unmarked name)
    ⟨fun ⟨hline, hcolon, hempty, hdata, hmark⟩ => ⟨hline, hcolon, hempty, hdata, hmark⟩,
      fun h => ⟨h.toIsLine, h.no_colon, h.ne_empty, h.ne_data, h.unmarked⟩⟩

/-- The lines that carry nothing. -/
inductive IsSilent : String → Prop
  | comment {text : String} (htext : IsLine text) : IsSilent (":" ++ text)
  | name {name : String} (hname : IsOtherName name) : IsSilent name
  | field {name value : String} (hname : IsOtherName name) (hvalue : IsLine value) :
    IsSilent (name ++ ":" ++ value)

/-- The data lines of a line of a message. -/
inductive IsDataLine (piece : String) : String → Prop
  | spaced : IsDataLine piece ("data: " ++ piece)
  /-- The blank is needed just if the value begins with one. -/
  | tight (hpiece : piece.toList.head? ≠ some ' ') : IsDataLine piece ("data:" ++ piece)
  | bare (hpiece : piece = "") : IsDataLine piece "data"

/-- The lines of an event: data lines in order, and lines that carry nothing between them. -/
inductive IsEvent : (pieces event : List String) → Prop
  | nil : IsEvent [] []
  | silent {line : String} {pieces event : List String} (hline : IsSilent line)
    (hevent : IsEvent pieces event) : IsEvent pieces (line :: event)
  | data {piece line : String} {pieces event : List String} (hline : IsDataLine piece line)
    (hevent : IsEvent pieces event) : IsEvent (piece :: pieces) (line :: event)

/-- The lines of a stream: an event for each message, which a blank line ends, and more blank lines and lines
that carry nothing. -/
inductive Encodes : (messages lines : List String) → Prop
  | nil : Encodes [] []
  | blank {messages lines : List String} (hlines : Encodes messages lines) : Encodes messages ("" :: lines)
  | silent {line : String} {messages lines : List String} (hline : IsSilent line)
    (hlines : Encodes messages lines) : Encodes messages (line :: lines)
  | event {message : String} {event messages lines : List String} (hevent : IsEvent (pieces message) event)
    (hlines : Encodes messages lines) : Encodes (message :: messages) (event ++ "" :: lines)

/-- What ends a line. -/
inductive LineEnd
  | lineFeed
  | carriageReturn
  | both
deriving DecidableEq, Repr

def LineEnd.bytes : LineEnd → Bytes
  | lineFeed => [lf]
  | carriageReturn => [cr]
  | both => [cr, lf]

/-- Writes lines, each with its end. -/
def write (lines : List (String × LineEnd)) : Bytes :=
  lines.flatMap fun (line, lineEnd) => Utf8.encode line ++ lineEnd.bytes

/-- The byte order mark that may be at the front of a stream. -/
def front (mark : Bool) : Bytes := if mark then byteOrderMark else []

/-- Two lines whose ends are not taken for one. -/
def Apart (line next : String × LineEnd) : Prop :=
  ¬ (line.2 = .carriageReturn ∧ next = ("", .lineFeed))

instance (line next : String × LineEnd) : Decidable (Apart line next) :=
  inferInstanceAs (Decidable (¬ _))

/-! ## Texts of lines -/

theorem IsLine.append {s t : String} (hs : IsLine s) (ht : IsLine t) : IsLine (s ++ t) where
  no_lf := by simp [String.toList_append, hs.no_lf, ht.no_lf]
  no_cr := by simp [String.toList_append, hs.no_cr, ht.no_cr]

theorem isLine_empty : IsLine "" := ⟨by simp, by simp⟩

theorem isLine_of_mem_pieces {message piece : String} (hcr : '\r' ∉ message.toList)
    (h : piece ∈ pieces message) : IsLine piece := by
  obtain ⟨cs, hcs, rfl⟩ := List.mem_map.mp h
  have hmem := mem_of_mem_splitLines hcs
  refine ⟨?_, ?_⟩ <;> rw [String.toList_ofList]
  · exact fun hlf => (hmem _ hlf).2 rfl
  · exact fun hin => hcr (hmem _ hin).1

/-- A text that is not empty keeps its beginning, whatever is put behind it. -/
theorem ne_empty_and_unmarked_append {s : String} (h : s ≠ "" ∧ Unmarked s) (t : String) :
    s ++ t ≠ "" ∧ Unmarked (s ++ t) := by
  have hne : s.toList ≠ [] := mt String.toList_eq_nil_iff.mp h.1
  refine ⟨?_, ?_⟩
  · rw [ne_eq, ← String.toList_eq_nil_iff, String.toList_append, List.append_eq_nil_iff]
    exact fun hnil => hne hnil.1
  · rw [Unmarked, String.toList_append, List.head?_append_of_ne_nil _ hne]
    exact h.2

/-! ## Values of lines -/

section
variable {name : String} (h : ':' ∉ name.toList)

include h

theorem ne_colon : ∀ c ∈ name.toList, decide (c ≠ ':') = true := by
  intro c hc
  rw [decide_eq_true_iff]
  rintro rfl
  exact h hc

/-- The value of a field is what comes after its colon and one blank. -/
theorem value?_field (value : String) :
    value? (name ++ ":" ++ value) =
      if name = dataField then some (String.ofList (without [' '] value.toList)) else none := by
  have hline : (name ++ ":" ++ value).toList = name.toList ++ ':' :: value.toList := by
    simp [String.toList_append]
  have hname : (name.toList ++ ':' :: value.toList).takeWhile (· ≠ ':') = name.toList := by
    rw [List.takeWhile_append_of_pos (ne_colon h)]
    simp
  have hvalue : (name.toList ++ ':' :: value.toList).dropWhile (· ≠ ':') = ':' :: value.toList := by
    rw [List.dropWhile_append_of_pos (ne_colon h)]
    simp
  unfold value?
  simp only []
  rw [hline, hname, hvalue, List.tail_cons]
  exact if_congr String.toList_inj rfl rfl

/-- A field without a colon has the empty value. -/
theorem value?_name : value? name = if name = dataField then some "" else none := by
  have hname : name.toList.takeWhile (· ≠ ':') = name.toList := List.takeWhile_eq_self_iff.mpr (ne_colon h)
  have hvalue : name.toList.dropWhile (· ≠ ':') = [] := List.dropWhile_eq_nil_iff.mpr (ne_colon h)
  unfold value?
  simp only []
  rw [hname, hvalue]
  exact if_congr String.toList_inj rfl rfl

end

theorem colon_not_mem_dataField : ':' ∉ dataField.toList := by decide +kernel

namespace IsDataLine

variable {piece line : String}

theorem value?_eq (h : IsDataLine piece line) : value? line = some piece := by
  have hvalue := value?_field colon_not_mem_dataField
  cases h with
  | spaced =>
    have hline : "data: " ++ piece = dataField ++ ":" ++ (" " ++ piece) := by
      rw [← String.append_assoc]
      rfl
    have hblank : (" " ++ piece).toList = ' ' :: piece.toList := by simp [String.toList_append]
    rw [hline, hvalue, if_pos rfl, hblank, without_blank, String.ofList_toList]
  | tight hpiece =>
    have hnot : ∀ value, piece.toList ≠ ' ' :: value := by
      intro value heq
      rw [heq] at hpiece
      exact hpiece rfl
    have hline : "data:" ++ piece = dataField ++ ":" ++ piece := rfl
    rw [hline, hvalue, if_pos rfl, without_of_not_blank hnot, String.ofList_toList]
  | bare hpiece =>
    rw [hpiece]
    exact value?_name colon_not_mem_dataField

theorem isLine (h : IsDataLine piece line) (hpiece : IsLine piece) : IsLine line := by
  cases h with
  | spaced => exact .append (by decide +kernel) hpiece
  | tight => exact .append (by decide +kernel) hpiece
  | bare => decide +kernel

theorem ne_empty_and_unmarked (h : IsDataLine piece line) : line ≠ "" ∧ Unmarked line := by
  cases h with
  | spaced => exact ne_empty_and_unmarked_append (by decide +kernel) piece
  | tight => exact ne_empty_and_unmarked_append (by decide +kernel) piece
  | bare => decide +kernel

end IsDataLine

namespace IsSilent

variable {line : String}

theorem value?_eq (h : IsSilent line) : value? line = none := by
  cases h with
  | @comment text =>
    have hvalue := value?_field (show ':' ∉ "".toList by simp) text
    rwa [String.empty_append] at hvalue
  | name hname => rw [value?_name hname.no_colon, if_neg hname.ne_data]
  | field hname => rw [value?_field hname.no_colon, if_neg hname.ne_data]

theorem isLine (h : IsSilent line) : IsLine line := by
  have hcolon : IsLine ":" := by decide +kernel
  cases h with
  | comment htext => exact hcolon.append htext
  | name hname => exact hname.toIsLine
  | field hname hvalue => exact (hname.toIsLine.append hcolon).append hvalue

theorem ne_empty_and_unmarked (h : IsSilent line) : line ≠ "" ∧ Unmarked line := by
  cases h with
  | comment => exact ne_empty_and_unmarked_append (by decide +kernel) _
  | name hname => exact ⟨hname.ne_empty, hname.unmarked⟩
  | field hname =>
    rw [String.append_assoc]
    exact ne_empty_and_unmarked_append ⟨hname.ne_empty, hname.unmarked⟩ _

end IsSilent

namespace IsEvent

variable {pieces event : List String}

/-- The values of an event are the lines of its message. -/
theorem filterMap_value? (h : IsEvent pieces event) : event.filterMap value? = pieces := by
  induction h with
  | nil => rfl
  | silent hline _ ih => rw [List.filterMap_cons_none hline.value?_eq, ih]
  | data hline _ ih => rw [List.filterMap_cons_some hline.value?_eq, ih]

theorem blank_not_mem (h : IsEvent pieces event) : "" ∉ event := by
  induction h with
  | nil => exact List.not_mem_nil
  | silent hline _ ih => exact List.not_mem_cons_of_ne_of_not_mem hline.ne_empty_and_unmarked.1.symm ih
  | data hline _ ih => exact List.not_mem_cons_of_ne_of_not_mem hline.ne_empty_and_unmarked.1.symm ih

theorem isLine_and_unmarked (h : IsEvent pieces event) (hpieces : ∀ piece ∈ pieces, IsLine piece) :
    ∀ line ∈ event, IsLine line ∧ Unmarked line := by
  induction h with
  | nil => exact fun _ hline => absurd hline List.not_mem_nil
  | silent hline _ ih =>
    exact List.forall_mem_cons.mpr ⟨⟨hline.isLine, hline.ne_empty_and_unmarked.2⟩, ih hpieces⟩
  | data hline _ ih =>
    obtain ⟨hpiece, hpieces⟩ := List.forall_mem_cons.mp hpieces
    exact List.forall_mem_cons.mpr ⟨⟨hline.isLine hpiece, hline.ne_empty_and_unmarked.2⟩, ih hpieces⟩

end IsEvent

/-! ## Messages of lines -/

/-- A line that carries nothing changes no message, wherever it stands. -/
theorem filterMap_message?_cons {line : String} (hne : line ≠ "") (hvalue : value? line = none)
    (lines : List String) :
    (ended "" (line :: lines)).filterMap message? = (ended "" lines).filterMap message? := by
  have hmessage : ∀ event : List String, message? (line :: event) = message? event := by
    intro event
    unfold message?
    rw [List.filterMap_cons_none hvalue]
  by_cases hmem : "" ∈ lines
  · obtain ⟨event, rest, rfl, hevent⟩ := List.eq_append_cons_of_mem hmem
    have hcons : "" ∉ line :: event := List.not_mem_cons_of_ne_of_not_mem hne.symm hevent
    rw [← List.cons_append, ended_append_cons hcons, ended_append_cons hevent, List.filterMap_cons,
      List.filterMap_cons, hmessage]
  · have hcons : "" ∉ line :: lines := List.not_mem_cons_of_ne_of_not_mem hne.symm hmem
    rw [ended_of_not_mem hcons, ended_of_not_mem hmem]

namespace Encodes

variable {messages lines : List String}

/-- **The messages of lines** are the ones that they were written for. -/
theorem filterMap_message? (h : Encodes messages lines) : (ended "" lines).filterMap message? = messages := by
  induction h with
  | nil => rfl
  | @blank messages lines _ ih =>
    have hcut := ended_append_cons (show "" ∉ [] by simp) lines
    rw [List.nil_append] at hcut
    rw [hcut, List.filterMap_cons_none rfl, ih]
  | silent hline _ ih => rw [filterMap_message?_cons hline.ne_empty_and_unmarked.1 hline.value?_eq, ih]
  | event hevent _ ih =>
    rw [ended_append_cons hevent.blank_not_mem,
      List.filterMap_cons_some (message?_of_pieces hevent.filterMap_value?), ih]

theorem isLine_and_unmarked (h : Encodes messages lines) (hcr : ∀ message ∈ messages, '\r' ∉ message.toList) :
    ∀ line ∈ lines, IsLine line ∧ Unmarked line := by
  have hblank : IsLine "" ∧ Unmarked "" := ⟨isLine_empty, by decide +kernel⟩
  induction h with
  | nil => exact fun _ hline => absurd hline List.not_mem_nil
  | blank _ ih => exact List.forall_mem_cons.mpr ⟨hblank, ih hcr⟩
  | silent hline _ ih =>
    exact List.forall_mem_cons.mpr ⟨⟨hline.isLine, hline.ne_empty_and_unmarked.2⟩, ih hcr⟩
  | event hevent _ ih =>
    obtain ⟨hmessage, hcr⟩ := List.forall_mem_cons.mp hcr
    rw [List.forall_mem_append, List.forall_mem_cons]
    exact ⟨hevent.isLine_and_unmarked fun _ hpiece => isLine_of_mem_pieces hmessage hpiece, hblank, ih hcr⟩

end Encodes

/-! ## Bytes of lines -/

theorem lf_not_mem_encode {line : String} (h : IsLine line) : lf ∉ Utf8.encode line :=
  fun hmem => h.no_lf (Utf8.mem_of_mem_encode hmem (by decide))

theorem cr_not_mem_encode {line : String} (h : IsLine line) : cr ∉ Utf8.encode line :=
  fun hmem => h.no_cr (Utf8.mem_of_mem_encode hmem (by decide))

theorem encode_ne_nil {line : String} (h : line ≠ "") : Utf8.encode line ≠ [] := by
  intro hnil
  have hline := Utf8.decodeLossy_encode line
  rw [hnil] at hline
  exact h hline.symm

theorem no_byteOrderMark_of_unmarked {line : String} (h : Unmarked line) :
    ¬ byteOrderMark <+: Utf8.encode line := by
  rintro ⟨rest, hrest⟩
  have hmark : byteOrderMark = Utf8.encode "\uFEFF" := by decide
  have hline := Utf8.decodeLossy_encode line
  rw [← hrest, hmark, Utf8.decodeLossy_encode_append] at hline
  apply h
  rw [← hline, String.toList_append]
  rfl

/-- Lines begin with a line feed only if the first one is empty and is ended by one. -/
theorem skipLf_write {lines : List (String × LineEnd)} (hlines : ∀ line ∈ lines, IsLine line.1)
    (h : ∀ line ∈ lines.head?, line ≠ ("", .lineFeed)) : skipLf (write lines) = write lines := by
  rw [skipLf_eq_without]
  refine without_eq_self ?_
  cases lines with
  | nil => exact fun hprefix => absurd (List.prefix_nil.mp hprefix) (by simp)
  | cons first rest =>
    obtain ⟨line, lineEnd⟩ := first
    have hfirst : IsLine line := hlines (line, lineEnd) (by simp)
    have hne := h (line, lineEnd) rfl
    rw [write, List.flatMap_cons, List.append_assoc]
    by_cases hempty : line = ""
    · -- of an empty line only the end is written
      subst hempty
      rw [Utf8.encode_empty, List.nil_append]
      cases lineEnd with
      | lineFeed => exact absurd rfl hne
      | carriageReturn | both =>
        intro hprefix
        exact absurd (List.cons_prefix_cons.mp hprefix).1 (by decide)
    · obtain ⟨b, bs, hbytes⟩ := List.exists_cons_of_ne_nil (encode_ne_nil hempty)
      have hlf := lf_not_mem_encode hfirst
      rw [hbytes] at hlf ⊢
      rw [List.cons_append]
      intro hprefix
      exact hlf (by simp [(List.cons_prefix_cons.mp hprefix).1])

/-- **Line ends** that are apart are each read as one. -/
theorem plainEnds_write {lines : List (String × LineEnd)} (hlines : ∀ line ∈ lines, IsLine line.1)
    (happart : lines.IsChain Apart) :
    plainEnds (write lines) = (lines.map fun line => Utf8.encode line.1).flatMap (· ++ [lf]) := by
  induction lines with
  | nil => rfl
  | cons first rest ih =>
    obtain ⟨line, lineEnd⟩ := first
    obtain ⟨hfirst, hrest⟩ := List.forall_mem_cons.mp hlines
    obtain ⟨hnext, happart⟩ := List.isChain_cons.mp happart
    have hwrite : write ((line, lineEnd) :: rest) = Utf8.encode line ++ (lineEnd.bytes ++ write rest) := by
      rw [write, List.flatMap_cons, List.append_assoc]
      rfl
    have hend : plainEnds (lineEnd.bytes ++ write rest) = lf :: plainEnds (write rest) := by
      cases lineEnd with
      | lineFeed => exact plainEnds_of_ne (by decide) (write rest)
      | carriageReturn =>
        have hskip : skipLf (write rest) = write rest :=
          skipLf_write hrest fun next hmem hnot => hnext next hmem ⟨rfl, hnot⟩
        exact (plainEnds_cr (write rest)).trans (by rw [hskip])
      | both => exact plainEnds_cr (lf :: write rest)
    rw [hwrite, plainEnds_append_of_not_mem (cr_not_mem_encode hfirst), hend, ih hrest happart,
      List.map_cons, List.flatMap_cons, List.append_assoc, List.singleton_append]

theorem without_front {line : String} (h : Unmarked line) (mark : Bool) :
    without byteOrderMark (front mark ++ Utf8.encode line) = Utf8.encode line := by
  cases mark with
  | true => exact without_append byteOrderMark (Utf8.encode line)
  | false => exact without_eq_self (no_byteOrderMark_of_unmarked h)

/-- **The lines** that were written are read. -/
theorem lines_write {lines : List (String × LineEnd)} (hlines : ∀ line ∈ lines, IsLine line.1 ∧ Unmarked line.1)
    (happart : lines.IsChain Apart) (mark : Bool) :
    Batch.lines (front mark ++ write lines) = lines.map (·.1) := by
  have hcr : cr ∉ front mark := by cases mark <;> decide
  have hlf : lf ∉ front mark := by cases mark <;> decide
  have hpieces : ∀ piece ∈ lines.map fun line => Utf8.encode line.1, lf ∉ piece := by
    intro piece hpiece
    obtain ⟨line, hline, rfl⟩ := List.mem_map.mp hpiece
    exact lf_not_mem_encode (hlines line hline).1
  have hends := plainEnds_write (fun line hline => (hlines line hline).1) happart
  rw [Batch.lines, plainEnds_append_of_not_mem hcr, hends, ended_append_of_not_mem hlf, ended_flatMap hpieces]
  -- the mark is a part of the first piece, and is taken off it again
  cases lines with
  | nil => rfl
  | cons first rest =>
    have hfirst := (hlines first (by simp)).2
    simp only [List.map_cons, List.modifyHead_cons, without_front hfirst, List.map_map, Function.comp_def,
      Utf8.decodeLossy_encode]

/-- **The messages** are read from what was written for them. -/
theorem messages_write {messages : List String} {lines : List (String × LineEnd)}
    (hcr : ∀ message ∈ messages, '\r' ∉ message.toList) (hlines : Encodes messages (lines.map (·.1)))
    (happart : lines.IsChain Apart) (mark : Bool) : Batch.messages (front mark ++ write lines) = messages := by
  have htexts : ∀ line ∈ lines, IsLine line.1 ∧ Unmarked line.1 :=
    fun line hline => hlines.isLine_and_unmarked hcr line.1 (List.mem_map_of_mem hline)
  rw [Batch.messages, lines_write htexts happart, hlines.filterMap_message?]

namespace Decoder

/-- **Every way to write messages is read.**  Whatever spelling each data line has, whatever comments, other
fields and blank lines stand between them, whatever ends the lines and whether or not a byte order mark is at
the front, a decoder yields the messages, however the bytes are cut and whenever messages are taken. -/
theorem yielded_of_encodes {messages : List String} {lines : List (String × LineEnd)}
    (hcr : ∀ message ∈ messages, '\r' ∉ message.toList) (hlines : Encodes messages (lines.map (·.1)))
    (happart : lines.IsChain Apart) (mark : Bool) {uses : List Use}
    (hbytes : pushed uses = front mark ++ write lines) :
    (use uses).yielded = messages ∧
      ∀ count, messages.length ≤ count → (use (uses ++ List.replicate count .next)).popped = messages := by
  have hmessages : Batch.messages (pushed uses) = messages := by
    rw [hbytes]
    exact messages_write hcr hlines happart mark
  refine ⟨by rw [yielded_use, hmessages], fun count hcount => ?_⟩
  rw [← hmessages] at hcount
  rw [popped_append_nexts hcount, hmessages]

/-- A message whose first and last lines are empty and whose middle one begins with a blank, and an empty
message; a carriage return before lines of each kind, and a cut between a carriage return and its line feed. -/
theorem yielded_of_encodes_of_delicate_lines :
    let messages := ["\n a:\n", ""]
    let lines : List (String × LineEnd) :=
      [(": comment", .carriageReturn), ("", .both), ("data", .carriageReturn), ("id:1", .lineFeed),
        ("data:  a:", .both), (":data: b", .carriageReturn), ("data:", .carriageReturn), ("", .carriageReturn),
        ("", .both), ("data: ", .lineFeed), ("", .lineFeed), ("datum", .carriageReturn)]
    let bytes := front true ++ write lines
    let uses : List Use := [.push (bytes.take 15), .next, .push (bytes.drop 15)]
    (∀ message ∈ messages, '\r' ∉ message.toList) ∧ Encodes messages (lines.map (·.1)) ∧ lines.IsChain Apart ∧
      pushed uses = front true ++ write lines ∧ (use uses).yielded = messages ∧
        ∀ count, messages.length ≤ count → (use (uses ++ List.replicate count .next)).popped = messages := by
  intro messages lines bytes uses
  have hcr : ∀ message ∈ messages, '\r' ∉ message.toList := by decide +kernel
  have hcomment : IsSilent (":" ++ " comment") := .comment (by decide +kernel)
  have hid : IsSilent ("id" ++ ":" ++ "1") := .field (by decide +kernel) (by decide +kernel)
  have hdata : IsSilent (":" ++ "data: b") := .comment (by decide +kernel)
  have hdatum : IsSilent "datum" := .name (by decide +kernel)
  have hfirst : IsEvent (pieces "\n a:\n") ["data", "id:1", "data:  a:", ":data: b", "data:"] := by
    have hpieces : pieces "\n a:\n" = ["", " a:", ""] := by decide +kernel
    rw [hpieces]
    exact .data (.bare rfl) (.silent hid (.data .spaced (.silent hdata (.data (.tight (by decide)) .nil))))
  have hsecond : IsEvent (pieces "") ["data: "] := by
    have hpieces : pieces "" = [""] := by decide +kernel
    rw [hpieces]
    exact .data .spaced .nil
  have hlines : Encodes messages (lines.map (·.1)) :=
    .silent hcomment (.blank (.event hfirst (.blank (.event hsecond (.silent hdatum .nil)))))
  have happart : lines.IsChain Apart := by decide
  have hbytes : pushed uses = front true ++ write lines := by
    simp [pushed, uses, bytes]
  exact ⟨hcr, hlines, happart, hbytes, yielded_of_encodes hcr hlines happart true hbytes⟩

end Decoder
end ProofRelay.EventStream
