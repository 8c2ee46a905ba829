import ProofRelay.Proofs.EventStream.Encodings

/-!
Messages that are framed are read again.  A frame is one of the ways to write a message: each of its lines on a
data line with a blank, and a line feed at the end of each line.

    messages (encode (frame message)) = [message]                          (messages_frame)
-/

namespace ProofRelay.EventStream

open Batch

/-- The lines of a frame. -/
def frameLines (message : String) : List (String × LineEnd) :=
  (pieces message).map (fun piece => ("data: " ++ piece, .lineFeed)) ++ [("", .lineFeed)]

theorem encode_frame {message : String} (h : message ≠ "") :
    Utf8.encode (frame message) = write (frameLines message) := by
  have hempty : message.isEmpty = false := by simpa using h
  have hlf : ['\n'].flatMap String.utf8EncodeChar = [lf] := by decide
  have hline : ∀ line : List Char, ("data: ".toList ++ line ++ ['\n']).flatMap String.utf8EncodeChar =
      Utf8.encode ("data: " ++ String.ofList line) ++ [lf] := by
    intro line
    have htoList : ("data: " ++ String.ofList line).toList = "data: ".toList ++ line :=
      String.toList_append.trans (congrArg _ String.toList_ofList)
    rw [List.flatMap_append, hlf, Utf8.encode, htoList]
  have hframe : (frame message).toList =
      (splitLines message.toList).flatMap (fun line => "data: ".toList ++ line ++ ['\n']) ++ ['\n'] := by
    unfold frame
    rw [hempty]
    exact String.toList_ofList
  rw [Utf8.encode, hframe, List.flatMap_append, hlf, List.flatMap_assoc, write, frameLines, pieces,
    List.flatMap_append, List.map_map, List.flatMap_map]
  simp only [hline]
  rfl

/-- Only an empty message is written as a blank line alone. -/
theorem encode_frame_ne {message : String} (h : message ≠ "") :
    Utf8.encode (frame message) ≠ Utf8.encode (frame "") := by
  have hblank : Utf8.encode (frame "") = write [("", .lineFeed)] := by decide
  obtain ⟨first, rest, hpieces⟩ := List.exists_cons_of_ne_nil (pieces_ne_nil message)
  rw [encode_frame h, hblank, frameLines, hpieces, write, write, List.flatMap_append, ne_eq,
    List.append_left_eq_self]
  simp [LineEnd.bytes]

theorem encodes_frameLines (message : String) : Encodes [message] ((frameLines message).map (·.1)) := by
  have hevent : ∀ pieces : List String, IsEvent pieces (pieces.map ("data: " ++ ·)) := by
    intro pieces
    induction pieces with
    | nil => exact .nil
    | cons piece pieces ih => exact .data .spaced ih
  have hlines : (frameLines message).map (·.1) = (pieces message).map ("data: " ++ ·) ++ "" :: [] := by
    simp [frameLines]
  rw [hlines]
  exact .event (hevent (pieces message)) .nil

theorem isChain_frameLines (message : String) : (frameLines message).IsChain Apart := by
  have hends : ∀ line ∈ frameLines message, line.2 = .lineFeed := by
    intro line hline
    rcases List.mem_append.mp hline with hline | hline
    · obtain ⟨piece, -, rfl⟩ := List.mem_map.mp hline
      rfl
    · rw [List.mem_singleton.mp hline]
  refine List.Pairwise.isChain (List.pairwise_of_forall_mem_list fun line hline next _ => ?_)
  rintro ⟨hend, -⟩
  rw [hends line hline] at hend
  cases hend

/-- **A message is read from its frame.** -/
theorem messages_frame {message : String} (hcr : '\r' ∉ message.toList) :
    Batch.messages (Utf8.encode (frame message)) = if message = "" then [] else [message] := by
  by_cases h : message = ""
  · subst h
    rw [if_pos rfl]
    decide +kernel
  · have hmessages : ∀ m ∈ [message], '\r' ∉ m.toList := by simpa using hcr
    rw [if_neg h, encode_frame h]
    exact messages_write hmessages (encodes_frameLines message) (isChain_frameLines message) false

end ProofRelay.EventStream
