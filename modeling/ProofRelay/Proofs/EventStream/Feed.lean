import ProofRelay.EventStream.Opener
import ProofRelay.Proofs.EventStream.Chunks

/-!
What a channel over an event stream yields.  A channel reads its reply frame by frame, and gives an item each
time it is asked for one.  The items are told from the whole reply at once (`Batch.items`): a refusal, or the
messages of the whole body between the opening and the end.  And no frame is read too early:

    the items that are asked for are the first ones of `Batch.items`                  (take_connecting)
    when k messages were given, the frames that were read are the fewest that hold k messages
                                                                                    (after_connecting)

A channel uses its decoder as anybody may (`Decoder.use`), so what it was given and what it took from it is
what the decoder tells of the stream so far.
-/

namespace ProofRelay.EventStream

open Decoder (Use use pushed)

/-- The items at the end of a body. -/
def Batch.closing (failed : Bool) : List Item :=
  if failed then [.failed (.connection .network), .ended] else [.ended]

/-- The items of a channel, told from the whole reply. -/
def Batch.items : Http.Reply → List Item
  | none => [.failed (.connection .network), .ended]
  | some (head, body) =>
    let contentType := head.headers.text? .contentType
    if head.status.isSuccess = false then [.failed (.status head.status), .ended]
    else if contentType.any accepts = false then [.failed (.contentType contentType), .ended]
    else
      .opened :: (Batch.messages body.bytes).map .message ++ Batch.closing body.failed

/-! ## The number of messages -/

namespace Batch

theorem length_ended_le {α : Type} [BEq α] [LawfulBEq α] (mark : α) (xs : List α) :
    (ended mark xs).length ≤ xs.length := by
  induction xs using cut_induction mark with
  | whole xs h => simp [ended_of_not_mem h]
  | cut piece rest hpiece ih =>
    have hrest := ih rest (Nat.le_refl _)
    rw [ended_append_cons hpiece]
    simp only [List.length_cons, List.length_append]
    omega

theorem length_plainEnds_le (bs : Bytes) : (plainEnds bs).length ≤ bs.length := by
  induction bs with
  | nil => simp [plainEnds]
  | cons b rest ih =>
    rw [plainEnds]
    split
    · split
      · simp only [List.length_cons]
        omega
      · simpa using ih
    · simpa using ih

/-- A message takes a byte, so there are not more of them than bytes. -/
theorem length_messages_le (bs : Bytes) : (messages bs).length ≤ bs.length := by
  have hlines : (lines bs).length = (ended lf (plainEnds bs)).length := by simp [lines]
  have hevents := List.length_filterMap_le message? (ended "" (lines bs))
  have hcut := length_ended_le "" (lines bs)
  have hends := length_ended_le lf (plainEnds bs)
  have hplain := length_plainEnds_le bs
  unfold messages
  omega

end Batch

namespace Feed

/-- The bytes of the frames that carry data. -/
def bytesOf (frames : List Http.Frame) : Bytes := Http.Incoming.bytes ⟨frames, false⟩

@[simp] theorem bytesOf_nil : bytesOf [] = [] := rfl

@[simp] theorem bytesOf_append (xs ys : List Http.Frame) : bytesOf (xs ++ ys) = bytesOf xs ++ bytesOf ys := by
  simp [bytesOf, Http.Incoming.bytes]

/-! ## From one item to the next -/

/-- Frames were read, and messages given: not one of them was complete before the last frame was read. -/
structure Gives (uses : List Use) (read : List Http.Frame) (messages : List String) (uses' : List Use) :
    Prop where
  pushed : pushed uses' = pushed uses ++ bytesOf read
  popped : (use uses').popped = (use uses).popped ++ messages
  needed : ∀ fewer, fewer <+: read → fewer ≠ read →
    (Batch.messages (Decoder.pushed uses ++ bytesOf fewer)).length < (use uses').popped.length

namespace Gives

theorem refl (uses : List Use) : Gives uses [] [] uses where
  pushed := by simp
  popped := by simp
  needed := by
    intro fewer hprefix hne
    exact absurd (List.prefix_nil.mp hprefix) hne

theorem trans {uses uses' uses'' : List Use} {read read' : List Http.Frame} {messages messages' : List String}
    (h : Gives uses read messages uses') (h' : Gives uses' read' messages' uses'') :
    Gives uses (read ++ read') (messages ++ messages') uses'' where
  pushed := by rw [h'.pushed, h.pushed, bytesOf_append, List.append_assoc]
  popped := by rw [h'.popped, h.popped, List.append_assoc]
  needed := by
    intro fewer hprefix hne
    rcases List.prefix_or_prefix_of_prefix hprefix (List.prefix_append read read') with hfewer | ⟨more, rfl⟩
    · by_cases heq : fewer = read
      · subst heq
        have hne' : [] ≠ read' := by
          rintro rfl
          exact hne (List.append_nil fewer).symm
        have hneeded := h'.needed [] (List.nil_prefix) hne'
        rw [h.pushed] at hneeded
        simpa using hneeded
      · have hneeded := h.needed fewer hfewer heq
        have hlength : (use uses').popped.length ≤ (use uses'').popped.length := by
          rw [h'.popped, List.length_append]
          omega
        omega
    · have hmore : more <+: read' := (List.prefix_append_right_inj read).mp hprefix
      have hne' : more ≠ read' := by
        rintro rfl
        exact hne rfl
      have hneeded := h'.needed more hmore hne'
      rw [h.pushed] at hneeded
      rwa [bytesOf_append, ← List.append_assoc]

end Gives

theorem popped_prefix (uses : List Use) (more : Bytes) :
    (use uses).popped <+: Batch.messages (pushed uses ++ more) :=
  (List.prefix_append ..).trans (Decoder.yielded_mono uses more)

/-! ## One item -/

theorem use_append_next {uses : List Use} {message : String} {rest : Decoder}
    (h : (use uses).decoder.next? = some (message, rest)) :
    use (uses ++ [.next]) = ⟨(use uses).popped ++ [message], rest⟩ := by
  rw [Decoder.use_append_singleton, Decoder.InUse.step, h]

/-- A message that is complete is given before anything is read. -/
theorem gives_next {uses : List Use} {message : String} {rest : Decoder}
    (h : (use uses).decoder.next? = some (message, rest)) : Gives uses [] [message] (uses ++ [.next]) where
  pushed := by simp [Decoder.pushed]
  popped := by rw [use_append_next h]
  needed := by
    intro fewer hprefix hne
    exact absurd (List.prefix_nil.mp hprefix) hne

/-- A frame is read when no message is complete, so a message that is given then needs the frame. -/
theorem Gives.read {uses uses' uses'' : List Use} {frame : Http.Frame} {frames : List Http.Frame}
    {message : String} (hnone : (use uses).decoder.next? = none)
    (hpushed : Decoder.pushed uses' = Decoder.pushed uses ++ bytesOf [frame])
    (hpopped : (use uses').popped = (use uses).popped) (h : Gives uses' frames [message] uses'') :
    Gives uses (frame :: frames) [message] uses'' where
  pushed := by rw [h.pushed, hpushed, List.append_assoc, ← bytesOf_append, List.singleton_append]
  popped := by rw [h.popped, hpopped]
  needed := by
    intro fewer hprefix hne
    rcases List.prefix_cons_iff.mp hprefix with rfl | ⟨fewer, rfl, hfewer⟩
    · have hall := (Decoder.next?_eq_none_iff uses).mp hnone
      rw [h.popped, hpopped, bytesOf_nil, List.append_nil, ← hall, List.length_append]
      exact Nat.lt_succ_self _
    · have hneeded := h.needed fewer hfewer (by rintro rfl; exact hne rfl)
      rw [hpushed, List.append_assoc, ← bytesOf_append, List.singleton_append] at hneeded
      exact hneeded

theorem nextMessage_of_some {d rest : Decoder} {message : String} (h : d.next? = some (message, rest))
    (failed : Bool) (frames : List Http.Frame) :
    nextMessage failed d frames = (.message message, streaming rest ⟨frames, failed⟩) := by
  cases frames <;> simp [nextMessage, h]

/-- **Asked for an item,** a channel gives the next message, and reads no frame that it does not need for it; or
all messages of the body were given, and this is the end. -/
theorem nextMessage_cases (failed : Bool) (uses : List Use) (frames : List Http.Frame) :
    (∃ message uses' read rest, frames = read ++ rest ∧ Gives uses read [message] uses' ∧
      nextMessage failed (use uses).decoder frames =
        (.message message, streaming (use uses').decoder ⟨rest, failed⟩)) ∨
    (use uses).popped = Batch.messages (pushed uses ++ bytesOf frames) ∧
      nextMessage failed (use uses).decoder frames =
        (if failed then .failed (.connection .network) else .ended, finished) := by
  induction frames generalizing uses with
  | nil =>
    cases hn : (use uses).decoder.next? with
    | some pair =>
      obtain ⟨message, d⟩ := pair
      refine .inl ⟨message, uses ++ [.next], [], [], rfl, gives_next hn, ?_⟩
      rw [nextMessage_of_some hn, use_append_next hn]
    | none =>
      have hall := (Decoder.next?_eq_none_iff uses).mp hn
      exact .inr ⟨by simpa using hall, by simp [nextMessage, hn]⟩
  | cons frame frames ih =>
    cases hn : (use uses).decoder.next? with
    | some pair =>
      obtain ⟨message, d⟩ := pair
      refine .inl ⟨message, uses ++ [.next], [], frame :: frames, rfl, gives_next hn, ?_⟩
      rw [nextMessage_of_some hn, use_append_next hn]
    | none =>
      -- the frame is read, and what follows is told by the frames behind it
      obtain ⟨uses', hpushed, hpopped, hnext⟩ : ∃ uses',
          pushed uses' = pushed uses ++ bytesOf [frame] ∧ (use uses').popped = (use uses).popped ∧
          nextMessage failed (use uses).decoder (frame :: frames) =
            nextMessage failed (use uses').decoder frames := by
        cases frame with
        | data bytes =>
          refine ⟨uses ++ [.push bytes], ?_, ?_, ?_⟩
          · simp [pushed, bytesOf, Http.Incoming.bytes]
          · rw [Decoder.use_append_singleton, Decoder.InUse.step]
          · rw [nextMessage, hn, Decoder.use_append_singleton, Decoder.InUse.step]
        | trailers =>
          refine ⟨uses, ?_, rfl, ?_⟩
          · simp [bytesOf, Http.Incoming.bytes]
          · rw [nextMessage, hn]
      rw [hnext]
      rcases ih uses' with ⟨message, uses'', read, rest, rfl, hgives, heq⟩ | ⟨hall, heq⟩
      · exact .inl ⟨message, uses'', frame :: read, rest, rfl, hgives.read hn hpushed hpopped, heq⟩
      · refine .inr ⟨?_, heq⟩
        rw [← hpopped, hall, hpushed, List.append_assoc, ← bytesOf_append, List.singleton_append]

/-- The message that is given is the first of those that were to come, and the others are still to come. -/
theorem Gives.later {uses uses' : List Use} {read rest : List Http.Frame} {message : String}
    {later : List String} (h : Gives uses read [message] uses')
    (hlater : Batch.messages (Decoder.pushed uses ++ bytesOf (read ++ rest)) = (use uses).popped ++ later) :
    ∃ later', later = message :: later' ∧
      Batch.messages (Decoder.pushed uses' ++ bytesOf rest) = (use uses').popped ++ later' := by
  obtain ⟨later', hlater'⟩ := popped_prefix uses' (bytesOf rest)
  have hwhole : Decoder.pushed uses' ++ bytesOf rest = Decoder.pushed uses ++ bytesOf (read ++ rest) := by
    rw [h.pushed, bytesOf_append, List.append_assoc]
  refine ⟨later', ?_, hlater'.symm⟩
  rw [hwhole, hlater, h.popped, List.append_assoc] at hlater'
  exact (List.append_cancel_left hlater').symm

/-! ## All items -/

theorem take_finished (polls : Nat) : take polls finished = [Item.ended].take polls := by
  cases polls with
  | zero => rfl
  | succ polls => simp [take, next]

/-- A stream of which some messages were given gives the others, and its end. -/
theorem take_streaming (failed : Bool) (polls : Nat) {uses : List Use} {frames : List Http.Frame}
    {later : List String}
    (h : Batch.messages (pushed uses ++ bytesOf frames) = (use uses).popped ++ later) :
    take polls (streaming (use uses).decoder ⟨frames, failed⟩) =
      (later.map Item.message ++ Batch.closing failed).take polls := by
  induction polls generalizing uses frames later with
  | zero => rfl
  | succ polls ih =>
    rw [take, next]
    rcases nextMessage_cases failed uses frames with ⟨message, uses', read, rest, rfl, hgives, heq⟩ | ⟨hall, heq⟩
    · obtain ⟨later', rfl, hlater⟩ := hgives.later h
      rw [heq]
      exact congrArg _ (ih hlater)
    · have hnil : later = [] := by
        rw [← hall] at h
        simpa using h
      rw [heq, hnil]
      cases failed with
      | true => exact congrArg _ (take_finished polls)
      | false => simp [Batch.closing]

/-- **The items that are asked for** are the first ones that the reply has. -/
theorem take_connecting (polls : Nat) (reply : Http.Reply) :
    take polls (connecting reply) = (Batch.items reply).take polls := by
  cases polls with
  | zero => rfl
  | succ polls =>
    rcases reply with _ | ⟨head, body⟩
    · exact congrArg _ (take_finished polls)
    · rw [take, next, Batch.items]
      by_cases hstatus : head.status.isSuccess = true
      · by_cases htype : (head.headers.text? .contentType).any accepts = true
        · have hbody : Batch.messages (pushed [] ++ bytesOf body.frames) =
              (use []).popped ++ Batch.messages body.bytes := rfl
          have hstream := take_streaming body.failed polls hbody
          simp only [refusal?, hstatus, htype]
          exact congrArg _ hstream
        · simp only [refusal?, hstatus, htype]
          exact congrArg _ (take_finished polls)
      · simp only [refusal?, hstatus]
        exact congrArg _ (take_finished polls)

/-- As many items are asked for as there can be. -/
theorem length_items_le (reply : Http.Reply) :
    (Batch.items reply).length ≤ (reply.map fun (_, body) => body.bytes.length).getD 0 + 3 := by
  rcases reply with _ | ⟨head, body⟩
  · simp [Batch.items]
  · have hmessages := Batch.length_messages_le body.bytes
    rw [Batch.items]
    split
    · simp
    · split
      · simp
      · cases hfailed : body.failed <;> simp [Batch.closing] <;> omega

theorem items_eq (reply : Http.Reply) : items reply = Batch.items reply := by
  rw [items, take_connecting, List.take_of_length_le (length_items_le reply)]

/-! ## What was read -/

/-- A channel after it was asked for items. -/
def after : (polls : Nat) → Feed → Feed
  | 0, feed => feed
  | polls + 1, feed => after polls feed.next.2

theorem after_streaming (failed : Bool) (count : Nat) {uses : List Use} {frames : List Http.Frame}
    {later : List String}
    (h : Batch.messages (pushed uses ++ bytesOf frames) = (use uses).popped ++ later)
    (hcount : count ≤ later.length) :
    ∃ uses' read rest, frames = read ++ rest ∧ Gives uses read (later.take count) uses' ∧
      after count (streaming (use uses).decoder ⟨frames, failed⟩) =
        streaming (use uses').decoder ⟨rest, failed⟩ := by
  induction count generalizing uses frames later with
  | zero => exact ⟨uses, [], frames, rfl, .refl uses, rfl⟩
  | succ count ih =>
    rcases nextMessage_cases failed uses frames with ⟨message, uses', read, rest, rfl, hgives, heq⟩ | ⟨hall, -⟩
    · obtain ⟨later', rfl, hlater⟩ := hgives.later h
      obtain ⟨uses'', read', rest', rfl, hgives', hafter⟩ := ih hlater (by simpa using hcount)
      refine ⟨uses'', read ++ read', rest', by simp, hgives.trans hgives', ?_⟩
      rw [after, next, heq]
      exact hafter
    · have hnil : later = [] := by
        rw [← hall] at h
        simpa using h
      simp [hnil] at hcount

/-- When messages were given, the frames that were read are the fewest that hold so many. -/
theorem after_connecting {head : Http.Head} (hopen : refusal? head = none) (body : Http.Incoming) {count : Nat}
    (hcount : count ≤ (Batch.messages body.bytes).length) :
    ∃ d read rest, body.frames = read ++ rest ∧
      after (count + 1) (connecting (some (head, body))) = streaming d ⟨rest, body.failed⟩ ∧
      count ≤ (Batch.messages (bytesOf read)).length ∧
      ∀ fewer, fewer <+: read → fewer ≠ read → (Batch.messages (bytesOf fewer)).length < count := by
  have hbody : Batch.messages (pushed [] ++ bytesOf body.frames) =
      (use []).popped ++ Batch.messages body.bytes := rfl
  obtain ⟨uses, read, rest, hframes, hgives, hafter⟩ := after_streaming body.failed count hbody hcount
  have hlength : (use uses).popped.length = count := by
    have hnil : (use []).popped = [] := rfl
    rw [hgives.popped, hnil, List.nil_append, List.length_take, Nat.min_eq_left hcount]
  have hpushed : pushed uses = bytesOf read := by
    rw [hgives.pushed]
    rfl
  refine ⟨(use uses).decoder, read, rest, hframes, ?_, ?_, ?_⟩
  · rw [after, next, hopen]
    exact hafter
  · have hprefix := popped_prefix uses []
    rw [List.append_nil, hpushed] at hprefix
    rw [← hlength]
    exact hprefix.length_le
  · intro fewer hprefix hne
    have hneeded := hgives.needed fewer hprefix hne
    rwa [hlength] at hneeded

/-- **What a channel over an event stream yields.**  For every reply: a failure, or the refusal of its head, or
the opening and the messages of its whole body in order, and a failure if the body fails; then the end, and
each time that a channel is asked it gives the next of these.  No frame is read before all messages of the
frames before it were given. -/
theorem items_of_reply (reply : Http.Reply) :
    items reply = Batch.items reply ∧
      (∀ polls, take polls (connecting reply) = (Batch.items reply).take polls) ∧
      ∀ head body, reply = some (head, body) → refusal? head = none →
        ∀ count ≤ (Batch.messages body.bytes).length,
          ∃ d read rest, body.frames = read ++ rest ∧
            after (count + 1) (connecting reply) = streaming d ⟨rest, body.failed⟩ ∧
            count ≤ (Batch.messages (bytesOf read)).length ∧
            ∀ fewer, fewer <+: read → fewer ≠ read → (Batch.messages (bytesOf fewer)).length < count := by
  refine ⟨items_eq reply, fun polls => take_connecting polls reply, ?_⟩
  rintro head body rfl hopen count hcount
  exact after_connecting hopen body hcount

/-- Two messages and a part of the third one come in a frame, and the connection fails before the last one is
complete: when the second one is given, only the first frame was read. -/
theorem items_of_reply_of_cut_messages :
    let head : Http.Head := ⟨.ok, Http.Headers.empty.append .contentType (.ofText mime)⟩
    let first : Http.Frame := .data (Utf8.encode "data: a\n\ndata: b\n\nda")
    let body : Http.Incoming := ⟨[first, .trailers, .data (Utf8.encode "ta: c\n\ndata: d\n")], true⟩
    items (some (head, body)) =
        [.opened, .message "a", .message "b", .message "c", .failed (.connection .network), .ended] ∧
      ∃ d, after 3 (connecting (some (head, body))) = streaming d ⟨body.frames.tail, true⟩ := by
  intro head first body
  obtain ⟨hitems, -, hafter⟩ := items_of_reply (some (head, body))
  have hmessages : Batch.messages body.bytes = ["a", "b", "c"] := by decide +kernel
  have hfirst : (Batch.messages (bytesOf [first])).length = 2 := by decide +kernel
  refine ⟨by rw [hitems]; decide +kernel, ?_⟩
  obtain ⟨d, read, rest, hframes, hafter, hcount, hneeded⟩ :=
    hafter head body rfl (by decide +kernel) 2 (by rw [hmessages]; decide)
  -- without the first frame there is no message, and with it there are two
  have hread : read = [first] := by
    have hwhole : [first] <+: read ++ rest := ⟨body.frames.tail, hframes⟩
    rcases List.prefix_or_prefix_of_prefix (List.prefix_append read rest) hwhole with hfewer | hmore
    · rcases List.prefix_cons_iff.mp hfewer with rfl | ⟨more, rfl, hmore⟩
      · have hnone : (Batch.messages (bytesOf [])).length = 0 := by decide +kernel
        omega
      · rw [List.prefix_nil.mp hmore]
    · by_contra hne
      have hlt := hneeded [first] hmore (Ne.symm hne)
      omega
  subst hread
  have hrest : body.frames.tail = rest := congrArg List.tail hframes
  rw [hrest]
  exact ⟨d, hafter⟩

end Feed
end ProofRelay.EventStream
