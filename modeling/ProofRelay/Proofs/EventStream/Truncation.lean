import ProofRelay.Proofs.EventStream.Feed
import ProofRelay.Proofs.Subscription.Items

/-!
Streams that are cut off.  Of a stream that is cut at any byte, the messages are the first ones of the whole
stream, since a message is yielded only when its event is complete:

    cut <+: whole → messages cut <+: messages whole                                      (messages_mono)

So what a subscription comes to over the cut stream (`Batch.outcome`) is what it comes to over the whole one,
or a failure of the stream.
-/

namespace ProofRelay.EventStream

open Decoder (Use use pushed)
open Subscription (Listens arrivals)

namespace Batch

theorem messages_mono {cut whole : Bytes} (h : cut <+: whole) : messages cut <+: messages whole := by
  obtain ⟨more, rfl⟩ := h
  have hprefix := Decoder.yielded_mono [.push cut] more
  rw [Decoder.yielded_use] at hprefix
  simpa [pushed] using hprefix

/-- What a subscription comes to that waits long enough, told from the whole reply. -/
def outcome (head : Http.Head) (body : Http.Incoming) : Outcome :=
  match refusal? head with
  | some error => .streamError error
  | none =>
    match messages body.bytes with
    | message :: _ => .delivered ⟨message⟩
    | [] => .streamError (if body.failed then .connection .network else .closed)

theorem items_some (head : Http.Head) (body : Http.Incoming) :
    items (some (head, body)) =
      match refusal? head with
      | some error => [.failed error, .ended]
      | none => .opened :: (messages body.bytes).map .message ++ closing body.failed := by
  simp only [items, refusal?]
  cases head.status.isSuccess with
  | false => rfl
  | true => cases (head.headers.text? .contentType).any accepts <;> rfl

/-- The first item that ends a wait is told from the whole reply. -/
theorem findSome?_items (head : Http.Head) (body : Http.Incoming) :
    (items (some (head, body))).findSome? Subscription.ending? = some (outcome head body) := by
  rw [items_some, outcome]
  cases refusal? head with
  | some error => rfl
  | none =>
    cases messages body.bytes with
    | cons message later => rfl
    | nil => cases body.failed <;> rfl

end Batch

/-- The outcome is the first of these messages, or that the stream failed. -/
inductive IsFirstOrError (messages : List String) : Outcome → Prop
  | first {message : String} (hmessage : messages.head? = some message) :
    IsFirstOrError messages (.delivered ⟨message⟩)
  | error (error : ChannelError) : IsFirstOrError messages (.streamError error)

section
variable {head : Http.Head} {cut whole : Http.Incoming} (hcut : cut.bytes <+: whole.bytes)

include hcut

theorem Batch.isFirstOrError_outcome : IsFirstOrError (messages whole.bytes) (outcome head cut) := by
  obtain ⟨later, hlater⟩ := messages_mono hcut
  rw [outcome]
  cases refusal? head with
  | some error => exact .error error
  | none =>
    cases hmessages : messages cut.bytes with
    | cons message more =>
      rw [hmessages] at hlater
      refine .first ?_
      rw [← hlater]
      rfl
    | nil => exact .error _

/-- What is delivered of a cut stream is delivered of the whole one. -/
theorem Batch.outcome_of_delivered {payload : Payload} (h : outcome head cut = .delivered payload) :
    outcome head whole = .delivered payload := by
  obtain ⟨later, hlater⟩ := messages_mono hcut
  rw [outcome] at h ⊢
  cases hrefusal : refusal? head with
  | some error => simp [hrefusal] at h
  | none =>
    cases hmessages : messages cut.bytes with
    | cons message more =>
      rw [hmessages] at hlater
      simp only [hrefusal, hmessages] at h
      simp only [← hlater, List.cons_append, h]
    | nil => simp [hrefusal, hmessages] at h

end

/-- A subscription that listens to a channel over an event stream comes to what the whole reply says. -/
theorem outcome_of_listens {patience : Duration} {head : Http.Head} {body : Http.Incoming}
    {events : Subscription.History} {o : Outcome} (h : Listens patience (Feed.items (some (head, body))) events)
    (ho : ((Subscription.start (.ok ()) patience).run events).outcome? = some o) :
    o = Batch.outcome head body := by
  have hitems := h.arrivals.findSome?_eq_some (Subscription.outcome?_of_listens h ho)
  rw [Feed.items_eq, Batch.findSome?_items] at hitems
  exact (Option.some.inj hitems).symm

/-- A channel yields an item that ends a wait, whatever its body is. -/
theorem exists_mem_items (head : Http.Head) (body : Http.Incoming) :
    ∃ item ∈ Feed.items (some (head, body)), item ≠ .opened := by
  rw [Feed.items_eq]
  obtain ⟨item, hitem, ho⟩ := List.exists_of_findSome?_eq_some (Batch.findSome?_items head body)
  refine ⟨item, hitem, ?_⟩
  rintro rfl
  cases ho

/-- **A stream that is cut off never yields a shortened proof.**  Wherever a stream is cut, however both streams
come in chunks, and whether the cut one then ends or fails:

* the messages of the cut stream are the first ones of the whole stream;
* a subscription over the cut stream that nobody closes and whose deadline does not come has the first message
  of the whole stream as its outcome, or a failure of the stream;
* what it delivers is what a subscription over the whole stream comes to;
* its channel yields an item that ends the wait, and once one has come the task ends when it is woken. -/
theorem delivered_of_cut_stream {uses uses' : List Use} (hcut : pushed uses <+: pushed uses')
    (head : Http.Head) {cut whole : Http.Incoming} (hbytes : cut.bytes = pushed uses)
    (hbytes' : whole.bytes = pushed uses') {patience patience' : Duration}
    {events events' : Subscription.History}
    (h : Listens patience (Feed.items (some (head, cut))) events)
    (h' : Listens patience' (Feed.items (some (head, whole))) events') :
    let s := (Subscription.start (.ok ()) patience).run events
    let s' := (Subscription.start (.ok ()) patience').run events'
    (use uses).yielded <+: (use uses').yielded ∧
    (∀ o, s.outcome? = some o → IsFirstOrError (use uses').yielded o) ∧
    (∀ payload o', s.outcome? = some (.delivered payload) → s'.outcome? = some o' → o' = .delivered payload) ∧
    (∃ item ∈ Feed.items (some (head, cut)), item ≠ .opened) ∧
    ((∃ item ∈ arrivals events, item ≠ .opened) →
      ∀ now, ∃ o, (s.wake now).outcome? = some o ∧ IsFirstOrError (use uses').yielded o) := by
  intro s s'
  rw [← hbytes, ← hbytes'] at hcut
  have hfirst : IsFirstOrError (use uses').yielded (Batch.outcome head cut) := by
    rw [Decoder.yielded_use, ← hbytes']
    exact Batch.isFirstOrError_outcome hcut
  refine ⟨?_, fun o ho => ?_, fun payload o' ho ho' => ?_, exists_mem_items head cut, ?_⟩
  · rw [Decoder.yielded_use, Decoder.yielded_use, ← hbytes, ← hbytes']
    exact Batch.messages_mono hcut
  · rw [outcome_of_listens h ho]
    exact hfirst
  · rw [outcome_of_listens h' ho', Batch.outcome_of_delivered hcut (outcome_of_listens h ho).symm]
  · rintro ⟨item, hitem, hne⟩ now
    -- the item that has come ends the wait as the whole reply says
    have hsome : (arrivals events).findSome? Subscription.ending? ≠ none := by
      rw [ne_eq, List.findSome?_eq_none_iff]
      exact fun hnone => hne (Subscription.ending?_eq_none_iff.mp (hnone item hitem))
    obtain ⟨o, ho⟩ := Option.ne_none_iff_exists'.mp hsome
    have hwake := Subscription.outcome?_wake_of_listens h ho now
    have hitems := h.arrivals.findSome?_eq_some ho
    rw [Feed.items_eq, Batch.findSome?_items] at hitems
    obtain rfl := Option.some.inj hitems
    exact ⟨_, hwake, hfirst⟩

/-- The second of two events is cut within a character and the connection fails; the first one is delivered. -/
theorem delivered_of_cut_stream_of_failed_connection :
    let head : Http.Head := ⟨.ok, Http.Headers.empty.append .contentType (.ofText mime)⟩
    let bytes := Utf8.encode "data: a\r\ndata:b\r\n\r\ndata: é\n\n"
    let cut : Http.Incoming := ⟨[.data (bytes.take 8), .trailers, .data ((bytes.drop 8).take 20)], true⟩
    let whole : Http.Incoming := ⟨[.data bytes], false⟩
    let uses : List Use := [.push (bytes.take 28), .next]
    let uses' : List Use := [.push (bytes.take 5), .push (bytes.drop 5)]
    let events : Subscription.History :=
      [(0, .arrive .opened), (3, .arrive (.message "a\nb"))] ++ List.replicate 2 (5, .look)
    pushed uses <+: pushed uses' ∧ cut.bytes = pushed uses ∧ whole.bytes = pushed uses' ∧
      Listens 10 (Feed.items (some (head, cut))) events ∧ Listens 10 (Feed.items (some (head, whole))) events ∧
      ((Subscription.start (.ok ()) 10).run events).outcome? = some (.delivered ⟨"a\nb"⟩) ∧
      IsFirstOrError (use uses').yielded (.delivered ⟨"a\nb"⟩) := by
  intro head bytes cut whole uses uses' events
  have hcut : pushed uses <+: pushed uses' := by decide +kernel
  have hbytes : cut.bytes = pushed uses := by decide +kernel
  have hbytes' : whole.bytes = pushed uses' := by decide +kernel
  have hitems : Feed.items (some (head, cut)) =
      [.opened, .message "a\nb", .failed (.connection .network), .ended] := by
    rw [Feed.items_eq]
    decide +kernel
  have hitems' : Feed.items (some (head, whole)) = [.opened, .message "a\nb", .message "é", .ended] := by
    rw [Feed.items_eq]
    decide +kernel
  -- both items come before the first look
  have harrived : ∀ items : List Item, [.opened, .message "a\nb"] <+: items → Listens 10 items events := by
    intro items hprefix
    have hbefore : Listens 10 items [(0, .arrive .opened), (3, .arrive (.message "a\nb"))] := by
      refine ⟨by simp, fun before now hp => ?_, hprefix⟩
      exact absurd (hp.subset (List.mem_append_right _ (List.mem_singleton_self _))) (by simp)
    exact hbefore.append_looks rfl 5 2
  have h : Listens 10 (Feed.items (some (head, cut))) events := harrived _ (by rw [hitems]; decide)
  have h' : Listens 10 (Feed.items (some (head, whole))) events := harrived _ (by rw [hitems']; decide)
  have ho : ((Subscription.start (.ok ()) 10).run events).outcome? = some (.delivered ⟨"a\nb"⟩) := by
    decide +kernel
  obtain ⟨-, hfirst, -⟩ := delivered_of_cut_stream hcut head hbytes hbytes' h h'
  exact ⟨hcut, hbytes, hbytes', h, h', ho, hfirst _ ho⟩

end ProofRelay.EventStream
