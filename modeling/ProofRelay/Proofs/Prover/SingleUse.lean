import ProofRelay.Proofs.Prover.Disturbance

/-!
Ids that are used once.  If the proof of an id is published once at most and somebody subscribes to it once at
most, a publication that nobody has claimed is there until its retention ends (`claimable_iff`), and there is
nobody who could remove the slot of a subscriber that waits (`Alone.reaches_or_stays`).  So one who subscribes and
stays gets the proof, once, with the first read after both (`events_of_usedOnce`).
-/

namespace ProofRelay

namespace Slots

/-- The proof of an id is published once at most, and somebody subscribes to it once at most. -/
def UsedOnce (id : String) (moves : List (Instant × Move)) : Prop :=
  (publications id moves).length ≤ 1 ∧ (subscriptions id moves).length ≤ 1

variable {s : Slots} {id : String} {number : Nat} {sub : Subscriber} {moves : List (Instant × Move)}
  {now : Instant} {move : Move}

theorem UsedOnce.of_append {as bs : List (Instant × Move)} (h : UsedOnce id (as ++ bs)) : UsedOnce id as := by
  obtain ⟨hpublished, hsubscribed⟩ := h
  rw [publications_append, List.length_append] at hpublished
  rw [subscriptions_append, List.length_append] at hsubscribed
  constructor <;> omega

/-- The only subscriber of an id is the one that is known. -/
theorem UsedOnce.of_subscribe {earlier since : List (Instant × Move)}
    (h : UsedOnce id (earlier ++ (now, .subscribe id) :: since)) :
    (publications id earlier).length ≤ 1 ∧ subscriptions id earlier = [] ∧ subscriptions id since = [] := by
  obtain ⟨hpublished, hsubscribed⟩ := h
  rw [publications_append, List.length_append] at hpublished
  rw [subscriptions_append, List.length_append, subscriptions_cons_subscribe, List.length_cons] at hsubscribed
  refine ⟨by omega, List.length_eq_zero_iff.mp ?_, List.length_eq_zero_iff.mp ?_⟩
  · omega
  · omega

/-! ## Before anybody subscribes -/

/-- Whoever is there has subscribed. -/
theorem subscriptions_ne_nil (h : (empty.run moves).subscriber? number = some sub) :
    subscriptions sub.id moves ≠ [] := by
  induction moves using List.reverseRecOn generalizing sub with
  | nil => cases h
  | append_singleton moves e ih =>
    obtain ⟨now, move⟩ := e
    rw [run_concat] at h
    rw [subscriptions_append, ne_eq, List.append_eq_nil_iff]
    rcases id_of_subscriber?_step h with ⟨before, hbefore, hid⟩ | ⟨rfl, -⟩
    · rw [← hid]
      exact fun hnil => ih hbefore hnil.1
    · rw [subscriptions_cons_subscribe]
      simp

/-- Only retentions that end remove the slot of an id to which nobody has subscribed. -/
theorem removals_of_no_subscription (hsubscribed : subscriptions id moves = [])
    (hlapses : empty.lapses id moves = []) : empty.removals id moves = [] := by
  induction moves using List.reverseRecOn with
  | nil => rfl
  | append_singleton moves e ih =>
    obtain ⟨now, move⟩ := e
    rw [subscriptions_append, List.append_eq_nil_iff] at hsubscribed
    rw [lapses_append, List.append_eq_nil_iff] at hlapses
    have hlapse : (empty.run moves).lapses? now move ≠ some id := by
      simpa [lapses, moments] using hlapses.2
    refine removals_concat_eq_nil.mpr ⟨ih hsubscribed.1 hlapses.1, ?_⟩
    intro hremoves
    rcases removes?_eq_some_iff.mp hremoves with hended | ⟨number, sub, -, hsub, rfl⟩
    · exact hlapse hended
    · exact subscriptions_ne_nil hsub hsubscribed.1

/-- Each retention of an id that ends removes its slot. -/
theorem lapses_eq_nil (h : s.removals id moves = []) : s.lapses id moves = [] := by
  induction moves generalizing s with
  | nil => rfl
  | cons e later ih =>
    obtain ⟨now, move⟩ := e
    rw [removals, moments, List.append_eq_nil_iff] at h
    have hremoves : s.removes? now move ≠ some id := by simpa using h.1
    have hlapses : s.lapses? now move ≠ some id := by
      intro hended
      exact hremoves (removes?_eq_some_iff.mpr (.inl hended))
    rw [lapses, moments, List.append_eq_nil_iff]
    exact ⟨by rw [if_neg hlapses], ih h.2⟩

/-- **The only publication** of an id can be claimed until its retention ends, if nobody has subscribed. -/
theorem claimable_iff (hsubscribed : subscriptions id moves = []) (honce : (publications id moves).length ≤ 1) :
    empty.Claimable id moves ↔ publications id moves ≠ [] ∧ empty.lapses id moves = [] := by
  constructor
  · rintro ⟨before, since, rfl, hpublished, hremovals⟩
    rw [publications_append, List.length_append] at honce
    have hsince : 0 < (publications id since).length := List.length_pos_iff.mpr hpublished
    have hbefore := retentions_run_empty id before
    have hlapses : empty.lapses id before = [] := List.length_eq_zero_iff.mp (by omega)
    constructor
    · exact publications_ne_nil_of_infix (List.suffix_append ..).isInfix hpublished
    · rw [lapses_append, List.append_eq_nil_iff]
      exact ⟨hlapses, lapses_eq_nil hremovals⟩
  · rintro ⟨hpublished, hlapses⟩
    exact ⟨[], moves, rfl, hpublished, removals_of_no_subscription hsubscribed hlapses⟩

/-! ## While one waits -/

/-- Nobody but one subscriber could remove the slot of an id. -/
structure Alone (s : Slots) (id : String) (number : Nat) : Prop where
  subscriber : ∀ n sub, s.subscriber? n = some sub → sub.id = id → n = number
  retentions : s.retentions id = 0

theorem alone_subscribe (hsubscribed : subscriptions id moves = []) (honce : (publications id moves).length ≤ 1)
    (hclaimable : ¬ empty.Claimable id moves) :
    Alone ((empty.run moves).subscribe id).2 id (empty.run moves).nextNumber where
  subscriber n sub hsub hid := by
    have hstep : ((empty.run moves).step 0 (.subscribe id)).subscriber? n = some sub := hsub
    rcases id_of_subscriber?_step hstep with ⟨old, hold, hidold⟩ | ⟨-, hn⟩
    · rw [← hid, ← hidold] at hsubscribed
      exact absurd hsubscribed (subscriptions_ne_nil hold)
    · exact hn
  retentions := by
    have hrun := retentions_run_empty id moves
    show (empty.run moves).retentions id = 0
    by_contra hne
    have hlapses : empty.lapses id moves = [] := List.length_eq_zero_iff.mp (by omega)
    have hpublished : publications id moves ≠ [] := by
      rw [← List.length_pos_iff]
      omega
    exact hclaimable ((claimable_iff hsubscribed honce).mpr ⟨hpublished, hlapses⟩)

theorem Alone.removes?_ne (h : Alone s id number) (now : Instant) (hstays : s.parting? move ≠ some number) :
    s.removes? now move ≠ some id := by
  intro hremoves
  rcases removes?_eq_some_iff.mp hremoves with hended | ⟨n, sub, hparting, hsub, hid⟩
  · obtain ⟨due, -, hmem⟩ := exists_of_lapses? hended
    exact retentions_eq_zero_iff.mp h.retentions due hmem
  · exact hstays (by rw [hparting, h.subscriber n sub hsub hid])

theorem Alone.step (h : Alone s id number) (hsubscribe : move ≠ .subscribe id)
    (hpublish : ∀ proof, move ≠ .publish id proof) : Alone (s.step now move) id number where
  subscriber n sub hsub hid := by
    rcases id_of_subscriber?_step hsub with ⟨old, hold, hidold⟩ | ⟨hmove, -⟩
    · exact h.subscriber n old hold (hidold.trans hid)
    · exact absurd (hid ▸ hmove) hsubscribe
  retentions := by
    have hstep := retentions_step s id now move
    rw [publications_cons_of_ne hpublish, h.retentions] at hstep
    have hnil : (publications id ([] : List (Instant × Move))).length = 0 := rfl
    omega

/-- One who is there after a history was there before. -/
theorem subscriber?_ne_none_of_run (hn : number < s.nextNumber) (h : (s.run moves).subscriber? number ≠ none) :
    s.subscriber? number ≠ none := by
  obtain ⟨sub', hsub'⟩ := Option.ne_none_iff_exists'.mp h
  obtain ⟨sub, hsub, -⟩ := (keepsIds_run s moves).ids number hn sub' hsub'
  simp [hsub]

/-- **The slot of one who is alone stays** until the id is published. -/
theorem Alone.reaches_or_stays (h : Alone s id number) (hn : number < s.nextNumber)
    (hstays : (s.run moves).subscriber? number ≠ none) (hsubscribed : subscriptions id moves = []) :
    s.Reaches id moves ∨ publications id moves = [] ∧ s.removals id moves = [] := by
  induction moves generalizing s with
  | nil => exact .inr ⟨rfl, rfl⟩
  | cons e later ih =>
    obtain ⟨now, move⟩ := e
    by_cases hpublish : ∃ proof, move = .publish id proof
    · obtain ⟨proof, rfl⟩ := hpublish
      refine .inl ⟨[(now, .publish id proof)], by simp, by simp [publications], ?_⟩
      exact removals_singleton_eq_nil.mpr (by rintro ⟨⟩)
    have hne : ∀ proof, move ≠ .publish id proof := fun proof heq => hpublish ⟨proof, heq⟩
    have hn' : number < (s.step now move).nextNumber :=
      Nat.lt_of_lt_of_le hn (keepsIds_step s now move).nextNumber
    obtain ⟨sub, hsub⟩ := Option.ne_none_iff_exists'.mp (subscriber?_ne_none_of_run hn' hstays)
    obtain ⟨-, -, hparting, -⟩ := exists_of_subscriber?_step hn hsub
    have hremoves := h.removes?_ne now hparting
    have hmove : move ≠ .subscribe id := by
      rintro rfl
      rw [subscriptions_cons_subscribe] at hsubscribed
      cases hsubscribed
    have hlater : subscriptions id later = [] := by
      have hsplit : subscriptions id ((now, move) :: later) =
          subscriptions id [(now, move)] ++ subscriptions id later := subscriptions_append id [(now, move)] later
      rw [hsplit, List.append_eq_nil_iff] at hsubscribed
      exact hsubscribed.2
    have hremovals : ∀ moves, s.removals id ((now, move) :: moves) = (s.step now move).removals id moves := by
      intro moves
      rw [removals, moments, if_neg hremoves]
      rfl
    rcases ih (h.step hmove hne) hn' hstays hlater with
      ⟨before, hprefix, hpublished, hnil⟩ | ⟨hpublished, hnil⟩
    · refine .inl ⟨(now, move) :: before, ?_, ?_, ?_⟩
      · exact List.cons_prefix_cons.mpr ⟨rfl, hprefix⟩
      · rw [publications_cons_of_ne hne]
        exact hpublished
      · rw [hremovals, hnil]
    · exact .inr ⟨by rw [publications_cons_of_ne hne, hpublished], by rw [hremovals, hnil]⟩

/-- A subscriber stays in a history in which it is neither polled nor goes away. -/
theorem subscriber?_run_ne_none (hs : s.subscriber? number ≠ none)
    (hmoves : ∀ e ∈ moves, e.2 ≠ .poll number ∧ e.2 ≠ .leave number) :
    (s.run moves).subscriber? number ≠ none := by
  induction moves generalizing s with
  | nil => exact hs
  | cons e later ih =>
    obtain ⟨now, move⟩ := e
    obtain ⟨hpoll, hleave⟩ := hmoves _ List.mem_cons_self
    obtain ⟨sub, hsub⟩ := Option.ne_none_iff_exists'.mp hs
    refine ih ?_ fun e he => hmoves e (List.mem_cons_of_mem _ he)
    rw [subscriber?_step hsub (parting?_ne hpoll hleave)]
    simp

end Slots

/-! ## One who subscribes and stays -/

namespace Prover

open Slots (publications subscriptions retention UsedOnce)

variable {p : Prover} {now : Instant} {move : Move} {number : Nat} {id : String}

theorem subscriber?_step_ne_none (hn : number < p.slots.nextNumber) (hs : p.slots.subscriber? number ≠ none)
    (hpoll : move ≠ .poll number) (hdrop : move ≠ .drop number) :
    (p.step now move).slots.subscriber? number ≠ none := by
  rw [(slots_step p now move).2]
  refine Slots.subscriber?_run_ne_none hs ?_
  intro e he
  obtain ⟨deed, hdeed, rfl⟩ := List.mem_map.mp he
  constructor
  · rintro rfl
    exact hpoll (eq_of_poll_mem_deeds hdeed)
  · rintro rfl
    exact hdrop (eq_of_leave_mem_deeds hn hdeed)

theorem subscriber?_step_eq_none (hn : number < p.slots.nextNumber) (hs : p.slots.subscriber? number = none) :
    (p.step now move).slots.subscriber? number = none := by
  rw [(slots_step p now move).2]
  by_contra hlater
  exact Slots.subscriber?_ne_none_of_run hn hlater hs

theorem pushed_of_ne (hpoll : move ≠ .poll number) : p.pushed number move = [] := by
  cases move with
  | poll n =>
    have hne : n ≠ number := by
      rintro rfl
      exact hpoll rfl
    rw [pushed]
    split
    · rw [if_neg hne]
    · rfl
  | request | drop | lapse => rfl

theorem pushed_of_gone (hs : p.slots.subscriber? number = none) : p.pushed number (.poll number) = [] := by
  have hpolled : (p.poll (.proof number)).1 = .finished := by
    rw [poll_fst, Slots.delivery, hs]
    rfl
  rw [pushed, hpolled]

theorem pushed_of_polled (now : Instant) {event : Bytes} (hpolled : (p.poll (.proof number)).1 = .data event) :
    p.pushed number (.poll number) = [event] ∧ (p.step now (.poll number)).slots.subscriber? number = none := by
  rw [pushed, hpolled, step, slots_poll]
  refine ⟨if_pos rfl, ?_⟩
  rw [poll_fst] at hpolled
  obtain ⟨text, hdelivery⟩ := eq_proof_of_polledOf hpolled
  have hparting : p.slots.parting? (.poll number) = some number := by rw [Slots.parting?, hdelivery]
  show (p.slots.step now (.poll number)).subscriber? number = none
  exact Slots.subscriber?_step_of_parting hparting

theorem pushed_of_pending (now : Instant) (hpolled : (p.poll (.proof number)).1 = .pending) :
    p.pushed number (.poll number) = [] ∧ (p.step now (.poll number)).slots = p.slots := by
  rw [pushed, hpolled, step, slots_poll]
  refine ⟨rfl, ?_⟩
  rw [poll_fst] at hpolled
  have hdelivery := eq_pending_of_polledOf hpolled
  simp [Slots.poll, hdelivery]

/-- The stream of a subscriber is read when its proof is there: it was there from the first, or the id has been
published since. -/
def ReadWithProof (p : Prover) (number : Nat) (id : String) (available : Prop) (moves : List (Instant × Move)) :
    Prop :=
  ∃ waited t, waited ++ [(t, Move.poll number)] <+: moves ∧ (available ∨ publications id (p.history waited) ≠ [])

theorem readWithProof_concat {available : Prop} {moves : List (Instant × Move)} :
    p.ReadWithProof number id available (moves ++ [(now, move)]) ↔
      p.ReadWithProof number id available moves ∨
        move = .poll number ∧ (available ∨ publications id (p.history moves) ≠ []) := by
  constructor
  · rintro ⟨waited, t, hprefix, hready⟩
    rcases List.prefix_concat_iff.mp hprefix with heq | hprefix
    · obtain ⟨rfl, hlast⟩ := List.append_inj' heq rfl
      cases hlast
      exact .inr ⟨rfl, hready⟩
    · exact .inl ⟨waited, t, hprefix, hready⟩
  · rintro (⟨waited, t, hprefix, hready⟩ | ⟨rfl, hready⟩)
    · exact ⟨waited, t, hprefix.trans (List.prefix_append ..), hready⟩
    · exact ⟨moves, now, List.prefix_rfl, hready⟩

section
variable {before later : List (Instant × Move)} {asked : Instant} {method : Http.Method} {path : String}
  {headers : Http.Headers} {body : Bytes}

/-- What is read from the stream of the only subscriber while it is there. -/
theorem polled_of_usedOnce :
    let start : Prover := { mode := .prove }
    let p := start.run before
    let q := p.step asked (.request method path headers body)
    let ready := Slots.empty.Claimable id (start.history before) ∨ publications id (q.history later) ≠ []
    (p.handle asked method path headers body).1.body = .proof number → awaited? path = some id →
    UsedOnce id (start.history before ++ (asked, .subscribe id) :: q.history later) →
    (q.run later).slots.subscriber? number ≠ none →
      (ready → ((q.run later).poll (.proof number)).1 = .data (proofEvent id)) ∧
        (¬ ready → ((q.run later).poll (.proof number)).1 = .pending) := by
  intro start p q ready hstream hid hused hstays
  obtain ⟨hreached, hunreached⟩ := polled_of_stream hstream hid hstays
  by_cases hclaimable : Slots.empty.Claimable id (start.history before)
  · exact ⟨fun _ => hreached (.inl hclaimable), fun h => absurd (.inl hclaimable) h⟩
  obtain ⟨honce, hearlier, hsince⟩ := hused.of_subscribe
  obtain ⟨rfl, hq⟩ := slots_of_stream hstream hid
  have hp : p.slots = Slots.empty.run (start.history before) := slots_run_start .prove before
  have halone : q.slots.Alone id p.slots.nextNumber := by
    rw [hq, hp]
    exact Slots.alone_subscribe hearlier honce hclaimable
  have hn : p.slots.nextNumber < q.slots.nextNumber := by
    rw [hq]
    exact Nat.lt_succ_self _
  rw [slots_run] at hstays
  rcases halone.reaches_or_stays hn hstays hsince with hreaches | ⟨hnone, hremovals⟩
  · have hready : ready := .inr hreaches.publications_ne_nil
    exact ⟨fun _ => hreached (.inr hreaches), fun h => absurd hready h⟩
  · have hunready : ¬ ready := by
      rintro (h | h)
      · exact hclaimable h
      · exact h hnone
    refine ⟨fun h => absurd h hunready, fun _ => ?_⟩
    have hnot : ¬ (Slots.empty.Claimable id (start.history before) ∨ q.slots.Reaches id (q.history later)) := by
      rintro (h | hreaches)
      · exact hclaimable h
      · exact hreaches.publications_ne_nil hnone
    rw [hunreached hnot, if_pos hremovals]

/-- Up to any moment, the only subscriber has its proof and is gone, or it waits. -/
theorem events_of_usedOnce :
    let start : Prover := { mode := .prove }
    let p := start.run before
    let q := p.step asked (.request method path headers body)
    let available := Slots.empty.Claimable id (start.history before)
    (p.handle asked method path headers body).1.body = .proof number → awaited? path = some id →
    UsedOnce id (start.history before ++ (asked, .subscribe id) :: q.history later) →
    (∀ t, (t, Move.drop number) ∉ later) →
      (q.ReadWithProof number id available later ∧ q.events number later = [proofEvent id] ∧
        (q.run later).slots.subscriber? number = none) ∨
      ¬ q.ReadWithProof number id available later ∧ q.events number later = [] ∧
        (q.run later).slots.subscriber? number ≠ none := by
  intro start p q available hstream hid
  obtain ⟨hnumber, hq⟩ := slots_of_stream hstream hid
  have hn : ∀ moves, number < (q.run moves).slots.nextNumber := by
    intro moves
    have hlt : number < q.slots.nextNumber := by
      rw [hq, hnumber]
      exact Nat.lt_succ_self _
    rw [slots_run]
    exact Nat.lt_of_lt_of_le hlt (Slots.keepsIds_run q.slots _).nextNumber
  induction later using List.reverseRecOn with
  | nil =>
    intro _ _
    refine .inr ⟨?_, rfl, ?_⟩
    · rintro ⟨waited, t, hprefix, -⟩
      simp at hprefix
    · have hp : p.slots = Slots.empty.run (start.history before) := slots_run_start .prove before
      show q.slots.subscriber? number ≠ none
      rw [hq, hnumber, hp, Slots.subscriber?_subscribe_run]
      simp
  | append_singleton moves e ih =>
    obtain ⟨now, move⟩ := e
    intro hused hdrop
    rw [history_append, ← List.cons_append, ← List.append_assoc] at hused
    have hdropped : ∀ t, (t, Move.drop number) ∉ moves := fun t hmem => hdrop t (List.mem_append_left _ hmem)
    have hmove : move ≠ .drop number := by
      rintro rfl
      exact hdrop now (by simp)
    have hevents : q.events number (moves ++ [(now, move)]) =
        q.events number moves ++ (q.run moves).pushed number move := by
      rw [events_append, events, events, List.append_nil]
    rw [readWithProof_concat, hevents, run_concat]
    rcases ih hused.of_append hdropped with ⟨hread, hgot, hgone⟩ | ⟨hunread, hnothing, hstays⟩
    · -- it has its proof, and nothing more comes
      refine .inl ⟨.inl hread, ?_, subscriber?_step_eq_none (hn moves) hgone⟩
      have hpushed : (q.run moves).pushed number move = [] := by
        by_cases hpoll : move = .poll number
        · rw [hpoll]
          exact pushed_of_gone hgone
        · exact pushed_of_ne hpoll
      rw [hgot, hpushed, List.append_nil]
    by_cases hpoll : move = .poll number
    · subst hpoll
      obtain ⟨hready, hunready⟩ := polled_of_usedOnce hstream hid hused.of_append hstays
      by_cases h : available ∨ publications id (q.history moves) ≠ []
      · obtain ⟨hpushed, hgone⟩ := pushed_of_polled now (hready h)
        exact .inl ⟨.inr ⟨rfl, h⟩, by rw [hnothing, hpushed, List.nil_append], hgone⟩
      · obtain ⟨hpushed, hslots⟩ := pushed_of_pending now (hunready h)
        refine .inr ⟨?_, by rw [hnothing, hpushed, List.nil_append], by rw [hslots]; exact hstays⟩
        rintro (hread | ⟨-, hread⟩)
        · exact hunread hread
        · exact h hread
    · refine .inr ⟨?_, by rw [hnothing, pushed_of_ne hpoll, List.nil_append], ?_⟩
      · rintro (hread | ⟨hpolled, -⟩)
        · exact hunread hread
        · exact hpoll hpolled
      · exact subscriber?_step_ne_none (hn moves) hstays hpoll hmove

/-- **The only subscriber gets the only proof, once,** if it is not dropped: with the first read after it
subscribed and the id was published, if it subscribed before the publication or before its retention ended, and
no retention ends before its time.  Otherwise it gets nothing, and never an empty event. -/
theorem only_subscriber_gets_its_proof_once :
    let start : Prover := { mode := .prove }
    let p := start.run before
    let request := Move.request method path headers body
    let q := p.step asked request
    let earlier := start.history before
    let available := publications id earlier ≠ [] ∧ Slots.empty.lapses id earlier = []
    (p.handle asked method path headers body).1.body = .proof number → awaited? path = some id →
    UsedOnce id (start.history (before ++ (asked, request) :: later)) →
    (∀ t, (t, Move.drop number) ∉ later) →
      (∀ waited t, waited ++ [(t, Move.poll number)] <+: later →
        available ∨ publications id (q.history waited) ≠ [] →
          q.events number (waited ++ [(t, .poll number)]) = [proofEvent id]) ∧
      (q.ReadWithProof number id available later → q.events number later = [proofEvent id]) ∧
      (¬ q.ReadWithProof number id available later → q.events number later = []) ∧
      proofEvent id ≠ emptyEvent ∧
      ∀ ended ∈ Slots.empty.lapses id earlier, ∃ began ∈ publications id earlier, began + retention ≤ ended := by
  intro start p request q earlier available hstream hid hused hdrop
  rw [history_append, history_of_stream hstream hid later] at hused
  have hclaimable : Slots.empty.Claimable id earlier ↔ available := by
    obtain ⟨honce, hearlier, -⟩ := hused.of_subscribe
    exact Slots.claimable_iff hearlier honce
  have hevents : ∀ moves, moves <+: later →
      (q.ReadWithProof number id available moves ∧ q.events number moves = [proofEvent id]) ∨
        ¬ q.ReadWithProof number id available moves ∧ q.events number moves = [] := by
    rintro moves ⟨rest, rfl⟩
    have husedby : UsedOnce id (earlier ++ (asked, .subscribe id) :: q.history moves) := by
      rw [history_append, ← List.cons_append, ← List.append_assoc] at hused
      exact hused.of_append
    rw [← hclaimable]
    rcases events_of_usedOnce hstream hid husedby fun t hmem => hdrop t (List.mem_append_left _ hmem) with
      ⟨hread, hgot, -⟩ | ⟨hunread, hnothing, -⟩
    · exact .inl ⟨hread, hgot⟩
    · exact .inr ⟨hunread, hnothing⟩
  refine ⟨?_, ?_, ?_, proofEvent_ne id, fun ended hended => Slots.le_of_mem_lapses hended⟩
  · intro waited t hprefix hready
    rcases hevents _ hprefix with ⟨-, hgot⟩ | ⟨hunread, -⟩
    · exact hgot
    · exact absurd ⟨waited, t, List.prefix_rfl, hready⟩ hunread
  · intro hread
    rcases hevents later List.prefix_rfl with ⟨-, hgot⟩ | ⟨hunread, -⟩
    · exact hgot
    · exact absurd hread hunread
  · intro hunread
    rcases hevents later List.prefix_rfl with ⟨hread, -⟩ | ⟨-, hnothing⟩
    · exact absurd hread hunread
    · exact hnothing

end

/-- One subscribes just in time, and reads when the slot is no longer there. -/
theorem only_subscriber_gets_its_proof_once_of_just_in_time :
    let headers := (Http.Headers.empty.append .requestId (.ofText "a")).append .proxyUrl (.ofText "http://t/")
    let before := [(0, Move.request .post "/proxy" headers [])]
    let p := ({ mode := .prove } : Prover).run before
    let q := p.step 29999 (.request .get "/proof/a" .empty [])
    let later := [(30000, Move.lapse 0), (30001, .poll 0), (30002, .poll 0)]
    (p.handle 29999 .get "/proof/a" .empty []).1.body = .proof 0 ∧ awaited? "/proof/a" = some "a" ∧
      UsedOnce "a" (({ mode := .prove } : Prover).history
        (before ++ (29999, .request .get "/proof/a" .empty []) :: later)) ∧
      (∀ t, (t, Move.drop 0) ∉ later) ∧ (q.run [(30000, .lapse 0)]).slots.has "a" = false ∧
      q.events 0 later = [proofEvent "a"] := by
  intro headers before p q later
  have hstream : (p.handle 29999 .get "/proof/a" .empty []).1.body = .proof 0 := by decide +kernel
  have hid : awaited? "/proof/a" = some "a" := by decide +kernel
  have hused : UsedOnce "a" (({ mode := .prove } : Prover).history
      (before ++ (29999, .request .get "/proof/a" .empty []) :: later)) := by
    constructor
    · decide +kernel
    · decide +kernel
  have hdrop : ∀ t, (t, Move.drop 0) ∉ later := by
    intro t hmem
    simp [later] at hmem
  refine ⟨hstream, hid, hused, hdrop, by decide +kernel, ?_⟩
  refine (only_subscriber_gets_its_proof_once hstream hid hused hdrop).2.1 ?_
  refine ⟨[(30000, .lapse 0)], 30001, ⟨[(30002, .poll 0)], rfl⟩, .inl ⟨?_, ?_⟩⟩
  · decide +kernel
  · decide +kernel

end Prover
end ProofRelay
