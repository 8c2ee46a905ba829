import Mathlib.Data.List.Infix
import ProofRelay.Proofs.EventStream.Frames
import ProofRelay.Proofs.Prover.Runs

/-!
Who disturbs whom.  Slots belong to ids, so one who waits shares the slot of its id with all others of this id,
and so does a publication.  A subscriber that is still there has the proof if the id was published before its
slot was removed (`Reaches`); a publication can still be claimed if the slot was not removed since
(`Claimable`).  Whose end it was that removed the slot makes no difference:

    what a slot holds after a history                                                       (held?_run)
    what a subscriber that is still there has                                         (subscriber?_run)
    what one who has subscribed gets                                           (delivery_of_subscribed)
-/

namespace ProofRelay

namespace Slots

/-! ## Publications before and after removals -/

/-- The id is published, and nothing removes its slot before. -/
def Reaches (s : Slots) (id : String) (moves : List (Instant × Move)) : Prop :=
  ∃ before, before <+: moves ∧ publications id before ≠ [] ∧ s.removals id before = []

/-- The id is published, and nothing removes its slot from then on. -/
def Claimable (s : Slots) (id : String) (moves : List (Instant × Move)) : Prop :=
  ∃ before since, moves = before ++ since ∧ publications id since ≠ [] ∧
    (s.run before).removals id since = []

instance (s : Slots) (id : String) (moves : List (Instant × Move)) : Decidable (s.Reaches id moves) :=
  decidable_of_iff (∃ before ∈ moves.inits, publications id before ≠ [] ∧ s.removals id before = []) (by
    simp only [Reaches, List.mem_inits])

instance (s : Slots) (id : String) (moves : List (Instant × Move)) : Decidable (s.Claimable id moves) :=
  decidable_of_iff (∃ before ∈ moves.inits, publications id (moves.drop before.length) ≠ [] ∧
      (s.run before).removals id (moves.drop before.length) = []) (by
    constructor
    · rintro ⟨before, hbefore, h⟩
      obtain ⟨since, rfl⟩ := (List.mem_inits ..).mp hbefore
      rw [List.drop_left] at h
      exact ⟨before, since, rfl, h⟩
    · rintro ⟨before, since, rfl, h⟩
      refine ⟨before, (List.mem_inits ..).mpr (List.prefix_append ..), ?_⟩
      rw [List.drop_left]
      exact h)

variable {s : Slots} {id : String} {moves : List (Instant × Move)} {now : Instant} {move : Move}

theorem publications_singleton_ne_nil :
    publications id [(now, move)] ≠ [] ↔ ∃ proof, move = .publish id proof := by
  constructor
  · intro h
    by_contra hne
    exact h (publications_cons_of_ne (fun proof heq => hne ⟨proof, heq⟩) now [])
  · rintro ⟨proof, rfl⟩
    simp [publications]

theorem Reaches.publications_ne_nil (h : s.Reaches id moves) : publications id moves ≠ [] := by
  obtain ⟨before, hprefix, hpublished, -⟩ := h
  exact publications_ne_nil_of_infix hprefix.isInfix hpublished

theorem reaches_concat : s.Reaches id (moves ++ [(now, move)]) ↔
    s.Reaches id moves ∨ s.removals id moves = [] ∧ (s.run moves).removes? now move ≠ some id ∧
      ∃ proof, move = .publish id proof := by
  constructor
  · rintro ⟨before, hprefix, hpublished, hremovals⟩
    rcases List.prefix_concat_iff.mp hprefix with rfl | hprefix
    · rw [removals_concat_eq_nil] at hremovals
      by_cases hbefore : publications id moves = []
      · rw [publications_append, hbefore, List.nil_append, publications_singleton_ne_nil] at hpublished
        exact .inr ⟨hremovals.1, hremovals.2, hpublished⟩
      · exact .inl ⟨moves, List.prefix_rfl, hbefore, hremovals.1⟩
    · exact .inl ⟨before, hprefix, hpublished, hremovals⟩
  · rintro (⟨before, hprefix, hpublished, hremovals⟩ | ⟨hremovals, hkept, hpublish⟩)
    · exact ⟨before, hprefix.trans (List.prefix_append ..), hpublished, hremovals⟩
    · refine ⟨_, List.prefix_rfl, ?_, ?_⟩
      · exact publications_ne_nil_of_infix (List.suffix_append ..).isInfix
          (publications_singleton_ne_nil.mpr hpublish)
      · exact removals_concat_eq_nil.mpr ⟨hremovals, hkept⟩

theorem claimable_concat : s.Claimable id (moves ++ [(now, move)]) ↔
    (s.run moves).removes? now move ≠ some id ∧
      ((∃ proof, move = .publish id proof) ∨ s.Claimable id moves) := by
  constructor
  · rintro ⟨before, since, heq, hpublished, hremovals⟩
    rcases List.eq_nil_or_concat since with rfl | ⟨rest, last, rfl⟩
    · exact absurd rfl hpublished
    · rw [List.concat_eq_append, ← List.append_assoc] at heq
      obtain ⟨rfl, hlast⟩ := List.append_inj' heq rfl
      cases hlast
      rw [List.concat_eq_append, removals_concat_eq_nil, ← run_append] at hremovals
      refine ⟨hremovals.2, ?_⟩
      by_cases hrest : publications id rest = []
      · rw [List.concat_eq_append, publications_append, hrest, List.nil_append,
          publications_singleton_ne_nil] at hpublished
        exact .inl hpublished
      · exact .inr ⟨before, rest, rfl, hrest, hremovals.1⟩
  · rintro ⟨hkept, hpublish | ⟨before, since, rfl, hpublished, hremovals⟩⟩
    · exact ⟨moves, _, rfl, publications_singleton_ne_nil.mpr hpublish, removals_singleton_eq_nil.mpr hkept⟩
    · refine ⟨before, since ++ [(now, move)], List.append_assoc .., ?_, ?_⟩
      · exact publications_ne_nil_of_infix (List.prefix_append ..).isInfix hpublished
      · rw [removals_concat_eq_nil, ← run_append]
        exact ⟨hremovals, hkept⟩

/-! ## What is held -/

variable {text : String}

/-- **A slot holds the proof** as long as a publication can be claimed, and no longer. -/
theorem held?_run (htext : ∀ t proof, (t, .publish id proof) ∈ moves → proof = text) :
    (empty.Claimable id moves → (empty.run moves).held? id = some (some text)) ∧
      (¬ empty.Claimable id moves → ((empty.run moves).held? id).join = none) := by
  induction moves using List.reverseRecOn with
  | nil =>
    refine ⟨?_, fun _ => rfl⟩
    rintro ⟨before, since, heq, hpublished, -⟩
    rw [(List.append_eq_nil_iff.mp heq.symm).2] at hpublished
    exact absurd rfl hpublished
  | append_singleton moves e ih =>
    obtain ⟨now, move⟩ := e
    obtain ⟨ihheld, ihnot⟩ := ih fun t proof hmem => htext t proof (List.mem_append_left _ hmem)
    rw [run_concat, held?_step, claimable_concat]
    by_cases hremoves : (empty.run moves).removes? now move = some id
    · rw [if_pos hremoves]
      exact ⟨fun h => absurd hremoves h.1, fun _ => rfl⟩
    rw [if_neg hremoves]
    cases move with
    | subscribe k =>
      by_cases hk : id = k
      · subst hk
        simp only [ne_eq, hremoves, not_false_eq_true, true_and, reduceCtorEq, exists_false, false_or, if_true]
        refine ⟨fun h => ?_, ihnot⟩
        rw [ihheld h]
        rfl
      · simpa [hremoves, hk] using ⟨ihheld, ihnot⟩
    | publish k proof =>
      by_cases hk : id = k
      · subst hk
        obtain rfl : proof = text := htext now proof (by simp)
        simp [hremoves]
      · simpa [hremoves, hk, Ne.symm hk] using ⟨ihheld, ihnot⟩
    | poll | leave | lapse => simpa [hremoves] using ⟨ihheld, ihnot⟩

/-! ## What a subscriber that stays has -/

variable {number : Nat} {sub sub' : Subscriber}

theorem delivery_of_proof (hs : s.subscriber? number = some sub) (hproof : sub.proof = some text) :
    s.delivery number = .proof text := by
  simp [delivery, hs, hproof]

theorem delivery_of_no_proof (hs : s.subscriber? number = some sub) (hproof : sub.proof = none) :
    s.delivery number = if sub.attached then .pending else .proof "" := by
  cases hatt : sub.attached <;> simp [delivery, hs, hproof, hatt]

/-- One who is there after a move was there before, unless its number was still to be given. -/
theorem exists_of_subscriber?_step (hn : number < s.nextNumber)
    (h : (s.step now move).subscriber? number = some sub') :
    ∃ sub, s.subscriber? number = some sub ∧ s.parting? move ≠ some number ∧
      sub' = sub.after (s.removes? now move) move := by
  obtain ⟨sub, hsub, -⟩ := (keepsIds_step s now move).ids number hn sub' h
  have hstays : s.parting? move ≠ some number := by
    intro hp
    rw [subscriber?_step_of_parting hp] at h
    cases h
  rw [subscriber?_step hsub hstays] at h
  exact ⟨sub, hsub, hstays, (Option.some.inj h).symm⟩

/-- **A subscriber that is still there** keeps its slot until this is removed, and has the proof if the id was
published before. -/
theorem subscriber?_run (hn : number < s.nextNumber) (hs : s.subscriber? number = some sub)
    (hatt : sub.attached = true) (hstays : (s.run moves).subscriber? number = some sub')
    (htext : ∀ t proof, (t, .publish sub.id proof) ∈ moves → proof = text) :
    sub'.id = sub.id ∧ (sub'.attached = true ↔ s.removals sub.id moves = []) ∧
      (s.Reaches sub.id moves → sub'.proof = some text) ∧
      (¬ s.Reaches sub.id moves → sub'.proof = sub.proof) := by
  induction moves using List.reverseRecOn generalizing sub' with
  | nil =>
    have hsame : s.subscriber? number = some sub' := hstays
    rw [hs] at hsame
    cases hsame
    refine ⟨rfl, by simp [hatt, removals, moments], ?_, fun _ => rfl⟩
    rintro ⟨before, hprefix, hpublished, -⟩
    rw [List.prefix_nil.mp hprefix] at hpublished
    exact absurd rfl hpublished
  | append_singleton moves e ih =>
    obtain ⟨now, move⟩ := e
    rw [run_concat] at hstays
    have hn' : number < (s.run moves).nextNumber := Nat.lt_of_lt_of_le hn (keepsIds_run s moves).nextNumber
    obtain ⟨mid, hmid, -, rfl⟩ := exists_of_subscriber?_step hn' hstays
    obtain ⟨hid, hattached, hreached, hunreached⟩ :=
      ih hmid fun t proof hmem => htext t proof (List.mem_append_left _ hmem)
    have hmidatt : (mid.after ((s.run moves).removes? now move) move).attached = true ↔
        s.removals sub.id moves = [] ∧ (s.run moves).removes? now move ≠ some sub.id := by
      rw [Subscriber.attached_after, hattached, hid]
    refine ⟨(mid.id_after ..).trans hid, ?_, ?_⟩
    · rw [hmidatt, removals_concat_eq_nil]
    rw [reaches_concat]
    by_cases hpublish : s.removals sub.id moves = [] ∧ (s.run moves).removes? now move ≠ some sub.id ∧
        ∃ proof, move = .publish sub.id proof
    · -- the proof is published to the slot of this subscriber
      obtain ⟨hremovals, hkept, proof, rfl⟩ := hpublish
      refine ⟨fun _ => ?_, fun h => absurd (.inr ⟨hremovals, hkept, proof, rfl⟩) h⟩
      rw [← htext now proof (by simp), ← hid]
      exact Subscriber.proof_after_publish (hattached.mpr hremovals) (hid ▸ hkept) proof
    · -- it has what it had
      have hsame : (mid.after ((s.run moves).removes? now move) move).proof = mid.proof := by
        by_cases hmove : ∃ proof, move = .publish sub.id proof
        · refine Subscriber.proof_after_detached ?_ move
          rw [hattached, hid]
          exact fun h => hpublish ⟨h.1, h.2, hmove⟩
        · refine Subscriber.proof_after_of_ne ?_ _
          rw [hid]
          exact fun proof heq => hmove ⟨proof, heq⟩
      rw [hsame]
      exact ⟨fun h => hreached (h.resolve_right hpublish), fun h => hunreached fun hr => h (.inl hr)⟩

/-- **What one who has subscribed gets,** if it is still there: the proof, if a publication could be claimed or
the id is published before the slot is removed; else an empty proof, if the slot is removed; else it waits. -/
theorem delivery_of_subscribed {earlier since : List (Instant × Move)}
    (htext : ∀ t proof, (t, .publish id proof) ∈ earlier ++ since → proof = text)
    (hstays : (((empty.run earlier).subscribe id).2.run since).subscriber? (empty.run earlier).nextNumber ≠ none) :
    let s := ((empty.run earlier).subscribe id).2
    let delivery := (s.run since).delivery (empty.run earlier).nextNumber
    (empty.Claimable id earlier ∨ s.Reaches id since → delivery = .proof text) ∧
      (¬ (empty.Claimable id earlier ∨ s.Reaches id since) →
        delivery = if s.removals id since = [] then .pending else .proof "") := by
  intro s delivery
  have hs := subscriber?_subscribe_run earlier id
  obtain ⟨sub, hsub⟩ := Option.ne_none_iff_exists'.mp hstays
  obtain ⟨-, hattached, hreached, hunreached⟩ := subscriber?_run (Nat.lt_succ_self _) hs rfl hsub
    fun t proof hmem => htext t proof (List.mem_append_right _ hmem)
  obtain ⟨hclaimable, hunclaimable⟩ := held?_run fun t proof hmem => htext t proof (List.mem_append_left _ hmem)
  refine ⟨fun h => ?_, fun h => ?_⟩
  · have hproof : sub.proof = some text := by
      by_cases hr : s.Reaches id since
      · exact hreached hr
      · rw [hunreached hr, hclaimable (h.resolve_right hr)]
        rfl
    exact delivery_of_proof hsub hproof
  · have hproof : sub.proof = none := by
      rw [hunreached fun hr => h (.inr hr)]
      exact hunclaimable fun hc => h (.inl hc)
    have hdelivery : delivery = if sub.attached then .pending else .proof "" := delivery_of_no_proof hsub hproof
    rw [hdelivery]
    exact if_congr hattached rfl rfl

end Slots

/-! ## Provers -/

namespace Prover

open Slots (publications retention)

/-- The event that pushes the proof of an id. -/
def proofEvent (id : String) : Bytes :=
  Utf8.encode (EventStream.frame (notaryPubKey ++ "|proof-for-" ++ id))

/-- The event that is sent when a slot went away without a proof. -/
def emptyEvent : Bytes := Utf8.encode (EventStream.frame "")

theorem proofEvent_ne (id : String) : proofEvent id ≠ emptyEvent := by
  have hraw : notaryPubKey ++ "|proof-for-" ++ id ≠ "" := by
    rw [← raw_payloadFor]
    exact Payload.raw_ofParts_ne_empty notaryPubKey (proofFor id)
  exact EventStream.encode_frame_ne hraw

theorem held?_iff (mode : ProofMode) (moves : List (Instant × Move)) (id : String) :
    (({ mode } : Prover).run moves).slots.held? id = some (some (notaryPubKey ++ "|proof-for-" ++ id)) ↔
      Slots.empty.Claimable id (({ mode } : Prover).history moves) := by
  have htext : ∀ t proof, (t, .publish id proof) ∈ ({ mode } : Prover).history moves →
      proof = notaryPubKey ++ "|proof-for-" ++ id := fun _ _ hmem => eq_of_publish_mem_history hmem
  obtain ⟨hclaimable, hunclaimable⟩ := Slots.held?_run htext
  rw [slots_run_start]
  refine ⟨fun hheld => ?_, hclaimable⟩
  by_contra hnot
  have hnone := hunclaimable hnot
  rw [hheld] at hnone
  cases hnone

section
variable {mode : ProofMode} {before later : List (Instant × Move)} {asked : Instant} {method : Http.Method}
  {path : String} {headers : Http.Headers} {body : Bytes} {number : Nat} {id : String}

/-- What is read from a stream whose subscriber is still there. -/
theorem polled_of_stream :
    let p := ({ mode } : Prover).run before
    let q := p.step asked (.request method path headers body)
    let reached := Slots.empty.Claimable id (({ mode } : Prover).history before) ∨
      q.slots.Reaches id (q.history later)
    (p.handle asked method path headers body).1.body = .proof number → awaited? path = some id →
    (q.run later).slots.subscriber? number ≠ none →
      (reached → ((q.run later).poll (.proof number)).1 = .data (proofEvent id)) ∧
        (¬ reached → ((q.run later).poll (.proof number)).1 =
          if q.slots.removals id (q.history later) = [] then .pending else .data emptyEvent) := by
  intro p q reached hstream hid hstays
  obtain ⟨rfl, hq⟩ := slots_of_stream hstream hid
  have hp : p.slots = Slots.empty.run (({ mode } : Prover).history before) := slots_run_start mode before
  have hq' : q.slots = ((Slots.empty.run (({ mode } : Prover).history before)).subscribe id).2 := by
    rw [← hp, ← hq]
  have htext : ∀ t proof, (t, .publish id proof) ∈ ({ mode } : Prover).history before ++ q.history later →
      proof = notaryPubKey ++ "|proof-for-" ++ id := by
    intro t proof hmem
    rcases List.mem_append.mp hmem with hmem | hmem
    · exact eq_of_publish_mem_history hmem
    · exact eq_of_publish_mem_history hmem
  rw [slots_run, hp, hq'] at hstays
  obtain ⟨hreached, hunreached⟩ := Slots.delivery_of_subscribed htext hstays
  rw [poll_fst, slots_run, hp, hq']
  refine ⟨fun h => ?_, fun h => ?_⟩
  · rw [hreached (hq' ▸ h)]
    rfl
  · rw [hunreached (hq' ▸ h)]
    split <;> rfl

/-- **Who disturbs whom.**  One who waits for the proof of an id and is still there is sent an empty event exactly
if the slot of the id is removed before the id is published, whoever removed it, and it is sent the proof exactly
if the id is published before; and a publication can be claimed exactly as long as nothing removes the slot of
its id. -/
theorem undisturbed_until_removed :
    let p : Prover := Prover.run { mode } before
    let q := p.step asked (.request method path headers body)
    let reached := Slots.empty.Claimable id (({ mode } : Prover).history before) ∨
      q.slots.Reaches id (q.history later)
    let polled := ((q.run later).poll (.proof number)).1
    ((p.handle asked method path headers body).1.body = .proof number → awaited? path = some id →
      (q.run later).slots.subscriber? number ≠ none →
        (polled = .data (proofEvent id) ↔ reached) ∧
        (polled = .data emptyEvent ↔ ¬ reached ∧ q.slots.removals id (q.history later) ≠ []) ∧
        (polled = .pending ↔ ¬ reached ∧ q.slots.removals id (q.history later) = [])) ∧
      ∀ moves k, (({ mode } : Prover).run moves).slots.held? k =
          some (some (notaryPubKey ++ "|proof-for-" ++ k)) ↔
        Slots.empty.Claimable k (({ mode } : Prover).history moves) := by
  intro p q reached polled
  refine ⟨fun hstream hid hstays => ?_, held?_iff mode⟩
  obtain ⟨hreached, hunreached⟩ := polled_of_stream hstream hid hstays
  by_cases h : reached
  · have hpolled : polled = .data (proofEvent id) := hreached h
    simp [hpolled, h, proofEvent_ne]
  · have hpolled : polled = if q.slots.removals id (q.history later) = [] then .pending else .data emptyEvent :=
      hunreached h
    rw [hpolled]
    split
    · next hremovals => simp [hremovals, h]
    · next hremovals => simp [hremovals, h, Ne.symm (proofEvent_ne id)]

end

/-- Two wait for one proof, and the first goes away before it is published. -/
theorem undisturbed_until_removed_of_departure :
    let headers := (Http.Headers.empty.append .requestId (.ofText "a")).append .proxyUrl (.ofText "http://t/")
    let p := ({ mode := .prove } : Prover).run [(0, .request .get "/proof/a" .empty [])]
    let q := p.step 5 (.request .get "/proof/a" .empty [])
    let later := [(10, Move.drop 0), (20, .request .post "/proxy" headers [])]
    (p.handle 5 .get "/proof/a" .empty []).1.body = .proof 1 ∧ awaited? "/proof/a" = some "a" ∧
      (q.run later).slots.subscriber? 1 ≠ none ∧ publications "a" (q.history later) = [20] ∧
      ((q.run later).poll (.proof 1)).1 = .data emptyEvent := by
  intro headers p q later
  have hstream : (p.handle 5 .get "/proof/a" .empty []).1.body = .proof 1 := by decide +kernel
  have hid : awaited? "/proof/a" = some "a" := by decide +kernel
  have hstays : (q.run later).slots.subscriber? 1 ≠ none := by decide +kernel
  have hlaw := undisturbed_until_removed.1 hstream hid hstays
  refine ⟨hstream, hid, hstays, by decide +kernel, hlaw.2.1.mpr ⟨?_, ?_⟩⟩
  · decide +kernel
  · decide +kernel

/-- One who waits is sent an empty event, and not the proof that is published while it waits, because another
went away; and a publication cannot be claimed before its time is over, because an earlier one has ended. -/
theorem others_disturb :
    let headers := (Http.Headers.empty.append .requestId (.ofText "a")).append .proxyUrl (.ofText "http://t/")
    let wait := Move.request .get "/proof/a" .empty []
    let publish := Move.request .post "/proxy" headers []
    (let start := ({ mode := .prove } : Prover).run [(0, wait), (0, wait)]
      let p := start.run [(10, .drop 0), (20, publish)]
      (p.slots.subscriber? 1).map (·.id) = some "a" ∧
        publications "a" (start.history [(10, .drop 0), (20, publish)]) = [20] ∧
        (p.poll (.proof 1)).1 = .data emptyEvent ∧ emptyEvent ≠ proofEvent "a") ∧
      let moves := [(0, publish), (20000, publish), (30000, .lapse 0)]
      let p := ({ mode := .prove } : Prover).run moves
      publications "a" (({ mode := .prove } : Prover).history moves) = [0, 20000] ∧
        p.slots.retained.entries = [(20000 + retention, "a")] ∧ p.slots.held? "a" = none := by
  decide +kernel

end Prover
end ProofRelay
