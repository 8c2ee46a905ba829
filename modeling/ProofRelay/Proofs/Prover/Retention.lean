import Mathlib.Data.List.Induction
import Mathlib.Data.List.TakeWhile
import ProofRelay.Proofs.Prover.Removal

/-!
Slots and retentions over a whole history.  Each publication begins a retention, and each retention that ends
was begun (`retentions_run`), not before its time (`le_of_mem_lapses`).  Slots are made by subscribers and
publications, and they are removed by the same: so a slot that is there has a subscriber that is not gone, or a
publication of its id whose retention has not ended (`kept_run`).
-/

namespace ProofRelay.Slots

/-! ## What a history tells of an id -/

/-- The moments at which the proof of an id is published. -/
def publications (id : String) (moves : List (Instant × Move)) : List Instant :=
  moves.filterMap fun
    | (now, .publish k _) => if k = id then some now else none
    | _ => none

/-- The moments at which somebody subscribes to the proof of an id. -/
def subscriptions (id : String) (moves : List (Instant × Move)) : List Instant :=
  moves.filterMap fun
    | (now, .subscribe k) => if k = id then some now else none
    | _ => none

/-- The moments of the moves that do something to an id. -/
def moments (does : Slots → Instant → Move → Option String) (id : String) :
    Slots → List (Instant × Move) → List Instant
  | _, [] => []
  | s, (now, move) :: later =>
    (if does s now move = some id then [now] else []) ++ moments does id (s.step now move) later

/-- The moments at which the retention of a publication of an id ends. -/
def lapses (s : Slots) (id : String) (moves : List (Instant × Move)) : List Instant :=
  moments lapses? id s moves

/-- The moments at which the slot of an id is removed. -/
def removals (s : Slots) (id : String) (moves : List (Instant × Move)) : List Instant :=
  moments removes? id s moves

theorem publications_append (id : String) (as bs : List (Instant × Move)) :
    publications id (as ++ bs) = publications id as ++ publications id bs := List.filterMap_append ..

theorem publications_ne_nil_of_infix {id : String} {part moves : List (Instant × Move)} (h : part <:+: moves)
    (hpart : publications id part ≠ []) : publications id moves ≠ [] := by
  intro hnone
  have hpublished : publications id part <:+: publications id moves := h.filterMap _
  rw [hnone] at hpublished
  exact hpart (List.infix_nil.mp hpublished)

theorem subscriptions_append (id : String) (as bs : List (Instant × Move)) :
    subscriptions id (as ++ bs) = subscriptions id as ++ subscriptions id bs := List.filterMap_append ..

theorem publications_cons_of_ne {id : String} {move : Move} (h : ∀ proof, move ≠ .publish id proof)
    (now : Instant) (later : List (Instant × Move)) :
    publications id ((now, move) :: later) = publications id later := by
  cases move with
  | publish k proof =>
    have hne : k ≠ id := by
      rintro rfl
      exact h proof rfl
    simp [publications, hne]
  | subscribe | poll | leave | lapse => rfl

theorem subscriptions_cons_subscribe (now : Instant) (id : String) (later : List (Instant × Move)) :
    subscriptions id ((now, .subscribe id) :: later) = now :: subscriptions id later := by
  simp [subscriptions]

theorem moments_append (does : Slots → Instant → Move → Option String) (id : String) (s : Slots)
    (as bs : List (Instant × Move)) :
    moments does id s (as ++ bs) = moments does id s as ++ moments does id (s.run as) bs := by
  induction as generalizing s with
  | nil => rfl
  | cons e later ih =>
    obtain ⟨now, move⟩ := e
    rw [List.cons_append, moments, moments, ih, run_cons, List.append_assoc]

theorem lapses_append (s : Slots) (id : String) (as bs : List (Instant × Move)) :
    s.lapses id (as ++ bs) = s.lapses id as ++ (s.run as).lapses id bs := moments_append ..

theorem removals_append (s : Slots) (id : String) (as bs : List (Instant × Move)) :
    s.removals id (as ++ bs) = s.removals id as ++ (s.run as).removals id bs := moments_append ..

theorem removals_singleton_eq_nil {s : Slots} {id : String} {now : Instant} {move : Move} :
    s.removals id [(now, move)] = [] ↔ s.removes? now move ≠ some id := by
  simp [removals, moments]

theorem removals_concat_eq_nil {s : Slots} {id : String} {moves : List (Instant × Move)} {now : Instant}
    {move : Move} :
    s.removals id (moves ++ [(now, move)]) = [] ↔
      s.removals id moves = [] ∧ (s.run moves).removes? now move ≠ some id := by
  rw [removals_append, List.append_eq_nil_iff, removals_singleton_eq_nil]

/-! ## Retentions -/

/-- The number of publications of an id whose retention has not ended. -/
def retentions (s : Slots) (id : String) : Nat := s.retained.entries.countP fun (_, k) => k = id

theorem retentions_eq_zero_iff {s : Slots} {id : String} :
    s.retentions id = 0 ↔ ∀ due, (due, id) ∉ s.retained.entries := by
  rw [retentions, List.countP_eq_zero]
  constructor
  · intro h due hmem
    exact h (due, id) hmem (by simp)
  · rintro h ⟨due, k⟩ hmem hk
    have hid : k = id := by simpa using hk
    subst hid
    exact h due hmem

/-- What one move does to the number of retentions. -/
theorem retentions_step (s : Slots) (id : String) (now : Instant) (move : Move) :
    (s.step now move).retentions id + (s.lapses id [(now, move)]).length =
      s.retentions id + (publications id [(now, move)]).length := by
  have hlapses : s.lapses id [(now, move)] = if s.lapses? now move = some id then [now] else [] := by
    simp [lapses, moments]
  unfold retentions
  rw [hlapses]
  rcases retained_step s now move with ⟨k, proof, rfl, hperm⟩ | ⟨k, due, hk, -, hperm⟩ | ⟨hmove, hnone, heq⟩
  · rw [hperm.countP_eq, List.countP_cons]
    have hnone : s.lapses? now (.publish k proof) = none := rfl
    rw [hnone]
    by_cases hid : k = id
    · simp [hid, publications]
    · simp [hid, publications]
  · rw [hperm.countP_eq, List.countP_cons, hk]
    have hpub : publications id [(now, move)] = [] := by
      rw [publications_cons_of_ne]
      · rfl
      · rintro proof rfl
        cases hk
    by_cases hid : k = id
    · simp [hid, hpub]
    · simp [hid, hpub]
  · have hpub : publications id [(now, move)] = [] := publications_cons_of_ne (hmove id) now []
    rw [heq, hnone, hpub]
    simp

/-- **Retentions over a history:** those that were there or have begun are still there or have ended. -/
theorem retentions_run (s : Slots) (id : String) (moves : List (Instant × Move)) :
    (s.run moves).retentions id + (s.lapses id moves).length =
      s.retentions id + (publications id moves).length := by
  induction moves generalizing s with
  | nil => rfl
  | cons e later ih =>
    obtain ⟨now, move⟩ := e
    have hstep := retentions_step s id now move
    have hlater := ih (s.step now move)
    have hsplit : (now, move) :: later = [(now, move)] ++ later := rfl
    have hrun : s.run [(now, move)] = s.step now move := rfl
    rw [hsplit, run_append, lapses_append, publications_append, List.length_append, List.length_append, hrun]
    omega

/-- What has begun in a history has ended or is still there. -/
theorem retentions_run_empty (id : String) (moves : List (Instant × Move)) :
    (empty.run moves).retentions id + (empty.lapses id moves).length = (publications id moves).length := by
  have hrun := retentions_run empty id moves
  have hempty : empty.retentions id = 0 := rfl
  omega

/-- A retention that has not ended was begun by a publication of its id. -/
theorem exists_of_mem_retained {moves : List (Instant × Move)} {due : Instant} {id : String}
    (h : (due, id) ∈ (empty.run moves).retained.entries) :
    ∃ began ∈ publications id moves, due = began + retention := by
  induction moves using List.reverseRecOn with
  | nil => cases h
  | append_singleton moves e ih =>
    obtain ⟨now, move⟩ := e
    rw [run_concat] at h
    rw [publications_append]
    have hbefore : (due, id) ∈ (empty.run moves).retained.entries →
        ∃ began ∈ publications id moves ++ publications id [(now, move)], due = began + retention := by
      intro hmem
      obtain ⟨began, hbegan, hdue⟩ := ih hmem
      exact ⟨began, List.mem_append_left _ hbegan, hdue⟩
    rcases retained_step (empty.run moves) now move with
      ⟨k, proof, rfl, hperm⟩ | ⟨k, _, -, -, hperm⟩ | ⟨-, -, heq⟩
    · rcases List.mem_cons.mp (hperm.mem_iff.mp h) with hnew | hmem
      · cases hnew
        exact ⟨now, by simp [publications], rfl⟩
      · exact hbefore hmem
    · exact hbefore (hperm.mem_iff.mpr (List.mem_cons_of_mem _ h))
    · refine hbefore ?_
      rw [← heq]
      exact h

/-- No retention ends before its time. -/
theorem le_of_mem_lapses {moves : List (Instant × Move)} {id : String} {ended : Instant}
    (h : ended ∈ empty.lapses id moves) : ∃ began ∈ publications id moves, began + retention ≤ ended := by
  induction moves using List.reverseRecOn with
  | nil => cases h
  | append_singleton moves e ih =>
    obtain ⟨now, move⟩ := e
    rw [lapses_append] at h
    rw [publications_append]
    rcases List.mem_append.mp h with hmem | hmem
    · obtain ⟨began, hbegan, hle⟩ := ih hmem
      exact ⟨began, List.mem_append_left _ hbegan, hle⟩
    · simp only [lapses, moments, List.append_nil] at hmem
      split at hmem
      · next hlapses =>
        obtain rfl := List.mem_singleton.mp hmem
        obtain ⟨due, hdue, hmem⟩ := exists_of_lapses? hlapses
        obtain ⟨began, hbegan, rfl⟩ := exists_of_mem_retained hmem
        exact ⟨began, List.mem_append_left _ hbegan, hdue⟩
      · cases hmem

/-! ## Who keeps a slot -/

/-- Somebody keeps the slot of an id: a subscriber that is not gone, or a publication whose retention has not
ended. -/
def Kept (s : Slots) (id : String) : Prop :=
  (∃ number sub, s.subscriber? number = some sub ∧ sub.id = id) ∨ ∃ due, (due, id) ∈ s.retained.entries

/-- Whoever keeps a slot does so until it is removed. -/
theorem Kept.step {s : Slots} {id : String} (h : s.Kept id) {now : Instant} {move : Move}
    (hremoves : s.removes? now move ≠ some id) : (s.step now move).Kept id := by
  rcases h with ⟨number, sub, hsub, rfl⟩ | ⟨due, hdue⟩
  · have hstays : s.parting? move ≠ some number := fun hp => hremoves (removes?_of_parting hp hsub)
    exact .inl ⟨number, _, subscriber?_step hsub hstays, Subscriber.id_after ..⟩
  · refine .inr ⟨due, ?_⟩
    rcases retained_step s now move with ⟨k, proof, -, hperm⟩ | ⟨k, _, hk, -, hperm⟩ | ⟨-, -, heq⟩
    · exact hperm.mem_iff.mpr (List.mem_cons_of_mem _ hdue)
    · rcases List.mem_cons.mp (hperm.mem_iff.mp hdue) with hended | hmem
      · cases hended
        exact absurd (removes?_eq_some_iff.mpr (.inl hk)) hremoves
      · exact hmem
    · rw [heq]
      exact hdue

/-- A slot that is there after a move was not removed, and it was there before or was made by the move. -/
theorem has_step {s : Slots} {id : String} {now : Instant} {move : Move} (h : (s.step now move).has id = true) :
    s.removes? now move ≠ some id ∧
      (move = .subscribe id ∨ (∃ proof, move = .publish id proof) ∨ s.has id = true) := by
  rw [has, held?_step] at h
  split at h
  · cases h
  · next hremoves =>
    refine ⟨hremoves, ?_⟩
    cases move with
    | subscribe k =>
      by_cases hk : id = k
      · exact .inl (by rw [hk])
      · exact .inr (.inr (by simpa [has, hk] using h))
    | publish k proof =>
      by_cases hk : id = k
      · exact .inr (.inl ⟨proof, by rw [hk]⟩)
      · exact .inr (.inr (by simpa [has, hk] using h))
    | poll | leave | lapse => exact .inr (.inr h)

/-- **Every slot is kept by somebody,** whatever happens to slots. -/
theorem kept_run {moves : List (Instant × Move)} {id : String} (h : (empty.run moves).has id = true) :
    (empty.run moves).Kept id := by
  induction moves using List.reverseRecOn with
  | nil => cases h
  | append_singleton moves e ih =>
    obtain ⟨now, move⟩ := e
    rw [run_concat] at h ⊢
    obtain ⟨hremoves, rfl | ⟨proof, rfl⟩ | hhas⟩ := has_step h
    · exact .inl ⟨_, _, subscriber?_subscribe_run moves id, rfl⟩
    · exact .inr ⟨now + retention, (insert_perm ..).mem_iff.mpr List.mem_cons_self⟩
    · exact (ih hhas).step hremoves

/-! ## When nobody is left -/

/-- Who is not there comes by subscribing only. -/
theorem subscriber?_run_of_none {s : Slots} {number : Nat} {moves : List (Instant × Move)}
    (h : s.subscriber? number = none) (hmoves : ∀ e ∈ moves, ∀ id, e.2 ≠ .subscribe id) :
    (s.run moves).subscriber? number = none := by
  induction moves generalizing s with
  | nil => exact h
  | cons e later ih =>
    obtain ⟨now, move⟩ := e
    have hstep : (s.step now move).subscriber? number = none :=
      subscriber?_step_of_none h (hmoves _ List.mem_cons_self)
    exact ih hstep fun e he => hmoves e (List.mem_cons_of_mem _ he)

theorem retained_expire (s : Slots) (now : Instant) : (s.expire now).retained = s.retained.after now := by
  have hforget : ∀ (ids : List String) (s : Slots), (ids.foldl forget s).retained = s.retained := by
    intro ids
    induction ids with
    | nil => intro s; rfl
    | cons id ids ih =>
      intro s
      rw [List.foldl_cons, ih]
      rfl
  exact hforget ..

theorem entries_eq_nil_of_not_kept {moves : List (Instant × Move)}
    (h : ∀ id, ¬(empty.run moves).Kept id) : (empty.run moves).entries = [] := by
  by_contra hne
  obtain ⟨⟨id, proof⟩, rest, hentries⟩ := List.exists_cons_of_ne_nil hne
  exact h id (kept_run (by simp [has, held?, hentries]))

/-- **Nothing is left** when there are no subscribers and every publication's retention has ended. -/
theorem entries_eq_nil {moves : List (Instant × Move)} (hsubscribers : (empty.run moves).subscribers = [])
    (hended : ∀ id, (empty.lapses id moves).length = (publications id moves).length) :
    (empty.run moves).entries = [] := by
  refine entries_eq_nil_of_not_kept fun id => ?_
  rintro (⟨number, sub, hsub, -⟩ | ⟨due, hdue⟩)
  · rw [subscriber?, hsubscribers] at hsub
    cases hsub
  · have hnone : (empty.run moves).retentions id = 0 := by
      have hrun := retentions_run_empty id moves
      rw [hended id] at hrun
      omega
    exact retentions_eq_zero_iff.mp hnone due hdue

/-- **Nothing is left** when there are no subscribers and all retentions end whose time has come, if this is so
for all. -/
theorem entries_expire_eq_nil {moves : List (Instant × Move)} {now : Instant}
    (hsubscribers : (empty.run moves).subscribers = [])
    (hover : ∀ id, ∀ began ∈ publications id moves, began + retention ≤ now) :
    ((empty.run moves).expire now).entries = [] := by
  have hlapses := expire_eq_run (empty.run moves) now
  rw [hlapses, ← run_append]
  refine entries_eq_nil_of_not_kept fun id => ?_
  rintro (⟨number, sub, hsub, -⟩ | ⟨due, hdue⟩)
  · have hnone : (empty.run moves).subscriber? number = none := by rw [subscriber?, hsubscribers]; rfl
    rw [run_append, subscriber?_run_of_none hnone] at hsub
    · cases hsub
    · intro e he
      rw [(List.mem_replicate.mp he).2]
      rintro _ ⟨⟩
  · rw [run_append, ← hlapses, retained_expire] at hdue
    have hafter : (empty.run moves).retained.after now = ⟨[]⟩ := by
      rw [Agenda.after, Agenda.mk.injEq, List.dropWhile_eq_nil_iff]
      rintro ⟨due, id⟩ hmem
      obtain ⟨began, hbegan, rfl⟩ := exists_of_mem_retained hmem
      simpa using hover id began hbegan
    rw [hafter] at hdue
    cases hdue

end ProofRelay.Slots
