import Mathlib.Data.List.Perm.Basic
import ProofRelay.Prover.Slots

/-!
Where the proofs in slots come from.  Slots are shared by all ids, and whatever happens to them in any
order, a proof that is held for an id, in a slot or by a subscriber, is one that was published under
this id (`Origin`), and a subscriber keeps its id for as long as it is there (`KeepsIds`).
-/

namespace ProofRelay.Slots

/-- Every proof that is held for an id may be published under it, and no subscriber has a number that is
still to be given. -/
structure Origin (published : String → String → Prop) (s : Slots) : Prop where
  numbers : ∀ number sub, (number, sub) ∈ s.subscribers → number < s.nextNumber
  entries : ∀ id proof, (id, some proof) ∈ s.entries → published id proof
  subscribers : ∀ number sub proof, (number, sub) ∈ s.subscribers → sub.proof = some proof →
    published sub.id proof

/-- Numbers are given once, and the subscribers that are still there have the ids that they had. -/
structure KeepsIds (s s' : Slots) : Prop where
  nextNumber : s.nextNumber ≤ s'.nextNumber
  ids : ∀ number, number < s.nextNumber → ∀ sub', s'.subscriber? number = some sub' →
    ∃ sub, s.subscriber? number = some sub ∧ sub'.id = sub.id

namespace KeepsIds

variable {s s' s'' : Slots}

theorem refl (s : Slots) : s.KeepsIds s := ⟨Nat.le_refl _, fun _ _ sub h => ⟨sub, h, rfl⟩⟩

theorem trans (h : s.KeepsIds s') (h' : s'.KeepsIds s'') : s.KeepsIds s'' where
  nextNumber := Nat.le_trans h.nextNumber h'.nextNumber
  ids number hn sub'' hsub'' := by
    obtain ⟨sub', hsub', hid'⟩ := h'.ids number (Nat.lt_of_lt_of_le hn h.nextNumber) sub'' hsub''
    obtain ⟨sub, hsub, hid⟩ := h.ids number hn sub' hsub'
    exact ⟨sub, hsub, hid'.trans hid⟩

end KeepsIds

/-! ## Subscribers by number -/

theorem mem_of_subscriber? {s : Slots} {number : Nat} {sub : Subscriber}
    (h : s.subscriber? number = some sub) : (number, sub) ∈ s.subscribers := by
  obtain ⟨before, after, hs, -⟩ := List.lookup_eq_some_iff.mp h
  rw [hs]
  simp

theorem lookup_mapAttached (f : Subscriber → Subscriber) (id : String) (number : Nat)
    (subscribers : List (Nat × Subscriber)) :
    (mapAttached f id subscribers).lookup number =
      (subscribers.lookup number).map fun s => if s.attached ∧ s.id = id then f s else s := by
  induction subscribers with
  | nil => rfl
  | cons e rest ih =>
    rw [mapAttached, List.map_cons, List.lookup_cons, List.lookup_cons]
    by_cases hn : number = e.1
    · simp [hn]
    · have hne : (number == e.1) = false := by simpa using hn
      rw [hne]
      exact ih

theorem mem_mapAttached {f : Subscriber → Subscriber} {id : String} {number : Nat} {sub : Subscriber}
    {subscribers : List (Nat × Subscriber)} (h : (number, sub) ∈ mapAttached f id subscribers) :
    ∃ old, (number, old) ∈ subscribers ∧ sub = if old.attached ∧ old.id = id then f old else old := by
  obtain ⟨⟨n, old⟩, hmem, heq⟩ := List.mem_map.mp h
  cases heq
  exact ⟨old, hmem, rfl⟩

theorem lookup_subscribers_filter_ne (number k : Nat) (subscribers : List (Nat × Subscriber)) :
    (subscribers.filter fun (n, _) => n ≠ number).lookup k =
      if k = number then none else subscribers.lookup k := by
  induction subscribers with
  | nil => simp
  | cons e rest ih =>
    obtain ⟨n, sub⟩ := e
    by_cases hn : n = number
    · rw [List.filter_cons_of_neg (by simp [hn]), ih, List.lookup_cons]
      by_cases hk : k = number
      · simp [hk]
      · have hne : (k == n) = false := by simp [hn, hk]
        rw [hne]
    · rw [List.filter_cons_of_pos (by simp [hn]), List.lookup_cons, List.lookup_cons, ih]
      by_cases hk : k = n
      · simp [hk, hn]
      · have hne : (k == n) = false := by simpa using hk
        rw [hne]

/-! ## Operations -/

section
variable {published : String → String → Prop} {s : Slots}

theorem origin_empty : empty.Origin published := ⟨by simp [empty], by simp [empty], by simp [empty]⟩

theorem Origin.forget (h : s.Origin published) (id : String) : (s.forget id).Origin published where
  numbers number sub hmem := by
    obtain ⟨old, hold, -⟩ := mem_mapAttached (f := fun sub => { sub with attached := false }) hmem
    exact h.numbers number old hold
  entries k proof hmem := h.entries k proof (List.mem_filter.mp hmem).1
  subscribers number sub proof hmem hproof := by
    obtain ⟨old, hold, rfl⟩ := mem_mapAttached (f := fun sub => { sub with attached := false }) hmem
    split at hproof
    · next hatt =>
      rw [if_pos hatt]
      exact h.subscribers number old proof hold hproof
    · next hatt =>
      rw [if_neg hatt]
      exact h.subscribers number old proof hold hproof

theorem keepsIds_forget (s : Slots) (id : String) : s.KeepsIds (s.forget id) where
  nextNumber := Nat.le_refl _
  ids number _ sub' h := by
    rw [subscriber?, Slots.forget, lookup_mapAttached] at h
    obtain ⟨sub, hsub, rfl⟩ := Option.map_eq_some_iff.mp h
    exact ⟨sub, hsub, by split <;> rfl⟩

theorem Origin.release (h : s.Origin published) (number : Nat) : (s.release number).Origin published := by
  unfold Slots.release
  split
  · exact h
  · have hrest : ({ s with subscribers := s.subscribers.filter fun (n, _) => n ≠ number } : Slots).Origin
        published :=
      ⟨fun n sub hmem => h.numbers n sub (List.mem_filter.mp hmem).1, h.entries,
        fun n sub proof hmem => h.subscribers n sub proof (List.mem_filter.mp hmem).1⟩
    exact hrest.forget _

theorem keepsIds_release (s : Slots) (number : Nat) : s.KeepsIds (s.release number) := by
  unfold Slots.release
  split
  · exact .refl s
  · have hrest : s.KeepsIds { s with subscribers := s.subscribers.filter fun (n, _) => n ≠ number } := by
      refine ⟨Nat.le_refl _, fun k _ sub' h => ?_⟩
      rw [subscriber?, lookup_subscribers_filter_ne] at h
      split at h
      · cases h
      · exact ⟨sub', h, rfl⟩
    exact hrest.trans (keepsIds_forget _ _)

theorem Origin.publish (h : s.Origin published) {id proof : String} (hp : published id proof)
    (now : Instant) : (s.publish now id proof).Origin published where
  numbers number sub hmem := by
    obtain ⟨old, hold, -⟩ := mem_mapAttached (f := fun sub => { sub with proof := some proof }) hmem
    exact h.numbers number old hold
  entries k p hmem := by
    rcases List.mem_cons.mp hmem with heq | hmem
    · cases heq
      exact hp
    · exact h.entries k p (List.mem_filter.mp hmem).1
  subscribers number sub p hmem hproof := by
    obtain ⟨old, hold, rfl⟩ := mem_mapAttached (f := fun sub => { sub with proof := some proof }) hmem
    by_cases hatt : old.attached ∧ old.id = id
    · rw [if_pos hatt] at hproof ⊢
      cases hproof
      rw [hatt.2]
      exact hp
    · rw [if_neg hatt] at hproof ⊢
      exact h.subscribers number old p hold hproof

theorem keepsIds_publish (s : Slots) (now : Instant) (id proof : String) :
    s.KeepsIds (s.publish now id proof) where
  nextNumber := Nat.le_refl _
  ids number _ sub' h := by
    rw [subscriber?, Slots.publish, lookup_mapAttached] at h
    obtain ⟨sub, hsub, rfl⟩ := Option.map_eq_some_iff.mp h
    exact ⟨sub, hsub, by split <;> rfl⟩

theorem Origin.subscribe (h : s.Origin published) (id : String) : (s.subscribe id).2.Origin published where
  numbers number sub hmem := by
    rcases List.mem_append.mp hmem with hmem | hmem
    · exact Nat.lt_succ_of_lt (h.numbers number sub hmem)
    · cases List.mem_singleton.mp hmem
      exact Nat.lt_succ_self _
  entries k p hmem := by
    simp only [Slots.subscribe] at hmem
    split at hmem
    · exact h.entries k p hmem
    · rcases List.mem_cons.mp hmem with heq | hmem
      · cases heq
      · exact h.entries k p (List.mem_filter.mp hmem).1
  subscribers number sub p hmem hproof := by
    rcases List.mem_append.mp hmem with hmem | hmem
    · exact h.subscribers number sub p hmem hproof
    · cases List.mem_singleton.mp hmem
      -- the new subscriber has what its slot holds
      obtain ⟨before, after, hs, -⟩ := List.lookup_eq_some_iff.mp (Option.join_eq_some_iff.mp hproof)
      exact h.entries id p (by rw [hs]; simp)

/-- A new subscriber is attached to the slot of its id. -/
theorem Origin.subscriber?_subscribe (h : s.Origin published) (id : String) :
    (s.subscribe id).2.subscriber? s.nextNumber = some ⟨id, (s.held? id).join, true⟩ := by
  have hlookup : (s.subscribe id).2.subscriber? s.nextNumber =
      (s.subscriber? s.nextNumber).or ([(s.nextNumber, ⟨id, (s.held? id).join, true⟩)].lookup s.nextNumber) :=
    List.lookup_append
  cases hold : s.subscriber? s.nextNumber with
  | none => simp [hlookup, hold]
  | some old => exact absurd (h.numbers _ _ (mem_of_subscriber? hold)) (Nat.lt_irrefl _)

/-- A new subscriber has the id that it asked for. -/
theorem Origin.id_of_subscribe (h : s.Origin published) {id : String} {sub : Subscriber}
    (hs : (s.subscribe id).2.subscriber? s.nextNumber = some sub) : sub.id = id := by
  rw [h.subscriber?_subscribe id] at hs
  cases hs
  rfl

theorem keepsIds_subscribe (s : Slots) (id : String) : s.KeepsIds (s.subscribe id).2 where
  nextNumber := Nat.le_succ _
  ids number hn sub' h := by
    have hlookup : (s.subscribe id).2.subscriber? number =
        (s.subscriber? number).or ([(s.nextNumber, _)].lookup number) := List.lookup_append
    have hne : (number == s.nextNumber) = false := by simpa using Nat.ne_of_lt hn
    rw [hlookup, List.lookup_cons, hne, List.lookup_nil, Option.or_none] at h
    exact ⟨sub', h, rfl⟩

theorem poll_cases (s : Slots) (number : Nat) :
    (∃ text, s.delivery number = .proof text ∧ s.poll number = (.proof text, s.release number)) ∨
      (s.poll number).2 = s ∧ ((s.poll number).1 = .pending ∨ (s.poll number).1 = .finished) := by
  unfold poll
  cases hd : s.delivery number with
  | proof text => exact .inl ⟨text, rfl, rfl⟩
  | pending => exact .inr ⟨rfl, .inl rfl⟩
  | finished => exact .inr ⟨rfl, .inr rfl⟩

theorem Origin.lapse (h : s.Origin published) (now : Instant) (index : Nat) :
    (s.lapse now index).Origin published := by
  unfold Slots.lapse
  split
  · next id _ =>
    have hrest : ({ s with retained := ⟨s.retained.entries.eraseIdx index⟩ } : Slots).Origin published :=
      ⟨h.numbers, h.entries, h.subscribers⟩
    exact hrest.forget id
  · exact h

theorem keepsIds_lapse (s : Slots) (now : Instant) (index : Nat) : s.KeepsIds (s.lapse now index) := by
  unfold Slots.lapse
  split
  · next id _ =>
    have hforget := keepsIds_forget { s with retained := ⟨s.retained.entries.eraseIdx index⟩ } id
    exact ⟨hforget.nextNumber, hforget.ids⟩
  · exact .refl s

theorem keepsIds_step (s : Slots) (now : Instant) (move : Move) : s.KeepsIds (s.step now move) := by
  cases move with
  | subscribe id => exact keepsIds_subscribe s id
  | publish id proof => exact keepsIds_publish s now id proof
  | poll number =>
    show s.KeepsIds (s.poll number).2
    rcases poll_cases s number with ⟨text, -, heq⟩ | ⟨heq, -⟩
    · rw [heq]
      exact keepsIds_release s number
    · rw [heq]
      exact .refl s
  | leave number => exact keepsIds_release s number
  | lapse index => exact keepsIds_lapse s now index

/-- **Whatever happens to slots,** subscribers keep their ids. -/
theorem keepsIds_run (s : Slots) (moves : List (Instant × Move)) : s.KeepsIds (s.run moves) := by
  induction moves generalizing s with
  | nil => exact .refl s
  | cons e later ih =>
    obtain ⟨t, move⟩ := e
    exact (keepsIds_step s t move).trans (ih (s.step t move))

theorem Origin.step (h : s.Origin published) (now : Instant) {move : Move}
    (hp : ∀ id proof, move = .publish id proof → published id proof) : (s.step now move).Origin published := by
  cases move with
  | subscribe id => exact h.subscribe id
  | publish id proof => exact h.publish (hp id proof rfl) now
  | poll number =>
    show (s.poll number).2.Origin published
    rcases poll_cases s number with ⟨text, -, heq⟩ | ⟨heq, -⟩
    · rw [heq]
      exact h.release number
    · rw [heq]
      exact h
  | leave number => exact h.release number
  | lapse index => exact h.lapse now index

/-- **Whatever happens to slots,** proofs keep their origin. -/
theorem Origin.run (h : s.Origin published) {moves : List (Instant × Move)}
    (hp : ∀ t id proof, (t, .publish id proof) ∈ moves → published id proof) :
    (s.run moves).Origin published := by
  induction moves generalizing s with
  | nil => exact h
  | cons e later ih =>
    obtain ⟨t, move⟩ := e
    exact ih (h.step t fun id proof heq => hp t id proof (by simp [heq]))
      fun t id proof hmem => hp t id proof (List.mem_cons_of_mem _ hmem)

theorem subscriber?_subscribe_run (moves : List (Instant × Move)) (id : String) :
    ((empty.run moves).subscribe id).2.subscriber? (empty.run moves).nextNumber =
      some ⟨id, ((empty.run moves).held? id).join, true⟩ := by
  have horigin : (empty.run moves).Origin fun _ _ => True := origin_empty.run fun _ _ _ _ => trivial
  exact horigin.subscriber?_subscribe id

/-- The retentions whose time has come end one by one. -/
theorem expire_eq_run (s : Slots) (now : Instant) :
    s.expire now = s.run (List.replicate (s.retained.due now).length (now, .lapse 0)) := by
  obtain ⟨entries, subscribers, nextNumber, ⟨agenda⟩⟩ := s
  induction agenda generalizing entries subscribers with
  | nil => rfl
  | cons e rest ih =>
    obtain ⟨due, id⟩ := e
    by_cases hdue : due ≤ now
    · let s : Slots := ⟨entries, subscribers, nextNumber, ⟨rest⟩⟩
      have hlapse : (⟨entries, subscribers, nextNumber, ⟨(due, id) :: rest⟩⟩ : Slots).lapse now 0 =
          s.forget id := by
        simp [s, lapse, overdue?, hdue]
      have hrest := ih (s.forget id).entries (s.forget id).subscribers
      have hlength : (Agenda.due ⟨(due, id) :: rest⟩ now).length =
          (Agenda.due ⟨rest⟩ now).length + 1 := by simp [Agenda.due, hdue]
      rw [hlength, List.replicate_succ, run_cons, step, hlapse]
      refine Eq.trans ?_ hrest
      simp [s, expire, Agenda.due, Agenda.after, hdue, forget]
    · simp [expire, Agenda.due, Agenda.after, hdue, run]

/-- What is delivered to a subscriber was published under its id, or is the empty text of a slot
that went away. -/
theorem Origin.delivery (h : s.Origin published) {number : Nat} {text : String}
    (hd : s.delivery number = .proof text) :
    ∃ sub, s.subscriber? number = some sub ∧ (text = "" ∨ published sub.id text) := by
  unfold Slots.delivery at hd
  cases hs : s.subscriber? number with
  | none => simp [hs] at hd
  | some sub =>
    refine ⟨sub, rfl, ?_⟩
    cases hproof : sub.proof with
    | some proof =>
      simp only [hs, hproof] at hd
      cases hd
      exact .inr (h.subscribers number sub text (mem_of_subscriber? hs) hproof)
    | none =>
      cases hatt : sub.attached with
      | true => simp [hs, hproof, hatt] at hd
      | false =>
        simp only [hs, hproof, hatt] at hd
        cases hd
        exact .inl rfl

end

/-! ## Publications -/

theorem insert_perm {α : Type} (moment : Instant) (x : α) (entries : List (Instant × α)) :
    (Agenda.insert moment x entries).Perm ((moment, x) :: entries) := by
  induction entries with
  | nil => exact .refl _
  | cons e rest ih =>
    rw [Agenda.insert]
    split
    · exact (ih.cons e).trans (.swap ..)
    · exact .refl _

/-- A publication always leaves its mark, for its retention begins. -/
theorem publish_ne (s : Slots) (now : Instant) (id proof : String) : s.publish now id proof ≠ s := by
  intro h
  have hlength : (Agenda.insert (now + retention) id s.retained.entries).length = s.retained.entries.length :=
    congrArg (fun s : Slots => s.retained.entries.length) h
  rw [(insert_perm ..).length_eq, List.length_cons] at hlength
  omega

end ProofRelay.Slots
