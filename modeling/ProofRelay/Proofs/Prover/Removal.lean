import ProofRelay.Proofs.Prover.Slots

/-!
What becomes of a slot.  The slot of an id is removed when a subscriber to this id has its proof or goes away,
and when the retention of a publication of this id ends, whoever made the slot (`removes?`).  Any other move
leaves it, and a publication fills it:

    what a slot holds after a move                                                        (held?_step)
    what a subscriber has after a move, if it stays                                 (subscriber?_step)
    which retentions there are after a move                                             (retained_step)
-/

namespace ProofRelay

namespace Subscriber

/-- A subscriber after a move that removed the slot of an id, or none. -/
def after (sub : Subscriber) (removed? : Option String) (move : Slots.Move) : Subscriber :=
  if sub.attached = false then sub
  else if removed? = some sub.id then { sub with attached := false }
  else
    match move with
    | .publish id proof => if sub.id = id then { sub with proof := some proof } else sub
    | _ => sub

variable {sub : Subscriber} {removed? : Option String} {move : Slots.Move}

@[simp] theorem id_after (sub : Subscriber) (removed? : Option String) (move : Slots.Move) :
    (sub.after removed? move).id = sub.id := by
  unfold after
  split
  · rfl
  split
  · rfl
  split
  · split <;> rfl
  · rfl

theorem attached_after :
    (sub.after removed? move).attached = true ↔ sub.attached = true ∧ removed? ≠ some sub.id := by
  unfold after
  by_cases hatt : sub.attached = true
  · by_cases hremoved : removed? = some sub.id
    · simp [hatt, hremoved]
    · rw [if_neg (by simp [hatt]), if_neg hremoved]
      split
      · split <;> simp [hatt, hremoved]
      · simp [hatt, hremoved]
  · simp [hatt]

theorem proof_after_publish (hatt : sub.attached = true) (hremoved : removed? ≠ some sub.id) (proof : String) :
    (sub.after removed? (.publish sub.id proof)).proof = some proof := by
  simp [after, hatt, hremoved]

theorem proof_after_of_ne (hmove : ∀ proof, move ≠ .publish sub.id proof) (removed? : Option String) :
    (sub.after removed? move).proof = sub.proof := by
  unfold after
  split
  · rfl
  split
  · rfl
  split
  · next id proof =>
    rw [if_neg]
    rintro rfl
    exact hmove proof rfl
  · rfl

theorem proof_after_detached (h : ¬ (sub.attached = true ∧ removed? ≠ some sub.id)) (move : Slots.Move) :
    (sub.after removed? move).proof = sub.proof := by
  unfold after
  split
  · rfl
  · next hatt =>
    have hremoved : removed? = some sub.id := by
      by_contra hne
      exact h ⟨by simpa using hatt, hne⟩
    rw [if_pos hremoved]

end Subscriber

namespace Slots

/-! ## Who goes away, and what is removed -/

/-- The number of the subscriber that goes away with a move. -/
def parting? (s : Slots) : Move → Option Nat
  | .poll number =>
    match s.delivery number with
    | .proof _ => some number
    | _ => none
  | .leave number => some number
  | _ => none

/-- The id of the publication whose retention ends with a move. -/
def lapses? (s : Slots) (now : Instant) : Move → Option String
  | .lapse index => s.overdue? now index
  | _ => none

/-- The id whose slot a move removes. -/
def removes? (s : Slots) (now : Instant) (move : Move) : Option String :=
  (s.lapses? now move).or (((s.parting? move).bind s.subscriber?).map (·.id))

variable {s : Slots} {now : Instant} {move : Move} {number : Nat} {sub : Subscriber}

theorem parting?_ne (hpoll : move ≠ .poll number) (hleave : move ≠ .leave number) :
    s.parting? move ≠ some number := by
  intro h
  cases move with
  | poll n =>
    rw [parting?] at h
    split at h
    · cases h
      exact hpoll rfl
    · cases h
  | leave n =>
    cases h
    exact hleave rfl
  | subscribe | publish | lapse => cases h

theorem step_of_parting (h : s.parting? move = some number) : s.step now move = s.release number := by
  cases move with
  | leave n =>
    cases h
    rfl
  | poll n =>
    cases hd : s.delivery n with
    | proof text =>
      simp only [parting?, hd, Option.some.injEq] at h
      subst h
      simp [step, poll, hd]
    | pending => simp [parting?, hd] at h
    | finished => simp [parting?, hd] at h
  | subscribe id => cases h
  | publish id proof => cases h
  | lapse index => cases h

theorem step_poll_of_not_parting (h : s.parting? (.poll number) = none) : s.step now (.poll number) = s := by
  cases hd : s.delivery number with
  | proof text => simp [parting?, hd] at h
  | pending => simp [step, poll, hd]
  | finished => simp [step, poll, hd]

/-- A subscriber that goes away takes the slot of its id with it. -/
theorem removes?_of_parting (h : s.parting? move = some number) (hs : s.subscriber? number = some sub) :
    s.removes? now move = some sub.id := by
  have hlapses : s.lapses? now move = none := by
    cases move with
    | lapse index => cases h
    | subscribe | publish | poll | leave => rfl
  simp [removes?, hlapses, h, hs]

/-- **What removes a slot** is the end of a retention of its id, or of a subscriber to it. -/
theorem removes?_eq_some_iff {id : String} : s.removes? now move = some id ↔
    s.lapses? now move = some id ∨
      ∃ number sub, s.parting? move = some number ∧ s.subscriber? number = some sub ∧ sub.id = id := by
  constructor
  · intro h
    rw [removes?, Option.or_eq_some_iff] at h
    rcases h with hended | ⟨-, hparted⟩
    · exact .inl hended
    · obtain ⟨sub, hsub, hid⟩ := Option.map_eq_some_iff.mp hparted
      obtain ⟨number, hparting, hnumber⟩ := Option.bind_eq_some_iff.mp hsub
      exact .inr ⟨number, sub, hparting, hnumber, hid⟩
  · rintro (hended | ⟨number, sub, hparting, hsub, rfl⟩)
    · rw [removes?, hended, Option.some_or]
    · exact removes?_of_parting hparting hsub

/-! ## Slots -/

theorem held?_release (s : Slots) (number : Nat) (k : String) :
    (s.release number).held? k = if (s.subscriber? number).map (·.id) = some k then none else s.held? k := by
  unfold release
  cases hs : s.subscriber? number with
  | none => simp
  | some sub =>
    simp only [Option.map_some, Option.some.injEq]
    rw [held?_forget]
    by_cases hk : k = sub.id
    · rw [if_pos hk, if_pos hk.symm]
    · rw [if_neg hk, if_neg (Ne.symm hk)]
      rfl

theorem held?_lapse (s : Slots) (now : Instant) (index : Nat) (k : String) :
    (s.lapse now index).held? k = if s.overdue? now index = some k then none else s.held? k := by
  unfold lapse
  cases ho : s.overdue? now index with
  | none => simp
  | some id =>
    simp only [Option.some.injEq]
    rw [held?_forget]
    by_cases hk : k = id
    · rw [if_pos hk, if_pos hk.symm]
    · rw [if_neg hk, if_neg (Ne.symm hk)]
      rfl

/-- **What a slot holds after a move.** -/
theorem held?_step (s : Slots) (now : Instant) (move : Move) (k : String) :
    (s.step now move).held? k =
      if s.removes? now move = some k then none
      else
        match move with
        | .subscribe id => if k = id then some (s.held? id).join else s.held? k
        | .publish id proof => if k = id then some (some proof) else s.held? k
        | _ => s.held? k := by
  cases move with
  | subscribe id => simp [removes?, lapses?, parting?, step, held?_subscribe]
  | publish id proof => simp [removes?, lapses?, parting?, step, held?_publish]
  | leave number =>
    simp only [removes?, lapses?, parting?, step, held?_release]
    simp
  | poll number =>
    cases hp : s.parting? (.poll number) with
    | none => simp [step_poll_of_not_parting hp, removes?, lapses?, hp]
    | some n => simp [step_of_parting hp, removes?, lapses?, hp, held?_release]
  | lapse index => simp [removes?, lapses?, parting?, step, held?_lapse]

/-! ## Subscribers -/

theorem subscriber?_forget (s : Slots) (id : String) (number : Nat) :
    (s.forget id).subscriber? number = (s.subscriber? number).map fun sub =>
      if sub.attached ∧ sub.id = id then { sub with attached := false } else sub :=
  lookup_mapAttached (fun sub => { sub with attached := false }) id number s.subscribers

theorem subscriber?_release_self (s : Slots) (number : Nat) : (s.release number).subscriber? number = none := by
  unfold release
  cases hs : s.subscriber? number with
  | none => exact hs
  | some sub =>
    rw [subscriber?_forget, subscriber?, lookup_subscribers_filter_ne]
    simp

theorem subscriber?_release_of_ne {other : Nat} {gone : Subscriber} (hgone : s.subscriber? other = some gone)
    (h : number ≠ other) :
    (s.release other).subscriber? number = (s.subscriber? number).map fun sub =>
      if sub.attached ∧ sub.id = gone.id then { sub with attached := false } else sub := by
  unfold release
  rw [hgone]
  simp only []
  rw [subscriber?_forget, subscriber?, lookup_subscribers_filter_ne, if_neg h]
  rfl

theorem subscriber?_lapse {index : Nat} {id : String} (h : s.overdue? now index = some id) :
    (s.lapse now index).subscriber? number = (s.subscriber? number).map fun sub =>
      if sub.attached ∧ sub.id = id then { sub with attached := false } else sub := by
  unfold lapse
  rw [h]
  exact subscriber?_forget _ id number

/-- A subscriber whose slot was removed has what it had. -/
theorem after_removed (sub : Subscriber) (id : String) (hmove : ∀ k proof, move ≠ .publish k proof) :
    (if sub.attached ∧ sub.id = id then { sub with attached := false } else sub) = sub.after (some id) move := by
  unfold Subscriber.after
  cases hatt : sub.attached with
  | false => simp
  | true =>
    by_cases hid : sub.id = id
    · simp [hid]
    · have hne : ¬ id = sub.id := Ne.symm hid
      cases move with
      | publish k proof => exact absurd rfl (hmove k proof)
      | subscribe | poll | leave | lapse => simp [hid, hne]

theorem after_kept (sub : Subscriber) (hmove : ∀ k proof, move ≠ .publish k proof) :
    sub.after none move = sub := by
  unfold Subscriber.after
  cases move with
  | publish k proof => exact absurd rfl (hmove k proof)
  | subscribe | poll | leave | lapse => simp

/-- **What a subscriber has after a move,** if it stays. -/
theorem subscriber?_step (h : s.subscriber? number = some sub) (hstays : s.parting? move ≠ some number) :
    (s.step now move).subscriber? number = some (sub.after (s.removes? now move) move) := by
  -- one who goes away takes the slot of its id with it, and leaves the others
  have hparting : ∀ other, s.parting? move = some other → (∀ k proof, move ≠ .publish k proof) →
      (s.step now move).subscriber? number = some (sub.after (s.removes? now move) move) := by
    intro other hother hmove
    have hne : number ≠ other := by
      rintro rfl
      exact hstays hother
    rw [step_of_parting hother]
    cases hgone : s.subscriber? other with
    | none =>
      have hsame : s.release other = s := by rw [release, hgone]
      have hremoves : s.removes? now move = none := by
        cases move with
        | lapse index => cases hother
        | subscribe | publish | poll | leave => simp [removes?, lapses?, hother, hgone]
      rw [hsame, hremoves, after_kept sub hmove, h]
    | some gone =>
      rw [subscriber?_release_of_ne hgone hne, removes?_of_parting hother hgone, h, Option.map_some,
        after_removed sub gone.id hmove]
  cases move with
  | subscribe id =>
    have hremoves : s.removes? now (.subscribe id) = none := rfl
    rw [hremoves, after_kept sub (by rintro _ _ ⟨⟩)]
    have hlookup : (s.subscribe id).2.subscriber? number =
        (s.subscriber? number).or ([(s.nextNumber, _)].lookup number) := List.lookup_append
    rw [step, hlookup, h, Option.some_or]
  | publish id proof =>
    have hremoves : s.removes? now (.publish id proof) = none := rfl
    have hlookup : (s.publish now id proof).subscriber? number = (s.subscriber? number).map fun sub =>
        if sub.attached ∧ sub.id = id then { sub with proof := some proof } else sub :=
      lookup_mapAttached (fun sub => { sub with proof := some proof }) id number s.subscribers
    rw [step, hlookup, h, hremoves, Option.map_some, Subscriber.after]
    cases hatt : sub.attached with
    | false => simp
    | true => simp
  | leave n => exact hparting n rfl (by rintro _ _ ⟨⟩)
  | poll n =>
    cases hp : s.parting? (.poll n) with
    | some other => exact hparting other hp (by rintro _ _ ⟨⟩)
    | none =>
      have hremoves : s.removes? now (.poll n) = none := by simp [removes?, lapses?, hp]
      rw [step_poll_of_not_parting hp, hremoves, after_kept sub (by rintro _ _ ⟨⟩), h]
  | lapse index =>
    have hremoves : s.removes? now (.lapse index) = s.overdue? now index := by
      simp [removes?, lapses?, parting?]
    rw [step, hremoves]
    cases ho : s.overdue? now index with
    | none =>
      have hsame : s.lapse now index = s := by rw [lapse, ho]
      rw [hsame, after_kept sub (by rintro _ _ ⟨⟩), h]
    | some id =>
      rw [subscriber?_lapse ho, h, Option.map_some]
      exact congrArg some (after_removed sub id (by rintro _ _ ⟨⟩))

theorem subscriber?_step_of_parting (h : s.parting? move = some number) :
    (s.step now move).subscriber? number = none := by
  rw [step_of_parting h, subscriber?_release_self]

theorem subscriber?_step_of_none (h : s.subscriber? number = none) (hmove : ∀ id, move ≠ .subscribe id) :
    (s.step now move).subscriber? number = none := by
  have hrelease : ∀ other, (s.release other).subscriber? number = none := by
    intro other
    by_cases hne : number = other
    · subst hne
      exact subscriber?_release_self s number
    · cases hgone : s.subscriber? other with
      | none => rw [release, hgone, h]
      | some gone => rw [subscriber?_release_of_ne hgone hne, h, Option.map_none]
  cases move with
  | subscribe id => exact absurd rfl (hmove id)
  | publish id proof =>
    rw [step, subscriber?, publish, lookup_mapAttached]
    exact Option.map_eq_none_iff.mpr h
  | leave other => exact hrelease other
  | poll other =>
    cases hp : s.parting? (.poll other) with
    | some gone => rw [step_of_parting hp, hrelease]
    | none => rw [step_poll_of_not_parting hp, h]
  | lapse index =>
    rw [step]
    cases ho : s.overdue? now index with
    | none => rw [lapse, ho, h]
    | some id => rw [subscriber?_lapse ho, h, Option.map_none]

/-- Whoever is there after a move was there before, or has just come. -/
theorem id_of_subscriber?_step (h : (s.step now move).subscriber? number = some sub) :
    (∃ before, s.subscriber? number = some before ∧ before.id = sub.id) ∨
      move = .subscribe sub.id ∧ number = s.nextNumber := by
  cases hb : s.subscriber? number with
  | some before =>
    refine .inl ⟨before, rfl, ?_⟩
    by_cases hp : s.parting? move = some number
    · rw [subscriber?_step_of_parting hp] at h
      cases h
    · rw [subscriber?_step hb hp] at h
      cases h
      simp
  | none =>
    by_cases hmove : ∃ id, move = .subscribe id
    · obtain ⟨id, rfl⟩ := hmove
      have hlookup : (s.subscribe id).2.subscriber? number =
          (s.subscriber? number).or ([(s.nextNumber, ⟨id, (s.held? id).join, true⟩)].lookup number) :=
        List.lookup_append
      rw [step, hlookup, hb, Option.none_or, List.lookup_cons] at h
      split at h
      · next heq =>
        cases h
        exact .inr ⟨rfl, by simpa using heq⟩
      · cases h
    · rw [subscriber?_step_of_none hb (by simpa using hmove)] at h
      cases h

/-! ## Retentions -/

/-- **Which retentions there are after a move.** -/
theorem retained_step (s : Slots) (now : Instant) (move : Move) :
    (∃ id proof, move = .publish id proof ∧
      (s.step now move).retained.entries.Perm ((now + retention, id) :: s.retained.entries)) ∨
    (∃ id due, s.lapses? now move = some id ∧ due ≤ now ∧
      s.retained.entries.Perm ((due, id) :: (s.step now move).retained.entries)) ∨
    (∀ id proof, move ≠ .publish id proof) ∧ s.lapses? now move = none ∧
      (s.step now move).retained = s.retained := by
  have hrelease : ∀ number, (s.release number).retained = s.retained := by
    intro number
    unfold release
    split <;> rfl
  cases move with
  | publish id proof => exact .inl ⟨id, proof, rfl, insert_perm ..⟩
  | lapse index =>
    cases ho : s.overdue? now index with
    | none =>
      refine .inr (.inr ⟨by rintro _ _ ⟨⟩, ho, ?_⟩)
      rw [step, lapse, ho]
    | some id =>
      obtain ⟨⟨due, id'⟩, hentry, hdue⟩ := Option.bind_eq_some_iff.mp ho
      simp only [Option.ite_none_right_eq_some, Option.some.injEq] at hdue
      obtain ⟨hle, rfl⟩ := hdue
      obtain ⟨hindex, hget⟩ := List.getElem?_eq_some_iff.mp hentry
      refine .inr (.inl ⟨id', due, ho, hle, ?_⟩)
      rw [step, lapse, ho, ← hget]
      exact (List.getElem_cons_eraseIdx_perm hindex).symm
  | subscribe id => exact .inr (.inr ⟨by rintro _ _ ⟨⟩, rfl, rfl⟩)
  | leave number => exact .inr (.inr ⟨by rintro _ _ ⟨⟩, rfl, hrelease number⟩)
  | poll number =>
    refine .inr (.inr ⟨by rintro _ _ ⟨⟩, rfl, ?_⟩)
    cases hp : s.parting? (.poll number) with
    | some other => rw [step_of_parting hp, hrelease]
    | none => rw [step_poll_of_not_parting hp]

theorem exists_of_lapses? {id : String} (h : s.lapses? now move = some id) :
    ∃ due, due ≤ now ∧ (due, id) ∈ s.retained.entries := by
  rcases retained_step s now move with ⟨_, _, rfl, -⟩ | ⟨k, due, hk, hdue, hperm⟩ | ⟨-, hnone, -⟩
  · cases h
  · rw [h] at hk
    cases hk
    exact ⟨due, hdue, hperm.mem_iff.mpr List.mem_cons_self⟩
  · rw [h] at hnone
    cases hnone

end Slots
end ProofRelay
