import ProofRelay.Proofs.Subscription.Outcome

/-!
What is settled before the task ends.  A subscription that has no channel, or that is closed while
it waits, has its outcome fixed (`fate?`): whatever happens, it comes to no other (`eq_of_fate?`),
and it comes to it when it is woken (`outcome?_wake_of_fate?`).  Without a closing no history
decides to give up (`not_decides_cancelled`).
-/

namespace ProofRelay.Subscription

/-- The outcome that the next look gives whatever happens before it. -/
def fate? (s : Subscription) : Option Outcome :=
  match s.stage with
  | .ended outcome => some outcome
  | .unstarted (.error error) => some (.unavailable error)
  | .unstarted (.ok ()) | .waiting _ => if s.closing then some .cancelled else none

theorem fate?_of_outcome? {s : Subscription} {o : Outcome} (h : s.outcome? = some o) : s.fate? = some o := by
  unfold outcome? at h
  split at h
  · next hs => simpa [fate?, hs] using h
  · cases h

theorem outcome?_look_of_fate? {s : Subscription} {o : Outcome} (h : s.fate? = some o) (now : Instant) :
    (s.look now).outcome? = some o := by
  unfold fate? at h
  unfold look
  split at h
  · next hs => rw [hs]; simpa [outcome?, hs] using h
  · next hs => rw [hs]; simpa [outcome?] using h
  · next hs =>
    split at h
    · next hc => rw [hs]; simpa [pass, outcome?, hc] using h
    · cases h
  · next hs =>
    split at h
    · next hc => rw [hs]; simpa [pass, outcome?, hc] using h
    · cases h

theorem fate?_step {s : Subscription} {o : Outcome} (h : s.fate? = some o) (now : Instant)
    (stimulus : Stimulus) : (s.step now stimulus).fate? = some o := by
  cases stimulus with
  | arrive item =>
    show (s.arrive item).fate? = some o
    unfold arrive
    split <;> exact h
  | close =>
    show s.close.fate? = some o
    unfold fate? at h ⊢
    unfold close
    split at h <;> rename_i hs
    · simpa [hs] using h
    · simpa [hs] using h
    · simp_all
    · simp_all
  | look => exact fate?_of_outcome? (outcome?_look_of_fate? h now)

theorem fate?_run {s : Subscription} {o : Outcome} (h : s.fate? = some o) (events : History) :
    (s.run events).fate? = some o := by
  induction events using List.reverseRecOn with
  | nil => exact h
  | append_singleton events e ih =>
    rw [run_append_singleton]
    exact fate?_step ih ..

/-- The outcome of a settled subscription is the one that is settled. -/
theorem eq_of_fate? {s : Subscription} {o o' : Outcome} {events : History} (h : s.fate? = some o)
    (ho : (s.run events).outcome? = some o') : o' = o := by
  have h' := fate?_of_outcome? ho
  rw [fate?_run h events, Option.some.injEq] at h'
  exact h'.symm

/-- A settled subscription ends when it is woken. -/
theorem outcome?_wake_of_fate? {s : Subscription} {o : Outcome} (h : s.fate? = some o) (now : Instant) :
    (s.wake now).outcome? = some o := by
  have hlook : (s.look now).outcome? = some o := outcome?_look_of_fate? h now
  rw [wake, looks, looks_of_outcome? hlook, hlook]

/-! ## Closing -/

/-- Without a channel the outcome is settled from the beginning. -/
theorem fate?_run_start_error (error : ChannelError) (patience : Duration) (events : History) :
    ((start (.error error) patience).run events).fate? = some (.unavailable error) :=
  fate?_run rfl events

/-- Closing settles the outcome of a subscription with a channel: what it is already, or to give up. -/
theorem fate?_close_run_start (patience : Duration) (events : History) :
    let s := (start (.ok ()) patience).run events
    s.close.fate? = some (s.outcome?.getD .cancelled) := by
  intro s
  cases ho : s.outcome? with
  | some o => exact fate?_step (fate?_of_outcome? ho) 0 .close
  | none =>
    have hs : s = ofView patience (view events) := run_of_undecided (outcome?_run_start_eq_none.mp ho)
    rw [hs]
    cases hsince : (view events).since? <;> simp [fate?, close, ofView, hsince]

theorem closed_view_iff {events : History} : (view events).closed = true ↔ ∃ now, (now, .close) ∈ events := by
  induction events using List.reverseRecOn with
  | nil => simp [view_nil]
  | append_singleton events e ih =>
    obtain ⟨now, stimulus⟩ := e
    rw [view_append_singleton]
    cases stimulus with
    | close => simp [View.next]
    | arrive item => simpa [View.next] using ih
    | look => simpa [View.next] using ih

theorem not_decides_cancelled {patience : Duration} {events : History}
    (h : ∀ e ∈ events, e.2 ≠ .close) : ¬ Decides patience events .cancelled := by
  rintro ⟨before, now, hp, -, hv⟩
  unfold verdict? View.verdict? at hv
  split at hv
  · next hs =>
    have hc : (view before).closed = true := by
      unfold View.sight at hs
      split at hs
      · next hc => exact hc
      · split at hs <;> cases hs
    obtain ⟨t, ht⟩ := closed_view_iff.mp hc
    exact h (t, .close) (hp.subset (List.mem_append_left _ ht)) rfl
  · next item _ => cases item <;> cases hv
  · split at hv <;> cases hv

end ProofRelay.Subscription
