import ProofRelay.Proofs.Subscription.Closing

/-!
What the items alone decide.  Where nobody closes a subscription and no deadline comes while it waits
(`Listens`), it does not matter when the items come and when the task looks: the outcome is what the first item
says that ends a wait, and the task has it as soon as it is woken after this item has come.

    s.outcome? = some o → (arrivals events).findSome? ending? = some o             (outcome?_of_listens)
-/

namespace ProofRelay.Subscription

/-- No look finds nothing at a deadline that has come, as long as the task waits. -/
def InTime (patience : Duration) (events : History) : Prop :=
  ∀ before now, before ++ [(now, .look)] <+: events → Undecided patience before →
    (view before).sight = .nothing → now < Clock.deadline ((view before).since?.getD now) patience

/-- Nobody closes, no deadline comes, and what arrives is what a channel with these items yields. -/
structure Listens (patience : Duration) (items : List Item) (events : History) : Prop where
  not_closed : ∀ e ∈ events, e.2 ≠ .close
  in_time : InTime patience events
  arrivals : arrivals events <+: items

variable {patience : Duration} {items : List Item} {events : History} {o : Outcome}

/-- No item that was taken without a verdict ends the wait. -/
theorem findSome?_taken (h : Undecided patience events) :
    (view events).taken.findSome? ending? = none := by
  induction events using List.reverseRecOn with
  | nil => rfl
  | append_singleton events e ih =>
    obtain ⟨now, stimulus⟩ := e
    rw [view_append_singleton]
    cases stimulus with
    | arrive item =>
      rw [taken_arrive]
      exact ih ((undecided_append_other (by simp)).mp h)
    | close => exact ih ((undecided_append_other (by simp)).mp h)
    | look =>
      obtain ⟨hu, hv⟩ := undecided_append_look.mp h
      cases hs : (view events).sight with
      | closed => simp [verdict?, View.verdict?, hs] at hv
      | item item =>
        have hitem : ending? item = none := by simpa [verdict?, View.verdict?, hs] using hv
        simp [taken_of_item hs, List.findSome?_append, ih hu, hitem]
      | nothing =>
        rw [taken_of_nothing hs]
        exact ih hu

theorem arrivals_mono {before : History} (h : before <+: events) : arrivals before <+: arrivals events :=
  h.filterMap _

theorem arrivals_append_looks (events : History) (now : Instant) (passes : Nat) :
    arrivals (events ++ List.replicate passes (now, .look)) = arrivals events := by
  simp [arrivals]

/-- **The first item that ends a wait is the outcome.** -/
theorem outcome?_of_listens (h : Listens patience items events)
    (ho : ((start (.ok ()) patience).run events).outcome? = some o) :
    (arrivals events).findSome? ending? = some o := by
  obtain ⟨before, now, hp, hu, hv⟩ := outcome?_run_start.mp ho
  have hbefore : before <+: events := (List.prefix_append ..).trans hp
  cases hs : (view before).sight with
  | closed =>
    have hclosed : (view before).closed = true := by
      by_contra hc
      cases hq : (view before).queue <;> simp [View.sight, hc, hq] at hs
    obtain ⟨t, ht⟩ := closed_view_iff.mp hclosed
    exact absurd rfl (h.not_closed _ (hbefore.subset ht))
  | item item =>
    obtain ⟨-, rest, hq⟩ := sight_eq_item_iff.mp hs
    have hitem : ending? item = some o := by simpa [verdict?, View.verdict?, hs] using hv
    have hfirst : (arrivals before).findSome? ending? = some o := by
      rw [arrivals_eq_taken_append_queue, List.findSome?_append, findSome?_taken hu, hq]
      simp [hitem]
    exact (arrivals_mono hbefore).findSome?_eq_some hfirst
  | nothing =>
    have hd := h.in_time before now hp hu hs
    simp [verdict?, View.verdict?, hs, Nat.not_le.mpr hd] at hv

/-- As long as such an item waits, a look finds one. -/
theorem sight_ne_nothing (hu : Undecided patience events)
    (ho : (arrivals events).findSome? ending? = some o) : (view events).sight ≠ .nothing := by
  intro hs
  rw [arrivals_eq_taken_append_queue, (sight_eq_nothing_iff.mp hs).2, List.append_nil, findSome?_taken hu] at ho
  cases ho

/-- Looks at what has come keep the deadline away. -/
theorem Listens.append_looks (h : Listens patience items events)
    (ho : (Subscription.arrivals events).findSome? ending? = some o) (now : Instant) (passes : Nat) :
    Listens patience items (events ++ List.replicate passes (now, .look)) where
  not_closed := by
    intro e he
    rcases List.mem_append.mp he with he | he
    · exact h.not_closed e he
    · rw [List.eq_of_mem_replicate he]
      simp
  in_time := by
    intro before t hp hu hs
    rcases List.prefix_or_prefix_of_prefix hp (List.prefix_append ..) with hbefore | hbefore
    · exact h.in_time before t hbefore hu hs
    · rcases List.prefix_concat_iff.mp hbefore with heq | hbefore
      · exact h.in_time before t (heq ▸ List.prefix_rfl) hu hs
      · exact absurd hs (sight_ne_nothing hu ((arrivals_mono hbefore).findSome?_eq_some ho))
  arrivals := by
    rw [arrivals_append_looks]
    exact h.arrivals

/-- **Once this item has come,** the task ends when it is woken. -/
theorem outcome?_wake_of_listens (h : Listens patience items events)
    (ho : (arrivals events).findSome? ending? = some o) (now : Instant) :
    (((start (.ok ()) patience).run events).wake now).outcome? = some o := by
  have hcases := wake_cases ((start (.ok ()) patience).run events) now
  rw [wake_eq_run, run_start_append] at hcases ⊢
  generalize ((start (.ok ()) patience).run events).inbox.length + 1 = passes at hcases ⊢
  have hlater := h.append_looks ho now passes
  rw [← arrivals_append_looks events now passes] at ho
  rcases hcases with ⟨o', houtcome⟩ | ⟨deadline, hstage, -, hinbox, hclosing⟩
  · rw [houtcome, ← outcome?_of_listens hlater houtcome, ho]
  · -- a task that waits with nothing to take has not seen the item
    have hu := outcome?_run_start_eq_none.mp (show Subscription.outcome? _ = none by rw [outcome?, hstage])
    rw [run_of_undecided hu] at hinbox hclosing
    exact absurd (sight_eq_nothing_iff.mpr ⟨hclosing, hinbox⟩) (sight_ne_nothing hu ho)

end ProofRelay.Subscription
