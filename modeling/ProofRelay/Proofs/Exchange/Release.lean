import ProofRelay.Proofs.Exchange.Advance

/-!
What becomes of the channel.  The channel is closed by the task that holds it and by nothing else
(`eq_look_of_closes`), and a channel that is closed is never held again, so the times that it is closed
are counted by what is held at the beginning and at the end:

    closings + (held at the end) = (held at the beginning)                                  (closings_add_held)

The caller's side comes to its end in one step (`Parting`): it joins the response with an outcome,
which the subscription has only once it has ended; or the transport fails; or the caller gives up, and
both of these close the subscription.  Nothing that happens afterwards takes an end or a closing back
(`Subscription.Later`), so there is no moment after it at which the channel is held and not about to be closed.
-/

namespace ProofRelay

namespace Subscription

/-! ## Earlier and later -/

/-- What a subscription keeps, whatever happens to it. -/
structure Later (s t : Subscription) : Prop where
  outcome : ∀ o, s.outcome? = some o → t.outcome? = some o
  closing : s.closing = true → t.closing = true
  held : t.holdsChannel = true → s.holdsChannel = true
  unstarted : ∀ channel, t.stage = .unstarted channel → s.stage = .unstarted channel

theorem Later.refl (s : Subscription) : s.Later s := ⟨fun _ h => h, id, id, fun _ h => h⟩

theorem Later.trans {s t u : Subscription} (h : s.Later t) (h' : t.Later u) : s.Later u where
  outcome o ho := h'.outcome o (h.outcome o ho)
  closing hc := h'.closing (h.closing hc)
  held hu := h.held (h'.held hu)
  unstarted channel hu := h.unstarted channel (h'.unstarted channel hu)

/-- A pass keeps a closing, and leaves a task that has started. -/
theorem pass_started (s : Subscription) (now deadline : Instant) :
    (s.pass now deadline).closing = s.closing ∧
      ∀ channel, (s.pass now deadline).stage ≠ .unstarted channel := by
  unfold pass
  split
  · exact ⟨rfl, nofun⟩
  split
  · split <;> exact ⟨rfl, nofun⟩
  · split <;> exact ⟨rfl, nofun⟩

theorem later_look (s : Subscription) (now : Instant) : s.Later (s.look now) := by
  have hpass : ∀ deadline, s.holdsChannel = true → s.outcome? = none →
      s.Later (s.pass now deadline) := by
    intro deadline hheld hnone
    obtain ⟨hclosing, hstarted⟩ := s.pass_started now deadline
    refine ⟨fun o ho => ?_, fun hc => hclosing.trans hc, fun _ => hheld, fun channel hstage => ?_⟩
    · rw [hnone] at ho
      cases ho
    · exact absurd hstage (hstarted channel)
  unfold look
  split
  · next hs =>
    refine ⟨fun o ho => ?_, id, nofun, nofun⟩
    simp [outcome?, hs] at ho
  · next hs => exact hpass _ (by simp [holdsChannel, hs]) (by simp [outcome?, hs])
  · next hs => exact hpass _ (by simp [holdsChannel, hs]) (by simp [outcome?, hs])
  · exact .refl s

theorem later_step (s : Subscription) (now : Instant) (stimulus : Stimulus) :
    s.Later (s.step now stimulus) := by
  cases stimulus with
  | arrive item =>
    show s.Later (s.arrive item)
    unfold arrive
    split
    · exact ⟨fun _ h => h, id, id, fun _ h => h⟩
    · exact .refl s
  | close => exact ⟨fun _ h => h, fun _ => rfl, id, fun _ h => h⟩
  | look => exact s.later_look now

/-! ## The channel of a subscription that is over -/

theorem holdsChannel_of_outcome? {s : Subscription} {o : Outcome} (h : s.outcome? = some o) :
    s.holdsChannel = false := by
  unfold outcome? at h
  split at h
  · next hs => simp [holdsChannel, hs]
  · cases h

/-- What is left of a subscription that nobody waits for, with what came of opening its channel. -/
inductive Released (channel : Except ChannelError Unit) (s : Subscription) : Prop
  /-- It has ended, and its channel is closed. -/
  | ended (outcome : Outcome) (known : s.outcome? = some outcome) (closed : s.holdsChannel = false)
  /-- It is cancelled: the next look closes the channel, and takes nothing of what has arrived. -/
  | cancelled (closing : s.closing = true) (held : s.holdsChannel = true)
      (next : ∀ now, s.look now = { s with stage := .ended .cancelled })
  /-- It is cancelled, and there never was a channel; the next look ends it. -/
  | unopened (error : ChannelError) (unavailable : channel = .error error) (closing : s.closing = true)
      (closed : s.holdsChannel = false)
      (next : ∀ now, s.look now = { s with stage := .ended (.unavailable error) })

/-- A subscription that is closed has ended, or it ends with its next look. -/
theorem released_of_closing {s : Subscription} {channel : Except ChannelError Unit}
    (h : s.closing = true) (hu : ∀ channel', s.stage = .unstarted channel' → channel' = channel) :
    s.Released channel := by
  have hpass : ∀ now deadline, s.pass now deadline = { s with stage := .ended .cancelled } := by
    intro now deadline
    rw [pass, if_pos h]
  cases hs : s.stage with
  | unstarted channel' =>
    rw [hu channel' hs] at hs
    cases channel with
    | error error =>
      exact .unopened error rfl h (by simp [holdsChannel, hs]) fun now => by simp only [look, hs]
    | ok => exact .cancelled h (by simp [holdsChannel, hs]) fun now => by simp only [look, hs, hpass]
  | waiting deadline =>
    exact .cancelled h (by simp [holdsChannel, hs]) fun now => by simp only [look, hs, hpass]
  | ended outcome =>
    have ho : s.outcome? = some outcome := by simp [outcome?, hs]
    exact .ended outcome ho (holdsChannel_of_outcome? ho)

end Subscription

namespace Exchange

theorem subscription_later_step (x : Exchange) (now : Instant) (stimulus : Stimulus) :
    x.subscription.Later (x.step now stimulus).subscription := by
  cases hs : stimulus.toSubscription? with
  | some stimulus' =>
    rw [subscription_step_of_task x now hs]
    exact x.subscription.later_step now stimulus'
  | none =>
    rcases subscription_step_of_caller x now hs with hsame | hclosed
    · rw [hsame]
      exact .refl x.subscription
    · rw [hclosed]
      exact x.subscription.later_step now .close

theorem subscription_later_run (x : Exchange) (events : List (Instant × Stimulus)) :
    x.subscription.Later (x.run events).subscription := by
  induction events using List.reverseRecOn with
  | nil => exact .refl x.subscription
  | append_singleton events e ih =>
    rw [run_append_singleton]
    exact ih.trans (subscription_later_step ..)

/-! ## How often the channel is closed -/

/-- Whether one step closes the channel. -/
def closes (x : Exchange) (now : Instant) (stimulus : Stimulus) : Bool :=
  x.subscription.holdsChannel && !(x.step now stimulus).subscription.holdsChannel

/-- Nothing but the task closes the channel. -/
theorem eq_look_of_closes {x : Exchange} {now : Instant} {stimulus : Stimulus}
    (h : x.closes now stimulus = true) : stimulus = .look := by
  have hchanged : (x.step now stimulus).subscription.holdsChannel ≠ x.subscription.holdsChannel := by
    intro hsame
    simp [closes, hsame] at h
  cases hs : stimulus.toSubscription? with
  | some stimulus' =>
    rw [subscription_step_of_task x now hs] at hchanged
    cases stimulus with
    | look => rfl
    | arrive item =>
      cases hs
      refine absurd ?_ hchanged
      show (x.subscription.arrive item).holdsChannel = x.subscription.holdsChannel
      unfold Subscription.arrive
      split <;> rfl
    | resume | reply | abandon => cases hs
  | none =>
    rcases subscription_step_of_caller x now hs with hsame | hclosed
    · exact absurd (congrArg Subscription.holdsChannel hsame) hchanged
    · exact absurd (congrArg Subscription.holdsChannel hclosed) hchanged

/-- How often the channel is closed in a run. -/
def closings (x : Exchange) : List (Instant × Stimulus) → Nat
  | [] => 0
  | (now, stimulus) :: events => (x.closes now stimulus).toNat + (x.step now stimulus).closings events

theorem closes_add_held (x : Exchange) (now : Instant) (stimulus : Stimulus) :
    (x.closes now stimulus).toNat + (x.step now stimulus).subscription.holdsChannel.toNat =
      x.subscription.holdsChannel.toNat := by
  have hheld := (subscription_later_step x now stimulus).held
  unfold closes
  cases hx : x.subscription.holdsChannel with
  | true => cases (x.step now stimulus).subscription.holdsChannel <;> rfl
  | false =>
    have hy : (x.step now stimulus).subscription.holdsChannel = false := by
      rw [hx] at hheld
      simpa using hheld
    rw [hy]
    rfl

/-- **A channel that is held at the beginning** is held at the end, or was closed once. -/
theorem closings_add_held (x : Exchange) (events : List (Instant × Stimulus)) :
    x.closings events + (x.run events).subscription.holdsChannel.toNat =
      x.subscription.holdsChannel.toNat := by
  induction events generalizing x with
  | nil => simp [closings, run]
  | cons e events ih =>
    obtain ⟨now, stimulus⟩ := e
    have hstep := closes_add_held x now stimulus
    have hrest := ih (x.step now stimulus)
    rw [run_cons, closings]
    omega

/-! ## How the caller's side ends -/

/-- The step with which the caller's side comes to its end. -/
inductive Parting (x : Exchange) : Stimulus → Exchange → Prop
  /-- The response is joined with the outcome. -/
  | joins {outcome : Outcome} {y : Exchange} (ended : x.subscription.outcome? = some outcome)
      (kept : y.subscription = x.subscription) : x.Parting .resume y
  /-- The transport fails. -/
  | fails {error : ClientError} {y : Exchange} (sent : x.phase = .sending)
      (phase : y.phase = .done (.error error)) (closed : y.subscription = x.subscription.close) :
      x.Parting (.reply (.error error)) y
  /-- The caller gives up. -/
  | leaves {y : Exchange} (phase : y.phase = .abandoned) (closed : y.subscription = x.subscription.close) :
      x.Parting .abandon y

theorem parting_of_over {x : Exchange} {now : Instant} {stimulus : Stimulus} (going : x.isOver = false)
    (hend : (x.step now stimulus).isOver = true) : x.Parting stimulus (x.step now stimulus) := by
  -- a step that does not move the caller ends nothing
  have hstays : x.isOver ≠ true := by simp [going]
  cases stimulus with
  | arrive item => exact absurd hend hstays
  | look => exact absurd hend hstays
  | resume =>
    replace hend : (x.resume now).isOver = true := hend
    show x.Parting .resume (x.resume now)
    unfold resume at hend ⊢
    cases hp : x.phase with
    | gate deadline =>
      simp only [hp] at hend
      split at hend
      · cases hend
      · exact absurd hend hstays
    | joining response =>
      cases ho : x.subscription.outcome? with
      | some outcome => exact .joins ho rfl
      | none =>
        simp only [hp, ho] at hend
        exact absurd hend hstays
    | sending | done | abandoned =>
      simp only [hp] at hend
      exact absurd hend hstays
  | reply result =>
    replace hend : (x.reply result).isOver = true := hend
    show x.Parting (.reply result) (x.reply result)
    unfold reply at hend ⊢
    cases hp : x.phase with
    | sending =>
      cases result with
      | error error => exact .fails hp rfl rfl
      | ok response =>
        simp only [hp] at hend
        cases hend
    | gate | joining | done | abandoned =>
      simp only [hp] at hend
      exact absurd hend hstays
  | abandon =>
    show x.Parting .abandon x.abandon
    unfold abandon
    rw [if_neg hstays]
    exact .leaves rfl rfl

/-- How an exchange that is over has come to it, and what it has left of its subscription since. -/
inductive Concluded (x : Exchange) (events : List (Instant × Stimulus)) : Prop
  | joined {outcome : Outcome} (ended : (x.run events).subscription.outcome? = some outcome)
  | failed {before : List (Instant × Stimulus)} {replied : Instant} {error : ClientError}
      {after : List (Instant × Stimulus)} (split : events = before ++ (replied, .reply (.error error)) :: after)
      (sent : (x.run before).phase = .sending) (phase : (x.run events).phase = .done (.error error))
      (closing : (x.run events).subscription.closing = true)
  | left (phase : (x.run events).phase = .abandoned)
      (closing : (x.run events).subscription.closing = true)

theorem Parting.concluded {x : Exchange} {now : Instant} {stimulus : Stimulus}
    (h : x.Parting stimulus (x.step now stimulus)) (hend : (x.step now stimulus).isOver = true)
    (events : List (Instant × Stimulus)) : x.Concluded ((now, stimulus) :: events) := by
  have hlater := subscription_later_run (x.step now stimulus) events
  have hphase := phase_run_of_isOver hend events
  have hclosing : (x.step now stimulus).subscription = x.subscription.close →
      ((x.step now stimulus).run events).subscription.closing = true := by
    intro hclosed
    refine hlater.closing ?_
    rw [hclosed]
    rfl
  cases h with
  | joins ended kept =>
    rw [← kept] at ended
    exact .joined (hlater.outcome _ ended)
  | fails sent phase closed =>
    exact .failed (List.nil_append _).symm sent (hphase.trans phase) (hclosing closed)
  | leaves phase closed => exact .left (hphase.trans phase) (hclosing closed)

theorem concluded_of_isOver {x : Exchange} (going : x.isOver = false) {events : List (Instant × Stimulus)}
    (hend : (x.run events).isOver = true) : x.Concluded events := by
  induction events generalizing x with
  | nil => exact absurd hend (by simp [run, going])
  | cons e events ih =>
    obtain ⟨now, stimulus⟩ := e
    -- the first step after which it is over is the parting; nothing before it ends anything
    cases hover : (x.step now stimulus).isOver with
    | true => exact (parting_of_over going hover).concluded hover events
    | false =>
      cases ih hover hend with
      | joined ended => exact .joined ended
      | @failed before replied error after split sent phase closing =>
        have hsplit : (now, stimulus) :: events =
            ((now, stimulus) :: before) ++ (replied, .reply (.error error)) :: after := by
          rw [split]
          rfl
        exact .failed hsplit sent phase closing
      | left phase closing => exact .left phase closing

theorem isOver_abandon (x : Exchange) : x.abandon.isOver = true := by
  unfold abandon
  split
  · assumption
  · rfl

section
variable {config : Config} {r : ProxyRequest} {id : RequestId}
  {opener : String → Except ChannelError Unit} {now : Instant} {x : Exchange}
  (hx : start config r id opener now = .ok x)

include hx

theorem isOver_of_start : x.isOver = false := by
  obtain ⟨-, -, -, hphase⟩ := start_eq_ok hx
  simp [isOver, hphase]

theorem released_of_isOver {events : List (Instant × Stimulus)} (hend : (x.run events).isOver = true) :
    (x.run events).subscription.Released (opener (config.proofUrl id)) := by
  obtain ⟨-, -, hsub, -⟩ := start_eq_ok hx
  have hunstarted : ∀ channel, (x.run events).subscription.stage = .unstarted channel →
      channel = opener (config.proofUrl id) := by
    intro channel hstage
    have hstart := (subscription_later_run x events).unstarted channel hstage
    rw [hsub] at hstart
    exact (Stage.unstarted.inj hstart).symm
  cases concluded_of_isOver (isOver_of_start hx) hend with
  | joined ended => exact .ended _ ended (Subscription.holdsChannel_of_outcome? ended)
  | failed _ _ _ closing => exact Subscription.released_of_closing closing hunstarted
  | left _ closing => exact Subscription.released_of_closing closing hunstarted

theorem failed_or_ended_of_result? {events : List (Instant × Stimulus)}
    {result : Except ClientError ProvenResponse} (h : (x.run events).result? = some result) :
    (∃ before replied error after, events = before ++ (replied, .reply (.error error)) :: after ∧
      (x.run before).phase = .sending ∧ result = .error error) ∨
    ∃ outcome, (x.run events).subscription.outcome? = some outcome := by
  have hdone : (x.run events).phase = .done result := by
    unfold result? at h
    split at h
    · next hp => rw [hp, Option.some.inj h]
    · cases h
  have hover : (x.run events).isOver = true := by simp [isOver, hdone]
  cases concluded_of_isOver (isOver_of_start hx) hover with
  | joined ended => exact .inr ⟨_, ended⟩
  | failed split sent phase =>
    rw [hdone] at phase
    exact .inl ⟨_, _, _, _, split, sent, Phase.done.inj phase⟩
  | left phase =>
    rw [hdone] at phase
    cases phase

/-- **No channel is leaked,** at whatever moment of a run one looks:

* once the caller's side is over, the subscription has ended and its channel is closed, or it is
  cancelled, and then its next look ends it without taking anything that has arrived;
* the caller's side is over as soon as the caller gives up, at whatever moment that is;
* with any result but the failure of the transport, the subscription has ended before;
* the channel is closed once if it was opened and is no longer held, and not at all otherwise. -/
theorem channel_released_and_closed_once (events : List (Instant × Stimulus)) :
    let y := x.run events
    (y.isOver = true → y.subscription.Released (opener (config.proofUrl id))) ∧
    (∀ given, (y.step given .abandon).isOver = true) ∧
    (∀ result, y.result? = some result →
      (∃ before replied error after, events = before ++ (replied, .reply (.error error)) :: after ∧
        (x.run before).phase = .sending ∧ result = .error error) ∨
      ∃ outcome, y.subscription.outcome? = some outcome ∧ y.subscription.holdsChannel = false) ∧
    x.closings events + y.subscription.holdsChannel.toNat = (opener (config.proofUrl id)).isOk.toNat := by
  intro y
  refine ⟨fun hend => released_of_isOver hx hend, fun given => isOver_abandon y, fun result hresult => ?_, ?_⟩
  · rcases failed_or_ended_of_result? hx hresult with hfailed | ⟨outcome, ho⟩
    · exact .inl hfailed
    · exact .inr ⟨outcome, ho, Subscription.holdsChannel_of_outcome? ho⟩
  · obtain ⟨-, -, hsub, -⟩ := start_eq_ok hx
    rw [closings_add_held, hsub]
    cases opener (config.proofUrl id) <;> rfl

end

/-- A caller who gives up at the gate, and a transport that fails, with a proof in the inbox: the next look closes
the channel, the proof stays where it is, and the channel is not closed again.  And a response that is returned
with its proof: the channel is closed before, and not again. -/
theorem channel_released_and_closed_once_of_each_end :
    ∃ x, start plainConfig (pageRequest .default) plainId (fun _ => .ok ()) 0 = .ok x ∧
      (∀ events ∈ [[(0, .look), (10, .arrive (.message "key|proof")), (20, .abandon)],
          [(0, .look), (10, .arrive .opened), (10, .look), (10, .resume), (20, .arrive (.message "key|proof")),
            (20, .reply (.error ⟨.http, some .network⟩))]],
        let left := (x.run events).subscription
        left.inbox = [.message "key|proof"] ∧
        (∀ now, left.look now = { left with stage := .ended .cancelled }) ∧
        ∀ later, x.closings (events ++ (30, .look) :: later) = 1) ∧
      let events := [(0, .look), (10, .arrive .opened), (10, .look), (10, .resume),
        (20, .arrive (.message "key|proof")), (20, .look), (30, .reply (.ok ⟨.ok, .empty, []⟩)), (30, .resume)]
      (x.run events).result? = some (.ok ⟨⟨.ok, .empty, []⟩, some "key", some "proof"⟩) ∧
        (x.run events).subscription.holdsChannel = false ∧ ∀ later, x.closings (events ++ later) = 1 := by
  obtain ⟨x, hx⟩ := exists_start_page .default fun _ => .ok ()
  refine ⟨x, hx, ?_⟩
  have hmain := channel_released_and_closed_once hx
  obtain ⟨-, -, hsub, hphase⟩ := start_eq_ok hx
  -- a channel that is not held at the end has been closed once
  have hclosed : ∀ events outcome, (x.run events).subscription.outcome? = some outcome →
      x.closings events = 1 := by
    intro events outcome ho
    have hcount := (hmain events).2.2.2
    rw [Subscription.holdsChannel_of_outcome? ho] at hcount
    exact hcount
  refine ⟨?_, ?_⟩
  · intro events hevents left
    have hrun : (x.run events).isOver = true ∧ left.inbox = [.message "key|proof"] ∧
        left.holdsChannel = true ∧ ((x.run events).step 30 .look).subscription.outcome? = some .cancelled := by
      obtain ⟨policy, proves, request, subscription, phase, effects⟩ := x
      subst hsub hphase
      simp only [List.mem_cons, List.not_mem_nil, or_false] at hevents
      rcases hevents with rfl | rfl <;> exact ⟨rfl, rfl, rfl, rfl⟩
    obtain ⟨hover, hinbox, hheld, hcancelled⟩ := hrun
    refine ⟨hinbox, ?_, fun later => hclosed _ .cancelled ?_⟩
    · cases (hmain events).1 hover with
      | ended _ _ closed => exact absurd (hheld.symm.trans closed) (by decide)
      | cancelled _ _ next => exact next
      | unopened _ unavailable => cases unavailable
    · rw [run_append, run_cons]
      exact (subscription_later_run _ later).outcome _ hcancelled
  · intro events
    have hresult : (x.run events).result? = some (.ok ⟨⟨.ok, .empty, []⟩, some "key", some "proof"⟩) := by
      obtain ⟨policy, proves, request, subscription, phase, effects⟩ := x
      subst hsub hphase
      rfl
    rcases (hmain events).2.2.1 _ hresult with ⟨_, _, _, _, _, _, herror⟩ | ⟨outcome, ho, hheld⟩
    · cases herror
    refine ⟨hresult, hheld, fun later => hclosed _ outcome ?_⟩
    rw [run_append]
    exact (subscription_later_run _ later).outcome _ ho

end Exchange
end ProofRelay
