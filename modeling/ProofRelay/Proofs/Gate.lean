import Mathlib.Order.Bounds.Basic
import ProofRelay.Rehearsal.Gate

/-!
When a gate lets its caller through.  A caller that looks is released by readiness, by a sender that is gone,
or by the deadline (`Gate.Released`); the moments at which one of these holds are told by the settings that are
due (`signalAt`).  A caller that waits is let through at the first of them, and as ready if the signal is ready
then:

    (await deadline now signal entries).2.now =
      the least t with now ≤ t ∧ Released (signalAt signal entries t) deadline t           (letThrough_await)
-/

namespace ProofRelay

namespace Gate

/-- What lets a caller through at a moment. -/
def Released (signal : Signal) (deadline t : Instant) : Prop :=
  signal.ready = true ∨ signal.live = false ∨ deadline ≤ t

theorem poll_eq_some_iff {signal : Signal} {deadline now : Instant} {ready : Bool} :
    poll signal deadline now = some ready ↔ Released signal deadline now ∧ ready = signal.ready := by
  unfold poll Released
  cases hready : signal.ready <;> cases signal.live <;> cases ready <;> simp

theorem poll_eq_none_iff_not_released {signal : Signal} {deadline now : Instant} :
    poll signal deadline now = none ↔ ¬Released signal deadline now := by
  rw [poll_eq_none_iff, Released]
  cases signal.ready <;> cases signal.live <;> simp

end Gate

namespace Rehearsal.SignalScene

/-! ## The signal by the clock -/

/-- The signal once all is set that is due at a moment. -/
def signalAt (signal : Signal) (entries : List (Instant × Option Bool)) (t : Instant) : Signal :=
  (Agenda.due ⟨entries⟩ t).foldl Signal.set signal

variable {signal : Signal} {entries rest : List (Instant × Option Bool)} {deadline now t u : Instant}
  {value : Option Bool}

theorem signalAt_cons_of_le (h : t ≤ u) :
    signalAt signal ((t, value) :: rest) u = signalAt (signal.set value) rest u := by
  simp [signalAt, Agenda.due, h]

theorem signalAt_cons_of_lt (h : u < t) : signalAt signal ((t, value) :: rest) u = signal := by
  simp [signalAt, Agenda.due, Nat.not_le.mpr h]

/-- A signal that is never taken back stays ready. -/
theorem ready_signalAt (hkept : ∀ e ∈ entries, e.2 ≠ some false) (h : signal.ready = true) (u : Instant) :
    (signalAt signal entries u).ready = true := by
  induction entries generalizing signal with
  | nil => exact h
  | cons entry rest ih =>
    obtain ⟨t, value⟩ := entry
    by_cases hdue : t ≤ u
    · rw [signalAt_cons_of_le hdue]
      refine ih (fun e he => hkept e (List.mem_cons_of_mem _ he)) ?_
      have hvalue : value ≠ some false := hkept (t, value) List.mem_cons_self
      unfold Signal.set
      split
      · cases value with
        | none => exact h
        | some ready => cases ready <;> simp_all
      · exact h
    · rw [signalAt_cons_of_lt (Nat.not_le.mp hdue)]
      exact h

theorem ready_signalAt_mono (hkept : ∀ e ∈ entries, e.2 ≠ some false) (hle : t ≤ u)
    (h : (signalAt signal entries t).ready = true) : (signalAt signal entries u).ready = true := by
  induction entries generalizing signal with
  | nil => exact h
  | cons entry rest ih =>
    obtain ⟨t', value⟩ := entry
    by_cases hdue : t' ≤ t
    · rw [signalAt_cons_of_le hdue] at h
      rw [signalAt_cons_of_le (Nat.le_trans hdue hle)]
      exact ih (fun e he => hkept e (List.mem_cons_of_mem _ he)) h
    · rw [signalAt_cons_of_lt (Nat.not_le.mp hdue)] at h
      exact ready_signalAt hkept h u

/-- A caller is let through at the first moment that releases it, with what is set later still to come. -/
structure LetThrough (deadline now : Instant) (signal : Signal) (entries : List (Instant × Option Bool))
    (ready : Bool) (scene : SignalScene) : Prop where
  isLeast : IsLeast {t | now ≤ t ∧ Gate.Released (signalAt signal entries t) deadline t} scene.now
  signal : scene.signal = signalAt signal entries scene.now
  ready : ready = scene.signal.ready
  agenda : scene.agenda = Agenda.after ⟨entries⟩ scene.now

/-- A caller that need not wait. -/
theorem letThrough_now {ready : Bool} (hsignal : signalAt signal entries now = signal)
    (hafter : Agenda.after ⟨entries⟩ now = ⟨entries⟩) (h : Gate.poll signal deadline now = some ready) :
    LetThrough deadline now signal entries ready ⟨now, signal, ⟨entries⟩⟩ := by
  obtain ⟨hreleased, hready⟩ := Gate.poll_eq_some_iff.mp h
  refine ⟨⟨⟨Nat.le_refl _, ?_⟩, fun u hu => hu.1⟩, hsignal.symm, hready, hafter.symm⟩
  rw [hsignal]
  exact hreleased

/-- A caller that waits for the deadline, before which nothing is set. -/
theorem letThrough_deadline (hsignal : ∀ u ≤ deadline, signalAt signal entries u = signal)
    (hafter : Agenda.after ⟨entries⟩ deadline = ⟨entries⟩) (h : Gate.poll signal deadline now = none) :
    LetThrough deadline now signal entries false ⟨deadline, signal, ⟨entries⟩⟩ := by
  obtain ⟨hready, hlive, hlt⟩ := Gate.poll_eq_none_iff.mp h
  refine ⟨⟨⟨Nat.le_of_lt hlt, .inr (.inr (Nat.le_refl _))⟩, fun u hu => ?_⟩,
    (hsignal deadline (Nat.le_refl _)).symm, hready.symm, hafter.symm⟩
  by_contra hbefore
  have hle : u ≤ deadline := Nat.le_of_lt (Nat.not_le.mp hbefore)
  rcases hu.2 with hr | hl | hd
  · rw [hsignal u hle, hready] at hr
    cases hr
  · rw [hsignal u hle, hlive] at hl
    cases hl
  · exact hbefore hd

/-- A caller that is not released before a setting waits on from there. -/
theorem LetThrough.of_rest {start : Instant} {ready : Bool} {scene : SignalScene}
    (h : LetThrough deadline start (signal.set value) rest ready scene) (ht : t ≤ start) (hnow : now ≤ start)
    (hbefore : ∀ u, now ≤ u → u < start →
      ¬Gate.Released (signalAt signal ((t, value) :: rest) u) deadline u) :
    LetThrough deadline now signal ((t, value) :: rest) ready scene := by
  have hsame : ∀ u, start ≤ u → signalAt signal ((t, value) :: rest) u = signalAt (signal.set value) rest u :=
    fun u hu => signalAt_cons_of_le (Nat.le_trans ht hu)
  obtain ⟨⟨hstart, hreleased⟩, hleast⟩ := h.isLeast
  refine ⟨⟨⟨Nat.le_trans hnow hstart, ?_⟩, fun u hu => ?_⟩, ?_, h.ready, ?_⟩
  · rw [hsame _ hstart]
    exact hreleased
  · by_cases hu' : start ≤ u
    · refine hleast ⟨hu', ?_⟩
      rw [← hsame u hu']
      exact hu.2
    · exact absurd hu.2 (hbefore u hu.1 (Nat.not_le.mp hu'))
  · rw [hsame _ hstart]
    exact h.signal
  · have hpassed : t ≤ scene.now := Nat.le_trans ht hstart
    rw [h.agenda]
    simp [Agenda.after, hpassed]

/-- **Waiting at a gate**, whatever is set and when. -/
theorem letThrough_await (deadline now : Instant) (signal : Signal)
    (entries : List (Instant × Option Bool)) :
    LetThrough deadline now signal entries (await deadline now signal entries).1
      (await deadline now signal entries).2 := by
  induction entries generalizing now signal with
  | nil =>
    rw [await]
    cases hpoll : Gate.poll signal deadline now with
    | some ready => exact letThrough_now rfl rfl hpoll
    | none => exact letThrough_deadline (fun _ _ => rfl) rfl hpoll
  | cons entry rest ih =>
    obtain ⟨t, value⟩ := entry
    have hlater : ∀ u, u < t → Agenda.after ⟨(t, value) :: rest⟩ u = ⟨(t, value) :: rest⟩ := by
      intro u hu
      simp [Agenda.after, Nat.not_le.mpr hu]
    rw [await]
    split
    · next hdue => exact (ih now _).of_rest hdue (Nat.le_refl _) fun u hu hlt => absurd hu (Nat.not_le.mpr hlt)
    · next hdue =>
      have hlt : now < t := Nat.not_le.mp hdue
      cases hpoll : Gate.poll signal deadline now with
      | some ready => exact letThrough_now (signalAt_cons_of_lt hlt) (hlater now hlt) hpoll
      | none =>
        obtain ⟨hready, hlive, -⟩ := Gate.poll_eq_none_iff.mp hpoll
        simp only []
        split
        · next hle =>
          refine (ih t _).of_rest (Nat.le_refl _) (Nat.le_of_lt hlt) fun u _ hu => ?_
          rw [signalAt_cons_of_lt hu, ← Gate.poll_eq_none_iff_not_released, Gate.poll_eq_none_iff]
          exact ⟨hready, hlive, Nat.lt_of_lt_of_le hu hle⟩
        · next hle =>
          have hfar : deadline < t := Nat.not_le.mp hle
          exact letThrough_deadline (fun u hu => signalAt_cons_of_lt (Nat.lt_of_le_of_lt hu hfar))
            (hlater deadline hfar) hpoll

end Rehearsal.SignalScene
end ProofRelay
