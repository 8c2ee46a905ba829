import ProofRelay.Clock

/-!
Runs on a clock.  What happens has a moment, and a run is served in time if the clock moves on only
while there is nothing to do (`Clock.MovesAtRest`).
-/

namespace ProofRelay.Clock

variable {σ α : Type}

/-- The moment that the clock shows after what happened since it showed `began`. -/
def after (began : Instant) (events : List (Instant × α)) : Instant := events.foldl (fun _ e => e.1) began

@[simp] theorem after_append_singleton (began t : Instant) (events : List (Instant × α)) (x : α) :
    after began (events ++ [(t, x)]) = t := by
  simp [after, List.foldl_append]

/-- The clock moves on only up to moments until which the state rests. -/
def MovesAtRest (rests : σ → Instant → Prop) (step : σ → Instant → α → σ) (s : σ) (now : Instant) :
    List (Instant × α) → Prop
  | [] => True
  | (t, x) :: later =>
    (t = now ∨ now < t ∧ rests s t) ∧ MovesAtRest rests step (step s t x) t later

variable {rests : σ → Instant → Prop} {step : σ → Instant → α → σ} {s : σ} {began : Instant}

theorem movesAtRest_append {as bs : List (Instant × α)} :
    MovesAtRest rests step s began (as ++ bs) ↔
      MovesAtRest rests step s began as ∧
        MovesAtRest rests step (as.foldl (fun s (t, x) => step s t x) s) (after began as) bs := by
  induction as generalizing s began with
  | nil => simp [MovesAtRest, after]
  | cons e later ih =>
    obtain ⟨t, x⟩ := e
    have hafter : after began ((t, x) :: later) = after t later := rfl
    rw [List.cons_append, MovesAtRest, MovesAtRest, ih, hafter, List.foldl_cons, and_assoc]

theorem movesAtRest_append_singleton {events : List (Instant × α)} {t : Instant} {x : α} :
    MovesAtRest rests step s began (events ++ [(t, x)]) ↔
      MovesAtRest rests step s began events ∧
        (t = after began events ∨
          after began events < t ∧ rests (events.foldl (fun s (t, x) => step s t x) s) t) := by
  simp [movesAtRest_append, MovesAtRest]

/-- The clock of such a run never goes back. -/
theorem after_le_of_movesAtRest {as bs : List (Instant × α)}
    (h : MovesAtRest rests step s began (as ++ bs)) : after began as ≤ after began (as ++ bs) := by
  induction bs generalizing as with
  | nil => simp
  | cons e bs ih =>
    obtain ⟨t, x⟩ := e
    have hsplit : as ++ (t, x) :: bs = as ++ [(t, x)] ++ bs := by simp
    rw [hsplit] at h ⊢
    have hle : after began as ≤ after began (as ++ [(t, x)]) := by
      obtain ⟨-, hclock⟩ := movesAtRest_append_singleton.mp (movesAtRest_append.mp h).1
      rw [after_append_singleton]
      rcases hclock with rfl | ⟨hlt, -⟩
      · exact Nat.le_refl _
      · exact Nat.le_of_lt hlt
    exact Nat.le_trans hle (ih h)

end ProofRelay.Clock
