import QuerySynth.Proofs.Random.Run

/-!
# Retries

Retries are bounded by the words that are left, and the bound is never met: an attempt
that was refused has taken a word at least.  So the first attempt either settles the
matter, or leaves it to the same retries from the words behind it.
-/

namespace QuerySynth.Draw

variable {σ α : Type} [WordSource σ]

/-- Every finished run leaves fewer words than there were. -/
def Spends (draw : Draw σ α) : Prop :=
  ∀ ⦃s t : σ⦄ ⦃a : α⦄, draw.run s = some (a, t) → WordSource.left t < WordSource.left s

theorem spends_word32 : Spends (word32 : Draw σ Nat) := by
  intro s t w h
  obtain ⟨⟨word, u⟩, hnext, h⟩ := Option.map_eq_some_iff.mp h
  cases h
  exact WordSource.left_next32? hnext

theorem spends_word64 : Spends (word64 : Draw σ Nat) := by
  intro s t w h
  obtain ⟨⟨word, u⟩, hnext, h⟩ := Option.map_eq_some_iff.mp h
  cases h
  exact WordSource.left_next64? hnext

/-! ## Attempts one after the other -/

section Attempts

variable {attempt : Draw σ (Option α)} {s t : σ}

/-- With as many rounds as there are words, one more changes nothing. -/
theorem retryUpTo_succ (hspends : Spends attempt) {rounds : Nat}
    (h : WordSource.left s ≤ rounds) :
    (retryUpTo attempt (rounds + 1)).run s = (retryUpTo attempt rounds).run s := by
  induction rounds generalizing s with
  | zero =>
      -- there are no words, so the attempt does not end
      cases hrun : attempt.run s with
      | none => exact run_bind_of_none hrun
      | some outcome =>
          have hlt := hspends hrun
          omega
  | succ rounds ih =>
      cases hrun : attempt.run s with
      | none => exact (run_bind_of_none hrun).trans (run_bind_of_none hrun).symm
      | some outcome =>
          obtain ⟨found, t⟩ := outcome
          have hlt := hspends hrun
          refine (run_bind_of_some hrun).trans (Eq.trans ?_ (run_bind_of_some hrun).symm)
          cases found with
          | some a => rfl
          | none => exact ih (by omega)

theorem retryUpTo_of_left_le (hspends : Spends attempt) {rounds : Nat}
    (h : WordSource.left s ≤ rounds) :
    (retryUpTo attempt rounds).run s = (retry attempt).run s := by
  induction h with
  | refl => rfl
  | step hle ih => rw [retryUpTo_succ hspends hle, ih]

/-- There is always a round for the attempt that comes first. -/
theorem run_retry_eq_succ (hspends : Spends attempt) (s : σ) :
    (retry attempt).run s = (retryUpTo attempt (WordSource.left s + 1)).run s :=
  (retryUpTo_succ hspends (Nat.le_refl _)).symm

theorem run_retry_of_none (hspends : Spends attempt) (h : attempt.run s = none) :
    (retry attempt).run s = none := by
  rw [run_retry_eq_succ hspends]
  exact run_bind_of_none h

theorem run_retry_of_accepted (hspends : Spends attempt) {a : α}
    (h : attempt.run s = some (some a, t)) : (retry attempt).run s = some (a, t) := by
  rw [run_retry_eq_succ hspends]
  exact run_bind_of_some h

theorem run_retry_of_refused (hspends : Spends attempt) (h : attempt.run s = some (none, t)) :
    (retry attempt).run s = (retry attempt).run t := by
  have hlt := hspends h
  calc (retry attempt).run s
      = (retryUpTo attempt (WordSource.left s + 1)).run s := run_retry_eq_succ hspends s
    _ = (retryUpTo attempt (WordSource.left s)).run t := run_bind_of_some h
    _ = (retry attempt).run t := retryUpTo_of_left_le hspends (by omega)

end Attempts

/-! ## One word at a time -/

section Scaled

variable {bits n zone w : Nat} {word : Draw σ Nat} {s t : σ}

theorem spends_attempt (hword : Spends word) :
    Spends (do return scale? bits n zone (← word) : Draw σ (Option Nat)) := by
  intro s u found h
  obtain ⟨w, t, hrun, h⟩ := run_bind_eq_some_iff.mp h
  cases h
  exact hword hrun

theorem run_scaled_of_some {v : Nat} (hword : Spends word) (h : word.run s = some (w, t))
    (hv : scale? bits n zone w = some v) : (scaled bits n zone word).run s = some (v, t) := by
  refine run_retry_of_accepted (spends_attempt hword) ?_
  rw [run_bind_of_some h, hv]
  rfl

theorem run_scaled_of_none (hword : Spends word) (h : word.run s = some (w, t))
    (hv : scale? bits n zone w = none) :
    (scaled bits n zone word).run s = (scaled bits n zone word).run t := by
  refine run_retry_of_refused (spends_attempt hword) ?_
  rw [run_bind_of_some h, hv]
  rfl

end Scaled

end QuerySynth.Draw
