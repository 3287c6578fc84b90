import QuerySynth.Proofs.Random.Choice

/-!
# Single runs

One run of a draw, from a source to what it ends with and to the words it leaves.
A sequence runs its first part, and then what follows the value of that part; an
error in the first part is the end of the run.
-/

namespace QuerySynth

namespace Draw

/-! ## Draws without errors -/

section Values

variable {σ α β : Type} {draw : Draw σ α} {next : α → Draw σ β} {s t : σ}

theorem run_bind_of_some {a : α} (h : draw.run s = some (a, t)) :
    (draw >>= next).run s = (next a).run t := by
  rw [StateT.run_bind, h]
  rfl

theorem run_bind_of_none (h : draw.run s = none) : (draw >>= next).run s = none := by
  rw [StateT.run_bind, h]
  rfl

theorem run_bind_eq_some_iff {b : β} {u : σ} :
    (draw >>= next).run s = some (b, u) ↔
      ∃ a t, draw.run s = some (a, t) ∧ (next a).run t = some (b, u) := by
  constructor
  · intro h
    cases hdraw : draw.run s with
    | none => cases (run_bind_of_none hdraw).symm.trans h
    | some outcome =>
        obtain ⟨a, t⟩ := outcome
        rw [run_bind_of_some hdraw] at h
        exact ⟨a, t, rfl, h⟩
  · rintro ⟨a, t, hdraw, h⟩
    rwa [run_bind_of_some hdraw]

/-- A sequence sees of its source only what becomes of the first draw. -/
theorem run_bind_congr (h : draw.run s = draw.run t) :
    (draw >>= next).run s = (draw >>= next).run t := by
  rw [StateT.run_bind, StateT.run_bind, h]

end Values

/-! ## Draws with errors -/

section Errors

variable {σ ε α β : Type} {draw : ExceptT ε (Draw σ) α} {next : α → ExceptT ε (Draw σ) β}
  {s t u : σ}

theorem run_bind_of_ok {a : α} (h : draw.run s = some (.ok a, t)) :
    (draw >>= next).run s = (next a).run t := by
  rw [ExceptT.run_bind]
  exact run_bind_of_some h

theorem run_bind_of_error {e : ε} (h : draw.run s = some (.error e, t)) :
    (draw >>= next).run s = some (.error e, t) := by
  rw [ExceptT.run_bind]
  exact run_bind_of_some h

theorem run_bind_cases {outcome : Except ε β} (h : (draw >>= next).run s = some (outcome, u)) :
    (∃ e, draw.run s = some (.error e, u) ∧ outcome = .error e) ∨
      ∃ a t, draw.run s = some (.ok a, t) ∧ (next a).run t = some (outcome, u) := by
  rw [ExceptT.run_bind] at h
  obtain ⟨first, t, hdraw, h⟩ := run_bind_eq_some_iff.mp h
  cases first with
  | error e =>
      cases h
      exact .inl ⟨e, hdraw, rfl⟩
  | ok a => exact .inr ⟨a, t, hdraw, h⟩

theorem run_bind_eq_ok_iff {b : β} :
    (draw >>= next).run s = some (.ok b, u) ↔
      ∃ a t, draw.run s = some (.ok a, t) ∧ (next a).run t = some (.ok b, u) := by
  constructor
  · intro h
    rcases run_bind_cases h with ⟨e, -, hb⟩ | h
    · cases hb
    · exact h
  · rintro ⟨a, t, hdraw, h⟩
    rwa [run_bind_of_ok hdraw]

theorem run_bind_eq_error_iff {e : ε} :
    (draw >>= next).run s = some (.error e, u) ↔
      draw.run s = some (.error e, u) ∨
        ∃ a t, draw.run s = some (.ok a, t) ∧ (next a).run t = some (.error e, u) := by
  constructor
  · intro h
    rcases run_bind_cases h with ⟨e', hdraw, he⟩ | h
    · cases he
      exact .inl hdraw
    · exact .inr h
  · rintro (hdraw | ⟨a, t, hdraw, h⟩)
    · exact run_bind_of_error hdraw
    · rwa [run_bind_of_ok hdraw]

/-- What follows a draw is run only behind values that the draw can end with. -/
theorem bind_congr_of_succeeds {other : α → ExceptT ε (Draw σ) β}
    (h : ∀ a, Succeeds draw a → next a = other a) : draw >>= next = draw >>= other := by
  refine ExceptT.ext (funext fun s => ?_)
  cases hdraw : draw.run s with
  | none =>
      rw [ExceptT.run_bind, ExceptT.run_bind]
      exact (run_bind_of_none hdraw).trans (run_bind_of_none hdraw).symm
  | some result =>
      obtain ⟨outcome, t⟩ := result
      cases outcome with
      | error e => exact (run_bind_of_error hdraw).trans (run_bind_of_error hdraw).symm
      | ok a =>
          rw [run_bind_of_ok hdraw, run_bind_of_ok hdraw, h a (succeeds_of_run hdraw)]

theorem run_pure_eq_ok_iff {a b : α} :
    (pure a : ExceptT ε (Draw σ) α).run s = some (.ok b, t) ↔ a = b ∧ s = t := by
  constructor
  · intro h
    cases h
    exact ⟨rfl, rfl⟩
  · rintro ⟨rfl, rfl⟩
    rfl

theorem run_pure_ne_error {a : α} {e : ε} :
    ¬ (pure a : ExceptT ε (Draw σ) α).run s = some (.error e, t) := by
  intro h
  cases h

theorem lift_pure (a : α) : (ExceptT.lift (pure a) : ExceptT ε (Draw σ) α) = pure a := rfl

theorem lift_bind (draw : Draw σ α) (next : α → Draw σ β) :
    (ExceptT.lift (draw >>= next) : ExceptT ε (Draw σ) β) =
      ExceptT.lift draw >>= fun a => ExceptT.lift (next a) := by
  apply ExceptT.ext
  simp [ExceptT.run_bind, ExceptT.run_lift]

theorem run_lift_eq_ok_iff {draw : Draw σ α} {a : α} :
    (ExceptT.lift draw : ExceptT ε (Draw σ) α).run s = some (.ok a, t) ↔
      draw.run s = some (a, t) := by
  show (draw s).bind (fun first => some (Except.ok first.1, first.2)) = _ ↔ draw s = _
  cases draw s with
  | none => simp
  | some first => simp [Prod.ext_iff]

theorem run_lift_ne_error {draw : Draw σ α} {e : ε} :
    ¬ (ExceptT.lift draw : ExceptT ε (Draw σ) α).run s = some (.error e, t) := by
  show ¬ (draw s).bind (fun first => some (Except.ok first.1, first.2)) = _
  cases draw s with
  | none => simp
  | some first => simp

theorem run_lift_bind_of_some {draw : Draw σ α} {a : α} (h : draw.run s = some (a, t)) :
    (ExceptT.lift draw >>= next).run s = (next a).run t := by
  rw [ExceptT.run_bind_lift]
  exact run_bind_of_some h

theorem run_lift_bind_congr {draw : Draw σ α} (h : draw.run s = draw.run t) :
    (ExceptT.lift draw >>= next).run s = (ExceptT.lift draw >>= next).run t := by
  rw [ExceptT.run_bind_lift]
  exact run_bind_congr h

end Errors

end Draw

/-! ## Choices -/

namespace Choose

variable {σ α : Type} [WordSource σ]

/-- Where an option is possible, a number below the total is drawn. -/
theorem weighted_eq_bind {group : String} {options : Options α} (h : 0 < options.total) :
    (weighted group options : Choose σ α) =
      ExceptT.lift (Draw.evenBelow64 options.total) >>= fun drawn =>
        inRange (options.at? drawn) := by
  have hne : ¬ options.total = 0 := by omega
  unfold weighted
  simp only [hne, if_false]

/-- Where no option is possible no word is taken. -/
theorem run_weighted_of_not_possible {group : String} {options : Options α}
    (h : ∀ a, ¬ options.Possible a) (s : σ) :
    (weighted group options : Choose σ α).run s = some (.error (.zeroWeights group), s) := by
  have htotal : options.total = 0 := options.total_eq_zero_iff.mpr h
  unfold weighted
  simp only [htotal, if_true]
  rfl

/-- Where there are items, a place among them is drawn. -/
theorem uniform_eq_bind {what : String} {items : List α} (h : items ≠ []) :
    (uniform what items : Choose σ α) =
      ExceptT.lift (Draw.place items.length) >>= fun drawn => inRange items[drawn]? := by
  have hne : ¬ items.isEmpty = true := fun hempty => h (List.isEmpty_iff.mp hempty)
  unfold uniform
  simp only [hne]
  rfl

end Choose

end QuerySynth
