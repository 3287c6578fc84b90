import QuerySynth.Random.Choice

/-!
# Outcomes of draws

What a draw can end with, over every source and every state of it.  `Yields`
speaks of draws that can only give a value; `Succeeds` and `Fails` of draws that
may also end in an error of their own.

* The rules for `pure`, `throw` and bind take a finished run apart, so that the
  proof of a drawing function follows its `do` block line by line.
* Runs on a dry source end with nothing and are not outcomes; none of the
  statements below says that a draw ends.
-/

namespace QuerySynth.Draw

variable {σ ε α β : Type}

/-- Some run of the draw ends with the value. -/
def Yields (draw : Draw σ α) (a : α) : Prop := ∃ s t, draw s = some (a, t)

/-- Some run succeeds with the value. -/
def Succeeds (draw : ExceptT ε (Draw σ) α) (a : α) : Prop := Yields draw.run (.ok a)

/-- Some run ends with the error. -/
def Fails (draw : ExceptT ε (Draw σ) α) (e : ε) : Prop := Yields draw.run (.error e)

/-! ## Draws without errors -/

theorem yields_pure {a b : α} (h : Yields (pure a : Draw σ α) b) : b = a := by
  obtain ⟨s, t, h⟩ := h
  have hrun : some (a, s) = some (b, t) := h
  exact (Prod.mk.inj (Option.some.inj hrun)).1.symm

theorem not_yields_failure {a : α} : ¬ Yields (failure : Draw σ α) a := by
  rintro ⟨s, t, h⟩
  cases h

theorem yields_bind {draw : Draw σ α} {next : α → Draw σ β} {b : β}
    (h : Yields (draw >>= next) b) : ∃ a, Yields draw a ∧ Yields (next a) b := by
  obtain ⟨s, u, h⟩ := h
  simp only [bind, StateT.bind] at h
  cases hdraw : draw s with
  | none => simp [hdraw] at h
  | some outcome =>
      obtain ⟨a, t⟩ := outcome
      simp only [hdraw, Option.bind_some] at h
      exact ⟨a, ⟨s, t, hdraw⟩, ⟨t, u, h⟩⟩

theorem yields_map {draw : Draw σ α} {wrap : α → β} {b : β} (h : Yields (wrap <$> draw) b) :
    ∃ a, Yields draw a ∧ b = wrap a := by
  obtain ⟨s, u, h⟩ := h
  simp only [Functor.map, StateT.map, bind, pure] at h
  cases hdraw : draw s with
  | none => simp [hdraw] at h
  | some outcome =>
      obtain ⟨a, t⟩ := outcome
      simp only [hdraw, Option.bind_some, Option.some.injEq, Prod.mk.injEq] at h
      exact ⟨a, ⟨s, t, hdraw⟩, h.1.symm⟩

/-! ## Draws with errors -/

theorem succeeds_of_run {draw : ExceptT ε (Draw σ) α} {a : α} {s t : σ}
    (h : draw.run s = some (.ok a, t)) : Succeeds draw a := ⟨s, t, h⟩

theorem fails_of_run {draw : ExceptT ε (Draw σ) α} {e : ε} {s t : σ}
    (h : draw.run s = some (.error e, t)) : Fails draw e := ⟨s, t, h⟩

theorem succeeds_pure {a b : α} (h : Succeeds (pure a : ExceptT ε (Draw σ) α) b) : b = a :=
  Except.ok.inj (yields_pure h)

theorem not_fails_pure {a : α} {e : ε} : ¬ Fails (pure a : ExceptT ε (Draw σ) α) e := by
  intro h
  cases yields_pure h

theorem not_succeeds_throw {a : α} {e : ε} :
    ¬ Succeeds (throw e : ExceptT ε (Draw σ) α) a := by
  intro h
  cases yields_pure h

theorem fails_throw {e e' : ε} (h : Fails (throw e' : ExceptT ε (Draw σ) α) e) : e = e' :=
  Except.error.inj (yields_pure h)

theorem succeeds_lift {draw : Draw σ α} {a : α}
    (h : Succeeds (ExceptT.lift draw : ExceptT ε (Draw σ) α) a) : Yields draw a := by
  obtain ⟨b, hb, hab⟩ := yields_map h
  cases hab
  exact hb

theorem not_fails_lift {draw : Draw σ α} {e : ε} :
    ¬ Fails (ExceptT.lift draw : ExceptT ε (Draw σ) α) e := by
  intro h
  obtain ⟨b, -, hb⟩ := yields_map h
  cases hb

theorem succeeds_bind {draw : ExceptT ε (Draw σ) α} {next : α → ExceptT ε (Draw σ) β} {b : β}
    (h : Succeeds (draw >>= next) b) : ∃ a, Succeeds draw a ∧ Succeeds (next a) b := by
  obtain ⟨outcome, hdraw, h⟩ := yields_bind h
  cases outcome with
  | ok a => exact ⟨a, hdraw, h⟩
  | error e => cases yields_pure h

/-- An error of a sequence is an error of its first part, or of what follows the
value of the first part. -/
theorem fails_bind {draw : ExceptT ε (Draw σ) α} {next : α → ExceptT ε (Draw σ) β} {e : ε}
    (h : Fails (draw >>= next) e) :
    Fails draw e ∨ ∃ a, Succeeds draw a ∧ Fails (next a) e := by
  obtain ⟨outcome, hdraw, h⟩ := yields_bind h
  cases outcome with
  | ok a => exact .inr ⟨a, hdraw, h⟩
  | error e' =>
      cases yields_pure h
      exact .inl hdraw

/-- Where the last step only wraps a value, errors come from before it. -/
theorem fails_of_fails_bind_pure {draw : ExceptT ε (Draw σ) α} {wrap : α → β} {e : ε}
    (h : Fails (do return wrap (← draw)) e) : Fails draw e := by
  rcases fails_bind h with h | ⟨a, -, h⟩
  · exact h
  · exact absurd h not_fails_pure

theorem succeeds_bind_pure {draw : ExceptT ε (Draw σ) α} {wrap : α → β} {b : β}
    (h : Succeeds (do return wrap (← draw)) b) : ∃ a, Succeeds draw a ∧ b = wrap a := by
  obtain ⟨a, ha, h⟩ := succeeds_bind h
  exact ⟨a, ha, succeeds_pure h⟩

/-- A guard that throws is passed only where its condition fails. -/
theorem succeeds_guard {p : Prop} [Decidable p] {e : ε} {next : ExceptT ε (Draw σ) α} {a : α}
    (h : Succeeds (do
      if p then
        throw e
      next) a) : ¬ p ∧ Succeeds next a := by
  by_cases hp : p
  · simp only [hp, if_true] at h
    obtain ⟨b, hb, -⟩ := succeeds_bind h
    exact absurd hb not_succeeds_throw
  · simp only [hp, if_false] at h
    exact ⟨hp, h⟩

theorem fails_guard {p : Prop} [Decidable p] {e e' : ε} {next : ExceptT ε (Draw σ) α}
    (h : Fails (do
      if p then
        throw e'
      next) e) : (p ∧ e = e') ∨ (¬ p ∧ Fails next e) := by
  by_cases hp : p
  · simp only [hp, if_true] at h
    rcases fails_bind h with h | ⟨b, hb, -⟩
    · exact .inl ⟨hp, fails_throw h⟩
    · exact absurd hb not_succeeds_throw
  · simp only [hp, if_false] at h
    exact .inr ⟨hp, h⟩

end QuerySynth.Draw
