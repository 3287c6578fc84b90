import QuerySynth.Config.Weights
import QuerySynth.Grammar.Kind

/-!
# Steps that can fail

What a chain of steps says that has come to a result: every step of it has come to
one.  A chain that has come to an error has it from one step, and every step before that
has come to a result.  A table is read exactly if the entry of every group, or of every kind, is
read.
-/

namespace QuerySynth

variable {ε α β : Type}

theorem bind_eq_ok_iff {first : Except ε α} {next : α → Except ε β} {b : β} :
    first >>= next = .ok b ↔ ∃ a, first = .ok a ∧ next a = .ok b := by
  cases first with
  | error e => exact ⟨nofun, nofun⟩
  | ok a =>
      constructor
      · exact fun h => ⟨a, rfl, h⟩
      · rintro ⟨_, ⟨⟩, h⟩
        exact h

theorem sequence_eq_ok_iff {check : Except ε Unit} {next : Except ε α} {a : α} :
    (do check; next) = .ok a ↔ check = .ok () ∧ next = .ok a :=
  bind_eq_ok_iff.trans ⟨fun ⟨_, h⟩ => h, fun h => ⟨(), h⟩⟩

theorem sequence_eq_error_iff {check : Except ε Unit} {next : Except ε α} {e : ε} :
    (do check; next) = .error e ↔ check = .error e ∨ check = .ok () ∧ next = .error e := by
  cases check with
  | error e' =>
      constructor
      · rintro ⟨⟩
        exact .inl rfl
      · rintro (⟨⟨⟩⟩ | ⟨⟨⟩, -⟩)
        rfl
  | ok _ =>
      constructor
      · exact fun h => .inr ⟨rfl, h⟩
      · rintro (⟨⟨⟩⟩ | ⟨-, h⟩)
        exact h

theorem guard_eq_ok_iff {p : Prop} [Decidable p] {e : ε} {next : Except ε α} {a : α} :
    (do
      if p then
        throw e
      next) = .ok a ↔ ¬ p ∧ next = .ok a := by
  by_cases hp : p
  · simp only [hp, if_true, not_true_eq_false, false_and, iff_false]
    exact nofun
  · simp only [hp, if_false, not_false_eq_true, true_and]

theorem forM_eq_ok_iff {items : List α} {check : α → Except ε Unit} :
    items.forM check = .ok () ↔ ∀ item ∈ items, check item = .ok () := by
  induction items with
  | nil => exact ⟨fun _ => by simp, fun _ => rfl⟩
  | cons item items ih =>
      rw [List.forall_mem_cons, ← ih]
      exact sequence_eq_ok_iff

/-- The error of a list of checks is the error of one item, and the items before it pass. -/
theorem forM_eq_error_iff {items : List α} {check : α → Except ε Unit} {e : ε} :
    items.forM check = .error e ↔ ∃ before item after, items = before ++ item :: after ∧
      (∀ other ∈ before, check other = .ok ()) ∧ check item = .error e := by
  induction items with
  | nil =>
      refine ⟨nofun, ?_⟩
      rintro ⟨before, item, after, hitems, -⟩
      cases before <;> cases hitems
  | cons first items ih =>
      refine sequence_eq_error_iff.trans ⟨?_, ?_⟩
      · rintro (hfirst | ⟨hfirst, h⟩)
        · exact ⟨[], first, items, rfl, nofun, hfirst⟩
        · obtain ⟨before, item, after, rfl, hbefore, hitem⟩ := ih.mp h
          exact ⟨first :: before, item, after, rfl,
            List.forall_mem_cons.mpr ⟨hfirst, hbefore⟩, hitem⟩
      · rintro ⟨before, item, after, hitems, hbefore, hitem⟩
        cases before with
        | nil =>
            cases hitems
            exact .inl hitem
        | cons other before =>
            cases hitems
            obtain ⟨hfirst, hbefore⟩ := List.forall_mem_cons.mp hbefore
            exact .inr ⟨hfirst, ih.mpr ⟨before, item, after, rfl, hbefore, hitem⟩⟩

theorem exists_of_mem_mapM {read : α → Except ε β} {items : List α} {results : List β}
    (h : items.mapM read = .ok results) :
    ∀ result ∈ results, ∃ item ∈ items, read item = .ok result := by
  induction items generalizing results with
  | nil =>
      cases h
      exact nofun
  | cons item items ih =>
      rw [List.mapM_cons] at h
      obtain ⟨first, hfirst, h⟩ := bind_eq_ok_iff.mp h
      obtain ⟨others, hothers, h⟩ := bind_eq_ok_iff.mp h
      cases h
      refine List.forall_mem_cons.mpr ⟨⟨item, List.mem_cons_self, hfirst⟩, ?_⟩
      intro result hresult
      obtain ⟨other, hother, hread⟩ := ih hothers result hresult
      exact ⟨other, List.mem_cons_of_mem _ hother, hread⟩

theorem PerGroup.generate_eq_ok_iff {entry : WeightGroup → Except ε α} {table : PerGroup α} :
    generate entry = .ok table ↔ ∀ group, entry group = .ok (table.get group) := by
  constructor
  · simp only [generate, bind_eq_ok_iff, pure, Except.pure, Except.ok.injEq]
    rintro ⟨_, _, _, _, _, _, _, _, _, _, _, _, _, _, _, _, _, _, rfl⟩ group
    cases group <;> assumption
  · intro h
    simp only [generate, h]
    rfl

theorem PerKind.generate_eq_ok_iff {entry : Kind → Except ε α} {table : PerKind α} :
    generate entry = .ok table ↔ ∀ kind, entry kind = .ok (table.get kind) := by
  constructor
  · simp only [generate, bind_eq_ok_iff, pure, Except.pure, Except.ok.injEq]
    rintro ⟨_, _, _, _, _, _, _, _, _, _, _, _, _, _, _, _, _, _, _, _, _, _, rfl⟩ kind
    cases kind <;> assumption
  · intro h
    simp only [generate, h]
    rfl

end QuerySynth
