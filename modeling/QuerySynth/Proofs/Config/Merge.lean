import QuerySynth.Proofs.Config.Check
import QuerySynth.Proofs.Config.Preset

/-!
# Configurations under a preset

A preset puts a table of lists over the weights of a configuration, and sizes and a
comment of its own over some other settings.

* Every list of the table passes the check of its group, so the lists that are put over
  checked weights leave them checked, whichever groups they replace.
* What is put over a configuration a second time is there already.
* A group without a list in the table keeps its weights, and whatever is no weight, size
  or comment of the preset stays as it was.
-/

namespace QuerySynth

namespace PerGroup

variable {α : Type}

theorem override_none (base : PerGroup α) : base.override none = base := by
  ext1 group
  simp [get_override]

theorem override_override (base : PerGroup α) (changes : PerGroup (Option α)) :
    (base.override changes).override changes = base.override changes := by
  ext1 group
  simp only [get_override]
  cases changes.get group <;> rfl

end PerGroup

/-! ## Lists that pass the check -/

namespace Weights

/-- Lists that pass may be put over weights that are checked, for any groups. -/
theorem check_override {weights : Weights} {changes : PerGroup (Option (List UInt32))}
    (h : weights.check = .ok ())
    (hchanges : ∀ group, ∀ list ∈ changes.get group, Passes group list) :
    check (weights.override changes) = .ok () := by
  rw [check_eq_ok_iff] at h ⊢
  intro group
  rw [PerGroup.get_override]
  cases hlist : changes.get group with
  | none => exact h group
  | some list => exact hchanges group list hlist

end Weights

theorem SelectPreset.passes_change {preset : SelectPreset} {change : Change}
    (h : preset.change? = some change) :
    Weights.Passes .result change.result ∧ ∀ list ∈ change.tuple, Weights.Passes .tuple list := by
  cases preset with
  | none => cases h
  | boolean =>
      cases h
      exact ⟨by decide, nofun⟩
  | tuple | single =>
      cases h
      refine ⟨by decide, ?_⟩
      rintro list ⟨⟩
      decide

namespace FamilyPreset

theorem sum_only_le {α : Type} [BEq α] (options : List α) (option : α) :
    Weights.sum (only options option) ≤ options.length := by
  induction options with
  | nil => exact Nat.le_refl 0
  | cons other options ih =>
      have hweight : (if other == option then (1 : UInt32) else 0).toNat ≤ 1 := by
        split <;> decide
      simp only [only, List.map_cons, Weights.sum, List.length_cons] at ih ⊢
      omega

/-- A list that singles out an option has one weight for each, and a sum of at most one for
each. -/
theorem passes_only {α : Type} [BEq α] {options : List α} {group : WeightGroup}
    (h : options.length = group.arity) (option : α) :
    Weights.Passes group (only options option) := by
  have hsum := sum_only_le options option
  have hsize : group.arity < UInt32.size := by cases group <;> decide
  exact ⟨by simp [only, h], by omega⟩

/-- The lists of a family half pass the checks of their groups. -/
structure Change.Passes (change : Change) : Prop where
  clauseFamily : ∀ list ∈ change.clauseFamily, Weights.Passes .clauseFamily list
  relation : ∀ list ∈ change.relation, Weights.Passes .relation list
  transitive : ∀ list ∈ change.transitive, Weights.Passes .transitive list
  pattern : ∀ list ∈ change.pattern, Weights.Passes .pattern list

theorem passes_change (preset : FamilyPreset) : preset.change.Passes := by
  cases preset with
  | iterationMix =>
      refine ⟨nofun, ?_, nofun, ?_⟩
      · rintro list ⟨⟩
        decide
      · rintro list ⟨⟩
        decide
  | relation named starred =>
      refine ⟨?_, ?_, ?_, nofun⟩
      · rintro list ⟨⟩
        exact passes_only rfl _
      · rintro list ⟨⟩
        exact passes_only rfl _
      · intro list hlist
        simp only [change, Option.mem_def, Option.ite_none_right_eq_some,
          Option.some.injEq] at hlist
        rw [← hlist.2]
        exact passes_only rfl _
  | pattern kind =>
      refine ⟨?_, nofun, nofun, ?_⟩
      · rintro list ⟨⟩
        exact passes_only rfl _
      · rintro list ⟨⟩
        exact passes_only rfl _
  | equation =>
      refine ⟨?_, nofun, nofun, nofun⟩
      rintro list ⟨⟩
      exact passes_only rfl _

end FamilyPreset

/-! ## What a preset replaces -/

namespace Preset

/-- The lists that a preset has for weight groups. -/
def replaced (preset : Preset) : PerGroup (Option (List UInt32)) :=
  match preset.select.change? with
  | none => .none
  | some select =>
      { result := some select.result
        tuple := select.tuple
        elem := none
        clauseFamily := preset.family.change.clauseFamily
        relation := preset.family.change.relation
        transitive := preset.family.change.transitive
        withRef := none
        attrName := none
        pattern := preset.family.change.pattern }

variable {preset : Preset} {base : Config}

theorem passes_replaced (preset : Preset) (group : WeightGroup) :
    ∀ list ∈ preset.replaced.get group, Weights.Passes group list := by
  unfold replaced
  have hfamily := preset.family.passes_change
  cases hselect : preset.select.change? with
  | none => simp
  | some select =>
      obtain ⟨hresult, htuple⟩ := SelectPreset.passes_change hselect
      cases group with
      | result =>
          rintro list ⟨⟩
          exact hresult
      | tuple => exact htuple
      | elem | withRef | attrName => exact nofun
      | clauseFamily => exact hfamily.clauseFamily
      | relation => exact hfamily.relation
      | transitive => exact hfamily.transitive
      | pattern => exact hfamily.pattern

theorem weights_apply (preset : Preset) (base : Config) :
    (preset.apply base).weights = base.weights.override preset.replaced := by
  unfold apply replaced
  cases preset.select.change? with
  | none => exact (PerGroup.override_none _).symm
  | some select =>
      ext1 group
      rw [PerGroup.get_override]
      cases group <;> rfl

theorem apply_of_none (h : preset.select = .none) (base : Config) : preset.apply base = base := by
  simp only [apply, h, SelectPreset.change?]

theorem apply_of_change {change : SelectPreset.Change} (h : preset.select.change? = some change)
    (base : Config) :
    preset.apply base = { base with
      numQueries := 20
      lenQueries := 2
      pools := { base.pools with standard := 5 }
      idenLen := 2
      andLimit := 2
      comment := change.label ++ " - " ++ preset.family.change.label
      weights := base.weights.override preset.replaced } := by
  rw [← weights_apply]
  simp only [apply, h]

/-- The preset has a length of names of its own, and no other limit that is checked. -/
theorem check_apply (h : base.check = .ok ()) : (preset.apply base).check = .ok () := by
  obtain ⟨hweights, hlength, hlimit, hdecay⟩ := Config.check_eq_ok_iff.mp h
  have hmerged : (preset.apply base).weights.check = .ok () := by
    rw [weights_apply]
    exact Weights.check_override hweights preset.passes_replaced
  refine Config.check_eq_ok_iff.mpr ⟨hmerged, ?_⟩
  cases hselect : preset.select.change? with
  | none =>
      simp only [apply, hselect]
      exact ⟨hlength, hlimit, hdecay⟩
  | some change =>
      have hnames : (2 : UInt64) ≠ 0 := by decide
      rw [apply_of_change hselect]
      exact ⟨hnames, hlimit, hdecay⟩

theorem apply_apply (preset : Preset) (base : Config) :
    preset.apply (preset.apply base) = preset.apply base := by
  cases hselect : preset.select.change? with
  | none => simp only [apply, hselect]
  | some change =>
      simp only [apply_of_change hselect, PerGroup.override_override]

/-- No preset has lists for the elements of results and the sides of equations. -/
theorem replaced_eq_none {group : WeightGroup} (h : group ∈ [.elem, .withRef, .attrName]) :
    preset.replaced.get group = none := by
  simp only [List.mem_cons, List.not_mem_nil, or_false] at h
  unfold replaced
  cases preset.select.change? with
  | none => exact PerGroup.get_none group
  | some change => rcases h with rfl | rfl | rfl <;> rfl

/-- The settings differ at most in those that presets have values for, and the weights at
most in the groups that this one has lists for. -/
structure Spares (preset : Preset) (base after : Config) : Prop where
  settings : after = { base with
    numQueries := after.numQueries
    lenQueries := after.lenQueries
    pools := { base.pools with standard := after.pools.standard }
    idenLen := after.idenLen
    andLimit := after.andLimit
    comment := after.comment
    weights := after.weights }
  weights : ∀ group, preset.replaced.get group = none →
    after.weights.get group = base.weights.get group
  kept : ∀ group ∈ [WeightGroup.elem, .withRef, .attrName],
    after.weights.get group = base.weights.get group

theorem spares_apply (preset : Preset) (base : Config) :
    preset.Spares base (preset.apply base) := by
  have hweights : ∀ group, preset.replaced.get group = none →
      (preset.apply base).weights.get group = base.weights.get group := by
    intro group hgroup
    rw [weights_apply, PerGroup.get_override, hgroup, Option.getD_none]
  refine ⟨?_, hweights, fun group hgroup => hweights group (replaced_eq_none hgroup)⟩
  cases hselect : preset.select.change? with
  | none => simp only [apply, hselect]
  | some change => rw [apply_of_change hselect]

/-- A preset may be put over any checked configuration, and over any configuration once or
more often; it changes what it is about and nothing besides. -/
theorem apply_lawful (preset : Preset) (base : Config) :
    (base.check = .ok () → (preset.apply base).check = .ok ()) ∧
      preset.apply (preset.apply base) = preset.apply base ∧
      (preset.select = .none → preset.apply base = base) ∧
      preset.Spares base (preset.apply base) :=
  ⟨check_apply, apply_apply preset base, fun h => apply_of_none h base, spares_apply preset base⟩

/-- A configuration with sizes, limits and weights of its own. -/
def unusual : Config where
  weights := { Weights.standard with elem := [0, 7], relation := [9, 9, 9, 9, 0, 9, 9] }
  pools := { overrides := (PerKind.fill none).set .stmt (some 4) }
  andDecay := 0.25
  selectLimit := 3
  allowError := true

/-- Under single results over `Parent*` the lists of the configuration for elements and
patterns stay, and those for relations go. -/
theorem apply_unusual_lawful :
    unusual.check = .ok () ∧
      (apply ⟨.single, .relation .parent true⟩ unusual).check = .ok () ∧
      (apply ⟨.single, .relation .parent true⟩ unusual).weights.elem = [0, 7] ∧
      (apply ⟨.single, .relation .parent true⟩ unusual).weights.pattern = [1, 1, 1] ∧
      (apply ⟨.single, .relation .parent true⟩ unusual).weights.relation =
        [0, 0, 0, 1, 0, 0, 0] ∧
      apply ⟨.none, .relation .parent true⟩ unusual = unusual := by
  have hcheck : unusual.check = .ok () := by rfl
  refine ⟨hcheck, ?_, ?_, ?_, rfl, ?_⟩
  · exact (apply_lawful ⟨.single, .relation .parent true⟩ unusual).1 hcheck
  · exact (apply_lawful ⟨.single, .relation .parent true⟩ unusual).2.2.2.kept .elem (by decide)
  · exact (apply_lawful ⟨.single, .relation .parent true⟩ unusual).2.2.2.weights .pattern rfl
  · exact (apply_lawful ⟨.none, .relation .parent true⟩ unusual).2.2.1 rfl

end Preset

end QuerySynth
