import QuerySynth.Config.Preset
import QuerySynth.Proofs.Random.Choice

/-!
# What presets leave of a configuration

An active preset puts lists of its own in the place of whole weight groups, so
nothing is left there of the configuration it is applied to.  A list that singles
out one option leaves no other option possible.
-/

namespace QuerySynth

namespace SelectPreset

/-- The weights have the lists of the select half. -/
structure Change.Fixes (change : Change) (weights : Weights) : Prop where
  result : weights.result = change.result
  tuple : ∀ list ∈ change.tuple, weights.tuple = list

theorem exists_change? {preset : SelectPreset} (h : preset ≠ .none) :
    ∃ change, preset.change? = some change := by
  cases preset with
  | none => exact absurd rfl h
  | boolean | tuple | single => exact ⟨_, rfl⟩

end SelectPreset

namespace FamilyPreset

/-- The weights have the lists of the family half. -/
structure Change.Fixes (change : Change) (weights : Weights) : Prop where
  clauseFamily : ∀ list ∈ change.clauseFamily, weights.clauseFamily = list
  relation : ∀ list ∈ change.relation, weights.relation = list
  transitive : ∀ list ∈ change.transitive, weights.transitive = list
  pattern : ∀ list ∈ change.pattern, weights.pattern = list

theorem eq_of_possible_only {α : Type} [BEq α] [LawfulBEq α] {options : List α} {option a : α}
    (h : (Options.ofWeights options (only options option)).Possible a) : a = option := by
  obtain ⟨weight, hmem, hweight⟩ := h
  obtain ⟨i, hi⟩ := List.mem_iff_getElem?.mp hmem
  obtain ⟨hplace, hlisted⟩ := List.getElem?_zip_eq_some.mp hi
  rw [only, List.getElem?_map, hplace] at hlisted
  have hvalue : (if a == option then 1 else 0) = weight := Option.some.inj hlisted
  -- any other option has the weight zero in this list
  by_cases heq : (a == option) = true
  · exact eq_of_beq heq
  · rw [if_neg heq] at hvalue
    rw [← hvalue] at hweight
    exact absurd hweight (by decide)

end FamilyPreset

namespace Preset

variable {preset : Preset} {change : SelectPreset.Change} {base : Config}

theorem comment?_apply (h : preset.select.change? = some change) :
    preset.comment? = some (preset.apply base).comment := by
  simp only [comment?, apply, h, Option.map_some]

theorem lenQueries_apply (h : preset.select.change? = some change) :
    (preset.apply base).lenQueries = 2 := by
  simp only [apply, h]

theorem andLimit_apply (h : preset.select.change? = some change) :
    (preset.apply base).andLimit = 2 := by
  simp only [apply, h]

theorem select_fixes_apply (h : preset.select.change? = some change) :
    change.Fixes (preset.apply base).weights := by
  simp only [apply, h]
  refine ⟨rfl, fun list hlist => ?_⟩
  rw [Option.mem_def.mp hlist, Option.getD_some]

theorem family_fixes_apply (h : preset.select.change? = some change) :
    preset.family.change.Fixes (preset.apply base).weights := by
  simp only [apply, h]
  refine ⟨?_, ?_, ?_, ?_⟩
  all_goals
    intro list hlist
    rw [Option.mem_def.mp hlist, Option.getD_some]

end Preset

end QuerySynth
