import QuerySynth.Proofs.Config.Check
import QuerySynth.Proofs.Generate.Equation

/-!
# Sums that are checked, and what they are checked for

Each group is checked for its length and then for its sum.

* The check is passed exactly if every list has the length of its group and an exact sum
  of 32 bits.  Otherwise the error is about the first group in the listed order of which
  that is not true.
* The weight of absent literals is added to the weight of line numbers.  Behind a passed
  check no weight is lost by that: the sum is exact, and the total is what it was.
-/

namespace QuerySynth

/-! ## The first fault -/

namespace Weights

/-- What is wrong with the list of a group: its length or, where that is right, its exact
sum. -/
inductive Fault (group : WeightGroup) (list : List UInt32) : SettingError → Prop where
  | wrongLength : list.length ≠ group.arity → Fault group list (.weightArity group list.length)
  | tooLarge : list.length = group.arity → UInt32.size ≤ sum list →
      Fault group list (.weightSum group)

/-- The error is about the first group in the listed order whose list has a fault. -/
def FirstFault (weights : Weights) (e : SettingError) : Prop :=
  ∃ before group after, WeightGroup.all = before ++ group :: after ∧
    (∀ other ∈ before, Passes other (weights.get other)) ∧ Fault group (weights.get group) e

variable {weights : Weights} {group : WeightGroup} {e : SettingError}

theorem checkGroup_eq_error_iff :
    weights.checkGroup group = .error e ↔ Fault group (weights.get group) e := by
  rw [checkGroup_eq]
  constructor
  · intro h
    split at h
    · next hlength =>
        cases h
        exact .wrongLength hlength
    · next hlength =>
        split at h
        · next hsum =>
            cases h
            exact .tooLarge (Decidable.not_not.mp hlength) hsum
        · cases h
  · rintro (hlength | ⟨hlength, hsum⟩)
    · rw [if_pos hlength]
    · rw [if_neg (not_not_intro hlength), if_pos hsum]

theorem check_eq_error_iff : weights.check = .error e ↔ weights.FirstFault e := by
  rw [check, forM_eq_error_iff]
  simp only [checkGroup_eq_ok_iff, checkGroup_eq_error_iff]
  exact Iff.rfl

end Weights

/-! ## The moved weight -/

namespace EquationScope

/-- What the first side is drawn by, if no weight is lost.  Without literals their weight is
in the exact sum that line numbers have, and the options weigh together what the list does. -/
structure MovesExactly (scope : EquationScope) (weights : List UInt32) : Prop where
  moved : scope.literals = [] → ∃ weight, scope.firstWeights weights =
      [(.literal, 0), (.attr, weights.getD 1 0), (.synonym, weight)] ∧
    weight.toNat = (weights.getD 2 0).toNat + (weights.getD 0 0).toNat
  stayed : scope.literals ≠ [] → scope.firstWeights weights = weightsOf weights
  total_eq : (scope.firstWeights weights).total = (weightsOf weights).total
  total_eq_sum : (weightsOf weights).total = Weights.sum weights

theorem toNat_addWeights_of_lt {a b : UInt32} (h : a.toNat + b.toNat < UInt32.size) :
    (addWeights a b).toNat = a.toNat + b.toNat := by
  rw [toNat_addWeights]
  omega

theorem firstWeights_of_literals {scope : EquationScope} (h : scope.literals ≠ [])
    (weights : List UInt32) : scope.firstWeights weights = weightsOf weights := by
  rw [firstWeights, if_neg (mt List.isEmpty_iff.mp h)]

theorem firstWeights_of_no_literals {scope : EquationScope} (h : scope.literals = [])
    (weights : List UInt32) :
    scope.firstWeights weights = [(.literal, 0), (.attr, weights.getD 1 0),
      (.synonym, addWeights (weights.getD 2 0) (weights.getD 0 0))] := by
  rw [firstWeights, if_pos (List.isEmpty_iff.mpr h)]

/-- A list that passes has room for the moved weight. -/
theorem movesExactly_of_passes {weights : List UInt32} (h : Weights.Passes .withRef weights)
    (scope : EquationScope) : scope.MovesExactly weights := by
  obtain ⟨hlength, hsum⟩ := h
  obtain ⟨literal, attr, line, rfl⟩ := List.length_eq_three.mp hlength
  simp only [Weights.sum, Nat.add_zero] at hsum
  have hmoved : (addWeights line literal).toNat = line.toNat + literal.toNat :=
    toNat_addWeights_of_lt (by omega)
  refine ⟨fun hnone => ?_, fun hsome => firstWeights_of_literals hsome _, ?_, rfl⟩
  · exact ⟨addWeights line literal, firstWeights_of_no_literals hnone _, hmoved⟩
  · by_cases hnone : scope.literals = []
    · rw [firstWeights_of_no_literals hnone]
      show 0 + (attr.toNat + ((addWeights line literal).toNat + 0)) =
        literal.toNat + (attr.toNat + (line.toNat + 0))
      omega
    · rw [firstWeights_of_literals hnone]

end EquationScope

/-! ## Checked sums -/

namespace Weights

/-- A check is passed for exact sums and refused for the first fault, and it rules out that
the weight of absent literals is cut when it is moved. -/
theorem check_exact (weights : Weights) :
    (weights.check = .ok () ↔ ∀ group, Passes group (weights.get group)) ∧
      (∀ e, weights.check = .error e ↔ weights.FirstFault e) ∧
      (weights.check = .ok () →
        ∀ scope : EquationScope, scope.MovesExactly weights.withRef) := by
  refine ⟨check_eq_ok_iff, fun e => check_eq_error_iff, fun hcheck scope => ?_⟩
  exact EquationScope.movesExactly_of_passes (check_eq_ok_iff.mp hcheck .withRef) scope

/-- Weights with the greatest sum there may be for the sides of equations. -/
def brimful : Weights := { standard with withRef := [4294967290, 0, 5] }

/-- Weights with a sum that is too large by one, before a list that is too short. -/
def overfull : Weights :=
  { standard with relation := [4294967295, 0, 0, 0, 0, 0, 1], withRef := [1] }

/-- The greatest sum passes and is moved whole.  Of two faults the sum of the relations is
told, since it comes first. -/
theorem check_brimful_exact :
    brimful.check = .ok () ∧
      (∃ weight, (EquationScope.ofDeclarations .empty {}).firstWeights brimful.withRef =
          [(.literal, 0), (.attr, 0), (.synonym, weight)] ∧ weight.toNat = 4294967295) ∧
      overfull.check = .error (.weightSum .relation) := by
  have hcheck : brimful.check = .ok () := (check_exact brimful).1.mpr fun group => by
    cases group <;> decide
  refine ⟨hcheck, ((check_exact brimful).2.2 hcheck _).moved rfl, ?_⟩
  exact ((check_exact overfull).2.1 _).mpr ⟨[.result, .tuple, .elem, .clauseFamily], .relation,
    [.transitive, .withRef, .attrName, .pattern], rfl, by decide, .tooLarge rfl (by decide)⟩

end Weights

end QuerySynth
