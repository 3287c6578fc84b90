import QuerySynth.Config.Basic
import QuerySynth.Proofs.Steps

/-!
# What a passed check says

A configuration passes its check exactly if every weight group has its arity and
a sum of 32 bits, the two limits are positive, and the decay is a number from
zero to one.

The weights of a group are added up word by word, up to the first sum that is too
large.  No sum on the way is larger than the last, so that comes to the same as the
exact sum.
-/

namespace QuerySynth

namespace Weights

/-! ## Sums of weights -/

theorem add?_eq_some_iff {a b total : UInt32} :
    add? a b = some total ↔ a.toNat + b.toNat = total.toNat := by
  have htotal := total.toNat_lt
  unfold add?
  split
  · next hfits =>
      rw [Option.some.injEq, ← UInt32.toNat_inj, UInt32.toNat_add, Nat.mod_eq_of_lt hfits]
  · next hlarge =>
      have hne : a.toNat + b.toNat ≠ total.toNat := fun heq => hlarge (heq ▸ htotal)
      simp only [reduceCtorEq, hne]

theorem add?_eq_none_iff {a b : UInt32} :
    add? a b = none ↔ UInt32.size ≤ a.toNat + b.toNat := by
  simp only [add?, ite_eq_right_iff, reduceCtorEq, imp_false, Nat.not_lt]

/-- Going on from any start, weights are added up to the exact sum, if that is a weight. -/
theorem foldlM_add?_eq_some_iff {weights : List UInt32} {start total : UInt32} :
    weights.foldlM add? start = some total ↔ start.toNat + sum weights = total.toNat := by
  induction weights generalizing start with
  | nil =>
      rw [List.foldlM_nil, sum, Nat.add_zero, UInt32.toNat_inj]
      exact Option.some_inj
  | cons weight rest ih =>
      rw [List.foldlM_cons, sum, ← Nat.add_assoc]
      cases hsum : add? start weight with
      | some next =>
          rw [add?_eq_some_iff.mp hsum]
          exact ih
      | none =>
          have hlarge := add?_eq_none_iff.mp hsum
          have htotal : total.toNat < UInt32.size := total.toNat_lt
          have hne : start.toNat + weight.toNat + sum rest ≠ total.toNat := by omega
          simp only [hne, iff_false]
          exact nofun

theorem addUp?_eq_some_iff {weights : List UInt32} {total : UInt32} :
    addUp? weights = some total ↔ sum weights = total.toNat := by
  rw [addUp?, foldlM_add?_eq_some_iff, UInt32.toNat_zero, Nat.zero_add]

/-- Weights cannot be added up exactly if their exact sum is too large for a weight. -/
theorem isNone_addUp?_iff {weights : List UInt32} :
    (addUp? weights).isNone = true ↔ UInt32.size ≤ sum weights := by
  rw [Option.isNone_iff_eq_none, Option.eq_none_iff_forall_ne_some]
  simp only [ne_eq, addUp?_eq_some_iff]
  constructor
  · intro h
    refine Nat.not_lt.mp fun hlt => h (UInt32.ofNat (sum weights)) ?_
    exact (UInt32.toNat_ofNat_of_lt hlt).symm
  · intro h total htotal
    have hlt : total.toNat < UInt32.size := total.toNat_lt
    omega

/-! ## Groups -/

/-- The list passes the check of the group. -/
def Passes (group : WeightGroup) (list : List UInt32) : Prop :=
  list.length = group.arity ∧ sum list < UInt32.size

instance (group : WeightGroup) (list : List UInt32) : Decidable (Passes group list) :=
  inferInstanceAs (Decidable (_ ∧ _))

/-- The check of a group, told by the exact sum. -/
theorem checkGroup_eq (weights : Weights) (group : WeightGroup) :
    weights.checkGroup group =
      if (weights.get group).length ≠ group.arity then
        .error (.weightArity group (weights.get group).length)
      else if UInt32.size ≤ sum (weights.get group) then .error (.weightSum group)
      else .ok () := by
  simp only [checkGroup, isNone_addUp?_iff]

theorem checkGroup_eq_ok_iff {weights : Weights} {group : WeightGroup} :
    weights.checkGroup group = .ok () ↔
      (weights.get group).length = group.arity ∧ sum (weights.get group) < UInt32.size := by
  rw [checkGroup_eq]
  by_cases harity : (weights.get group).length = group.arity
  · by_cases hsum : UInt32.size ≤ sum (weights.get group)
    · have hnot : ¬ sum (weights.get group) < UInt32.size := Nat.not_lt.mpr hsum
      simp [harity, hsum, hnot]
    · have hlt : sum (weights.get group) < UInt32.size := Nat.lt_of_not_le hsum
      simp [harity, hsum, hlt]
  · simp [harity]

theorem check_eq_ok_iff {weights : Weights} :
    weights.check = .ok () ↔ ∀ group : WeightGroup,
      (weights.get group).length = group.arity ∧ sum (weights.get group) < UInt32.size := by
  rw [check, forM_eq_ok_iff]
  constructor
  · exact fun h group => checkGroup_eq_ok_iff.mp (h group group.mem_all)
  · exact fun h group _ => checkGroup_eq_ok_iff.mpr (h group)

end Weights

theorem Config.check_eq_ok_iff {config : Config} :
    config.check = .ok () ↔ config.weights.check = .ok () ∧ config.idenLen ≠ 0 ∧
      config.selectLimit ≠ 0 ∧ (0.0 ≤ config.andDecay ∧ config.andDecay ≤ 1.0) := by
  unfold Config.check
  refine sequence_eq_ok_iff.trans (and_congr_right fun _ => ?_)
  refine guard_eq_ok_iff.trans (and_congr_right fun _ => ?_)
  refine guard_eq_ok_iff.trans (and_congr_right fun _ => ?_)
  by_cases hdecay : 0.0 ≤ config.andDecay ∧ config.andDecay ≤ 1.0
  · simp [hdecay, pure, Except.pure]
  · simp only [hdecay, decide_false, Bool.not_false, if_true, iff_false]
    exact nofun

end QuerySynth
