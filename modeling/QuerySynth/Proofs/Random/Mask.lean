import QuerySynth.Random.Choice

/-!
# Options without weight

A weighted choice goes by the total and by running sums, and an option without weight
adds to neither.  Such options may be taken out of a list or put into it, at any place:
the choice takes the same words and ends the same way.  To mask an option is therefore
to take it away.
-/

namespace QuerySynth

namespace Options

variable {α : Type}

/-- The options that have a weight. -/
def positive (options : Options α) : Options α := options.filter fun (_, weight) => 0 < weight

theorem positive_cons_of_pos {a : α} {weight : UInt32} (h : 0 < weight) (rest : Options α) :
    positive ((a, weight) :: rest) = (a, weight) :: rest.positive :=
  List.filter_cons_of_pos (by simpa using h)

theorem positive_cons_of_not_pos {a : α} {weight : UInt32} (h : ¬ 0 < weight)
    (rest : Options α) : positive ((a, weight) :: rest) = rest.positive :=
  List.filter_cons_of_neg (by simpa using h)

theorem toNat_eq_zero_of_not_pos {weight : UInt32} (h : ¬ 0 < weight) : weight.toNat = 0 := by
  rw [UInt32.lt_iff_toNat_lt, UInt32.toNat_zero] at h
  omega

theorem total_positive (options : Options α) : options.positive.total = options.total := by
  induction options with
  | nil => rfl
  | cons head rest ih =>
      obtain ⟨a, weight⟩ := head
      by_cases hweight : 0 < weight
      · rw [positive_cons_of_pos hweight, total, total, ih]
      · rw [positive_cons_of_not_pos hweight, total, ih, toNat_eq_zero_of_not_pos hweight,
          Nat.zero_add]

theorem at?_positive (options : Options α) (drawn : Nat) :
    options.positive.at? drawn = options.at? drawn := by
  induction options generalizing drawn with
  | nil => rfl
  | cons head rest ih =>
      obtain ⟨a, weight⟩ := head
      by_cases hweight : 0 < weight
      · rw [positive_cons_of_pos hweight, at?, at?, ih]
      -- the running sum stands still over an option without weight
      · rw [positive_cons_of_not_pos hweight, at?, ih, toNat_eq_zero_of_not_pos hweight,
          if_neg (Nat.not_lt_zero drawn), Nat.sub_zero]

theorem positive_mask (options : Options α) (available : α → Bool) :
    (options.mask available).positive =
      options.filter fun (a, weight) => available a && 0 < weight := by
  induction options with
  | nil => rfl
  | cons head rest ih =>
      obtain ⟨a, weight⟩ := head
      have hmask : mask ((a, weight) :: rest) available =
          (a, if available a then weight else 0) :: mask rest available := rfl
      rw [hmask]
      by_cases hkept : available a = true ∧ 0 < weight
      · obtain ⟨havailable, hweight⟩ := hkept
        rw [if_pos havailable, positive_cons_of_pos hweight, ih,
          List.filter_cons_of_pos (by simp [havailable, hweight])]
      · have hnone : ¬ 0 < if available a then weight else 0 := by
          split
          · next havailable => exact fun hweight => hkept ⟨havailable, hweight⟩
          · decide
        rw [positive_cons_of_not_pos hnone, ih, List.filter_cons_of_neg (by simpa using hkept)]

theorem positive_insert_zero (front back : Options α) (a : α) :
    positive (front ++ (a, 0) :: back) = positive (front ++ back) := by
  unfold positive
  rw [List.filter_append, List.filter_append, List.filter_cons_of_neg (by simp)]

end Options

namespace Choose

variable {σ α : Type} [WordSource σ]

/-- Only the options with a weight take part in a choice. -/
theorem weighted_positive (group : String) (options : Options α) :
    (weighted group options.positive : Choose σ α) = weighted group options := by
  unfold weighted
  simp only [Options.total_positive, Options.at?_positive]

/-- A choice from masked options is the choice from the options that are available and
have a weight; wherever an option without weight stands in a list, the choice is the same
without it. -/
theorem weighted_mask (group : String) (options : Options α) (available : α → Bool) :
    (weighted group (options.mask available) : Choose σ α) =
        weighted group (options.filter fun (a, weight) => available a && 0 < weight) ∧
      ∀ (front back : Options α) (a : α),
        (weighted group (front ++ (a, 0) :: back) : Choose σ α) =
          weighted group (front ++ back) := by
  refine ⟨?_, fun front back a => ?_⟩
  · rw [← Options.positive_mask, weighted_positive]
  · rw [← weighted_positive, Options.positive_insert_zero, weighted_positive]

end Choose

end QuerySynth
