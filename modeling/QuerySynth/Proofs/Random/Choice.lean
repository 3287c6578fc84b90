import QuerySynth.Proofs.Random.Range

/-!
# Outcomes of choices

An option is possible when it carries a positive weight.  A weighted choice ends
with a possible option, and fails only where none is; a uniform choice ends with
an item of its list, and fails only where the list is empty.  Neither asks for a
place outside of its list.
-/

namespace QuerySynth

namespace Options

variable {α : Type}

/-- The option occurs with a positive weight. -/
def Possible (options : Options α) (a : α) : Prop := ∃ weight, (a, weight) ∈ options ∧ 0 < weight

theorem total_eq_zero_iff (options : Options α) :
    options.total = 0 ↔ ∀ a, ¬ options.Possible a := by
  induction options with
  | nil => simp [total, Possible]
  | cons head rest ih =>
      obtain ⟨a, weight⟩ := head
      have hweight : weight.toNat = 0 ↔ ¬ 0 < weight := by
        rw [UInt32.lt_iff_toNat_lt, UInt32.toNat_zero]
        omega
      simp only [total, Nat.add_eq_zero_iff, ih, hweight]
      constructor
      · rintro ⟨hhead, hrest⟩ b ⟨w, hmem, hw⟩
        rcases List.mem_cons.mp hmem with heq | hmem
        · cases heq
          exact hhead hw
        · exact hrest b ⟨w, hmem, hw⟩
      · intro hnone
        refine ⟨fun hw => hnone a ⟨weight, List.mem_cons_self, hw⟩, ?_⟩
        rintro b ⟨w, hmem, hw⟩
        exact hnone b ⟨w, List.mem_cons_of_mem _ hmem, hw⟩

/-- Every number below the total falls to an option, and to a possible one. -/
theorem exists_at?_of_lt_total {options : Options α} {drawn : Nat}
    (h : drawn < options.total) : ∃ a, options.at? drawn = some a ∧ options.Possible a := by
  induction options generalizing drawn with
  | nil => simp [total] at h
  | cons head rest ih =>
      obtain ⟨a, weight⟩ := head
      rw [total] at h
      rw [at?]
      by_cases hdrawn : drawn < weight.toNat
      · have hweight : 0 < weight := by
          rw [UInt32.lt_iff_toNat_lt, UInt32.toNat_zero]
          omega
        exact ⟨a, if_pos hdrawn, weight, List.mem_cons_self, hweight⟩
      -- the number less the weight in front is below the total of the rest
      · have hrest : drawn - weight.toNat < total rest := by omega
        obtain ⟨b, hb, w, hmem, hw⟩ := ih hrest
        exact ⟨b, by rw [if_neg hdrawn, hb], w, List.mem_cons_of_mem _ hmem, hw⟩

theorem possible_mask {options : Options α} {available : α → Bool} {a : α} :
    (options.mask available).Possible a ↔ options.Possible a ∧ available a = true := by
  constructor
  · rintro ⟨weight, hmem, hweight⟩
    obtain ⟨⟨b, w⟩, hb, heq⟩ := List.mem_map.mp hmem
    simp only [Prod.mk.injEq] at heq
    obtain ⟨rfl, rfl⟩ := heq
    by_cases havailable : available b = true
    · rw [if_pos havailable] at hweight
      exact ⟨⟨w, hb, hweight⟩, havailable⟩
    · rw [if_neg havailable] at hweight
      exact absurd hweight (by decide)
  · rintro ⟨⟨weight, hmem, hweight⟩, havailable⟩
    exact ⟨weight, List.mem_map.mpr ⟨(a, weight), hmem, by simp [havailable]⟩, hweight⟩

/-- Where no option repeats, the weight that counts for one is the weight at its
place, and a place without a weight counts as zero. -/
theorem possible_ofWeights_iff {options : List α} {weights : List UInt32} {a : α} {i : Nat}
    (hnodup : options.Nodup) (ha : options[i]? = some a) :
    (ofWeights options weights).Possible a ↔ 0 < weights.getD i 0 := by
  have hi : i < options.length := (List.getElem?_eq_some_iff.mp ha).1
  constructor
  · rintro ⟨weight, hmem, hweight⟩
    obtain ⟨j, hj⟩ := List.mem_iff_getElem?.mp hmem
    obtain ⟨hoption, hj⟩ := List.getElem?_zip_eq_some.mp hj
    have heq : i = j := (List.getElem?_inj hi hnodup).mp (ha.trans hoption.symm)
    rwa [heq, List.getD_eq_getElem?_getD, hj]
  · intro hweight
    rw [List.getD_eq_getElem?_getD] at hweight
    cases hplace : weights[i]? with
    | none =>
        rw [hplace] at hweight
        exact absurd hweight (by decide)
    | some weight =>
        rw [hplace] at hweight
        have hzip : (ofWeights options weights)[i]? = some (a, weight) :=
          List.getElem?_zip_eq_some.mpr ⟨ha, hplace⟩
        exact ⟨weight, List.mem_of_getElem? hzip, hweight⟩

/-- Where each of the weights is positive, every option that gets one is
possible. -/
theorem possible_ofWeights {options : List α} {weights : List UInt32} {a : α}
    (hlength : options.length ≤ weights.length) (hpositive : ∀ weight ∈ weights, 0 < weight)
    (ha : a ∈ options) : (ofWeights options weights).Possible a := by
  obtain ⟨i, hi, rfl⟩ := List.mem_iff_getElem.mp ha
  have hweight : i < weights.length := by omega
  refine ⟨weights[i], ?_, hpositive _ (List.getElem_mem hweight)⟩
  exact List.mem_iff_getElem.mpr ⟨i, by simp [ofWeights]; omega, by simp [ofWeights]⟩

theorem length_ofWeights_le (options : List α) (weights : List UInt32) :
    (ofWeights options weights).length ≤ options.length := by
  rw [ofWeights, List.length_zip]
  exact Nat.min_le_left _ _

theorem length_mask (options : Options α) (available : α → Bool) :
    (options.mask available).length = options.length :=
  List.length_map _

end Options

namespace Choose

open Draw

variable {σ α : Type}

theorem succeeds_inRange {found : Option α} {a : α}
    (h : Succeeds (inRange found : Choose σ α) a) : found = some a := by
  cases found with
  | none => exact absurd h not_succeeds_throw
  | some b => rw [succeeds_pure h]

theorem fails_inRange {found : Option α} {e : ChoiceError}
    (h : Fails (inRange found : Choose σ α) e) : found = none ∧ e = .outOfRange := by
  cases found with
  | none => exact ⟨rfl, fails_throw h⟩
  | some b => exact absurd h not_fails_pure

variable [WordSource σ]

theorem succeeds_below {n v : Nat} (h : Succeeds (below n : Choose σ Nat) v) : v < n := by
  obtain ⟨hn, h⟩ := succeeds_guard h
  exact below64_lt (Nat.pos_of_ne_zero hn) (succeeds_lift h)

theorem not_fails_below {n : Nat} {e : ChoiceError} (hn : 0 < n) :
    ¬ Fails (below n : Choose σ Nat) e := by
  intro h
  rcases fails_guard h with ⟨hzero, -⟩ | ⟨-, h⟩
  · omega
  · exact not_fails_lift h

theorem succeeds_weighted {group : String} {options : Options α} {a : α}
    (h : Succeeds (weighted group options : Choose σ α) a) : options.Possible a := by
  obtain ⟨htotal, h⟩ := succeeds_guard h
  obtain ⟨drawn, hdrawn, h⟩ := succeeds_bind h
  have hlt : drawn < options.total :=
    evenBelow64_lt (Nat.pos_of_ne_zero htotal) (succeeds_lift hdrawn)
  obtain ⟨b, hb, hpossible⟩ := Options.exists_at?_of_lt_total hlt
  rw [hb] at h
  cases succeeds_inRange h
  exact hpossible

theorem fails_weighted {group : String} {options : Options α} {e : ChoiceError}
    (h : Fails (weighted group options : Choose σ α) e) :
    e = .zeroWeights group ∧ ∀ a, ¬ options.Possible a := by
  rcases fails_guard h with ⟨htotal, rfl⟩ | ⟨htotal, h⟩
  · exact ⟨rfl, options.total_eq_zero_iff.mp htotal⟩
  · rcases fails_bind h with h | ⟨drawn, hdrawn, h⟩
    · exact absurd h not_fails_lift
    · have hlt : drawn < options.total :=
        evenBelow64_lt (Nat.pos_of_ne_zero htotal) (succeeds_lift hdrawn)
      obtain ⟨b, hb, -⟩ := Options.exists_at?_of_lt_total hlt
      rw [hb] at h
      cases (fails_inRange h).1

theorem succeeds_uniform {what : String} {items : List α} {a : α}
    (h : Succeeds (uniform what items : Choose σ α) a) : a ∈ items := by
  obtain ⟨-, h⟩ := succeeds_guard h
  obtain ⟨drawn, -, h⟩ := succeeds_bind h
  exact List.mem_of_getElem? (succeeds_inRange h)

theorem fails_uniform {what : String} {items : List α} {e : ChoiceError}
    (h : Fails (uniform what items : Choose σ α) e) :
    e = .emptyCandidates what ∧ items = [] := by
  rcases fails_guard h with ⟨hempty, rfl⟩ | ⟨hempty, h⟩
  · exact ⟨rfl, List.isEmpty_iff.mp hempty⟩
  · rcases fails_bind h with h | ⟨drawn, hdrawn, h⟩
    · exact absurd h not_fails_lift
    · have hlength : 0 < items.length :=
        List.length_pos_iff.mpr fun hnil => hempty (List.isEmpty_iff.mpr hnil)
      have hlt : drawn < items.length := place_lt hlength (succeeds_lift hdrawn)
      rw [List.getElem?_eq_getElem hlt] at h
      cases (fails_inRange h).1

end Choose

end QuerySynth
