import QuerySynth.Random.Subset

/-!
# Choices from mapped lists

Every choice looks at the length of its list and at nothing else of it.  A choice
from a mapped list is the choice from the list, mapped: the same words are drawn,
and errors are the same.
-/

namespace QuerySynth

namespace Choose

variable {σ α β : Type}

/-- A guard that throws does not see what the draw behind it is mapped with. -/
theorem guard_map {p : Prop} [Decidable p] {e : ChoiceError} (f : α → β) (next : Choose σ α) :
    (do
      if p then
        throw e
      f <$> next) =
    f <$> (do
      if p then
        throw e
      next : Choose σ α) := by
  by_cases hp : p
  · simp only [hp, if_true]
    rfl
  · simp only [hp, if_false]

theorem inRange_map (f : α → β) (found : Option α) :
    (inRange (found.map f) : Choose σ β) = f <$> inRange found := by
  cases found with
  | none => rfl
  | some a => exact (map_pure f a).symm

variable [WordSource σ]

theorem uniform_map (f : α → β) (what : String) (items : List α) :
    (uniform what (items.map f) : Choose σ β) = f <$> uniform what items := by
  rw [uniform, uniform, ← guard_map]
  simp only [List.isEmpty_map, List.length_map, List.getElem?_map, inRange_map, map_bind]

theorem mapM_map (f : α → β) (find : Nat → Option α) (places : List Nat) :
    (places.mapM fun place => (find place).map f) = (places.mapM find).map (List.map f) := by
  induction places with
  | nil => rfl
  | cons place places ih =>
      rw [List.mapM_cons, List.mapM_cons, ih]
      cases find place with
      | none => rfl
      | some a => cases places.mapM find <;> rfl

theorem subset_map (f : α → β) (items : List α) :
    (subset (items.map f) : Choose σ (List β)) = List.map f <$> subset items := by
  cases items with
  | nil => exact (map_pure (List.map f) []).symm
  | cons item items =>
      have hplaces : ∀ places : List Nat,
          (places.mapM ((List.map f (item :: items)).toArray[·]?)) =
            (places.mapM ((item :: items).toArray[·]?)).map (List.map f) := by
        intro places
        rw [← mapM_map]
        simp only [List.getElem?_toArray, List.getElem?_map]
      simp only [subset, List.isEmpty_map, List.length_map, hplaces, inRange_map]
      simp only [List.isEmpty_cons, Bool.false_eq_true, if_false, map_bind]

end Choose

end QuerySynth
