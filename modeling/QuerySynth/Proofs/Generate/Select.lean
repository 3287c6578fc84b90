import QuerySynth.Generate.Select
import QuerySynth.Proofs.Generate.Attribute

/-!
# Outcomes of result draws

The elements and results that weights and declarations admit, and the exact
reasons for which a result cannot be drawn.
-/

namespace QuerySynth

open Draw

variable {σ : Type}

namespace Choose

variable {α : Type} {next : Choose σ α}

theorem succeeds_times {n : Nat} {drawn : List α} (h : Succeeds (times next n) drawn) :
    drawn.length = n ∧ ∀ a ∈ drawn, Succeeds next a := by
  induction n generalizing drawn with
  | zero =>
      cases succeeds_pure h
      exact ⟨rfl, by simp⟩
  | succ n ih =>
      obtain ⟨a, ha, h⟩ := succeeds_bind h
      obtain ⟨rest, hrest, rfl⟩ := succeeds_bind_pure h
      obtain ⟨hlength, hall⟩ := ih hrest
      exact ⟨by rw [List.length_cons, hlength], List.forall_mem_cons.mpr ⟨ha, hall⟩⟩

theorem fails_times {n : Nat} {e : ChoiceError} (h : Fails (times next n) e) : Fails next e := by
  induction n with
  | zero => exact absurd h not_fails_pure
  | succ n ih =>
      rcases fails_bind h with h | ⟨a, -, h⟩
      · exact h
      · exact ih (fails_of_fails_bind_pure h)

end Choose

namespace Side

/-- There are two weights, and the one of this reading is positive. -/
def Possible (weights : List UInt32) (side : Side) : Prop :=
  ∃ options, options? weights = some options ∧ options.Possible side

variable {weights : List UInt32} {side : Side}

theorem pos_of_possible (h : Possible weights side) : 0 < weights.getD side.ctorIdx 0 := by
  obtain ⟨options, hoptions, weight, hmem, hweight⟩ := h
  match weights, hoptions with
  | a :: b :: _, rfl =>
      simp only [List.mem_cons, List.not_mem_nil, or_false, Prod.mk.injEq] at hmem
      rcases hmem with ⟨rfl, rfl⟩ | ⟨rfl, rfl⟩
      · exact hweight
      · exact hweight

theorem options?_of_length (hlength : weights.length = 2) :
    ∃ options, options? weights = some options ∧ options.length = 2 := by
  match weights, hlength with
  | [a, b], _ => exact ⟨_, rfl, rfl⟩

theorem possible_iff (hlength : weights.length = 2) :
    Possible weights side ↔ 0 < weights.getD side.ctorIdx 0 := by
  refine ⟨pos_of_possible, fun hweight => ?_⟩
  match weights, hlength with
  | [a, b], _ =>
      refine ⟨_, rfl, ?_⟩
      cases side with
      | first => exact ⟨a, by simp, hweight⟩
      | second => exact ⟨b, by simp, hweight⟩

theorem possible_of_positive (hlength : weights.length = 2)
    (hpositive : ∀ weight ∈ weights, 0 < weight) (side : Side) : Possible weights side := by
  refine (possible_iff hlength).mpr (hpositive _ ?_)
  match weights, hlength with
  | [a, b], _ =>
      cases side with
      | first => exact List.mem_cons_self
      | second => exact List.mem_cons_of_mem a List.mem_cons_self

theorem exists_possible_iff (hlength : weights.length = 2) :
    (∃ side, Possible weights side) ↔ 0 < weights.getD 0 0 ∨ 0 < weights.getD 1 0 := by
  constructor
  · rintro ⟨side, hside⟩
    cases side with
    | first => exact .inl ((possible_iff hlength).mp hside)
    | second => exact .inr ((possible_iff hlength).mp hside)
  · rintro (hfirst | hsecond)
    · exact ⟨.first, (possible_iff hlength).mpr hfirst⟩
    · exact ⟨.second, (possible_iff hlength).mpr hsecond⟩

theorem not_possible_iff (hlength : weights.length = 2) :
    (∀ side, ¬ Possible weights side) ↔ weights.getD 0 0 = 0 ∧ weights.getD 1 0 = 0 := by
  rw [← not_exists, exists_possible_iff hlength, not_or, UInt32.not_lt, UInt32.not_lt,
    UInt32.le_zero_iff, UInt32.le_zero_iff]

section Picks

variable [WordSource σ] {α : Type} {group : String} {next : Side → Choose σ α}

/-- What is drawn after a pick is drawn after a reading with a weight. -/
theorem succeeds_pick {a : α} (h : Succeeds (Choose.inRange (options? weights) >>= fun options =>
    Choose.weighted group options >>= next) a) :
    ∃ side, Possible weights side ∧ Succeeds (next side) a := by
  obtain ⟨options, hoptions, h⟩ := succeeds_bind h
  obtain ⟨side, hside, h⟩ := succeeds_bind h
  exact ⟨side, ⟨options, Choose.succeeds_inRange hoptions, Choose.succeeds_weighted hside⟩, h⟩

/-- The weights are too few, or no reading has one, or what follows the pick fails. -/
theorem fails_pick {e : ChoiceError} (h : Fails (Choose.inRange (options? weights) >>=
    fun options => Choose.weighted group options >>= next) e) :
    (e = .outOfRange ∧ options? weights = none) ∨
    (e = .zeroWeights group ∧ ∀ side, ¬ Possible weights side) ∨
    ∃ side, Possible weights side ∧ Fails (next side) e := by
  rcases fails_bind h with h | ⟨options, hoptions, h⟩
  · obtain ⟨hnone, rfl⟩ := Choose.fails_inRange h
    exact .inl ⟨rfl, hnone⟩
  have hsome := Choose.succeeds_inRange hoptions
  rcases fails_bind h with h | ⟨side, hside, h⟩
  · obtain ⟨rfl, hnone⟩ := Choose.fails_weighted h
    refine .inr (.inl ⟨rfl, ?_⟩)
    rintro side ⟨found, hfound, hpossible⟩
    cases hsome.symm.trans hfound
    exact hnone side hpossible
  · exact .inr (.inr ⟨side, ⟨options, hsome, Choose.succeeds_weighted hside⟩, h⟩)

end Picks

end Side

namespace SelectWeights

/-- The weights admit this kind of element, and its content is there to take. -/
def AdmitsElem (weights : SelectWeights) (synonyms : List Synonym) (subjects : AttrSubjects) :
    Elem → Prop
  | .synonym s => Side.Possible weights.elem .first ∧ s ∈ synonyms
  | .attr ref => Side.Possible weights.elem .second ∧ subjects.Admits weights.attrName none ref

/-- The weights admit this shape of result, and every element of it. -/
def AdmitsResult (weights : SelectWeights) (limit : Nat) (synonyms : List Synonym)
    (subjects : AttrSubjects) : SelectResult → Prop
  | .boolean => Side.Possible weights.result .second
  | .single elem => Side.Possible weights.result .first ∧ Side.Possible weights.tuple .first ∧
      weights.AdmitsElem synonyms subjects elem
  | .tuple elems => Side.Possible weights.result .first ∧ Side.Possible weights.tuple .second ∧
      (0 < elems.length ∧ elems.length ≤ max limit 1) ∧
      ∀ elem ∈ elems, weights.AdmitsElem synonyms subjects elem

variable {weights : SelectWeights} {limit : Nat} {synonyms : List Synonym}
  {subjects : AttrSubjects}

theorem AdmitsResult.elems {result : SelectResult}
    (h : weights.AdmitsResult limit synonyms subjects result) :
    ∀ elem ∈ result.elems, weights.AdmitsElem synonyms subjects elem := by
  intro elem helem
  cases result with
  | boolean => cases helem
  | single only =>
      rw [List.mem_singleton.mp helem]
      exact h.2.2
  | tuple elems => exact h.2.2.2 elem helem

variable [WordSource σ]

theorem succeeds_drawElem {elem : Elem}
    (h : Succeeds (weights.drawElem synonyms subjects : Choose σ Elem) elem) :
    weights.AdmitsElem synonyms subjects elem := by
  obtain ⟨options, hoptions, h⟩ := succeeds_bind h
  obtain ⟨side, hside, h⟩ := succeeds_bind h
  have hpossible : Side.Possible weights.elem side :=
    ⟨options, Choose.succeeds_inRange hoptions,
      (Options.possible_mask.mp (Choose.succeeds_weighted hside)).1⟩
  cases side with
  | first =>
      obtain ⟨s, hs, rfl⟩ := succeeds_bind_pure h
      exact ⟨hpossible, Choose.succeeds_uniform hs⟩
  | second =>
      obtain ⟨ref, href, rfl⟩ := succeeds_bind_pure h
      exact ⟨hpossible, AttrSubjects.succeeds_draw href⟩

theorem fails_drawElem {e : ChoiceError}
    (h : Fails (weights.drawElem synonyms subjects : Choose σ Elem) e) :
    (e = .outOfRange ∧ Side.options? weights.elem = none) ∨
    (e = .zeroWeights "elem" ∧ ∀ elem, ¬ weights.AdmitsElem synonyms subjects elem) := by
  rcases fails_bind h with h | ⟨options, hoptions, h⟩
  · obtain ⟨hnone, rfl⟩ := Choose.fails_inRange h
    exact .inl ⟨rfl, hnone⟩
  have hsome := Choose.succeeds_inRange hoptions
  rcases fails_bind h with h | ⟨side, hside, h⟩
  · obtain ⟨rfl, hnone⟩ := Choose.fails_weighted h
    refine .inr ⟨rfl, ?_⟩
    intro elem helem
    -- an admitted element would have kept the weight of its reading from the mask
    cases elem with
    | synonym s =>
        obtain ⟨⟨found, hfound, hpossible⟩, hs⟩ := helem
        cases hsome.symm.trans hfound
        exact hnone .first (Options.possible_mask.mpr ⟨hpossible, by
          simpa using List.ne_nil_of_mem hs⟩)
    | attr ref =>
        obtain ⟨⟨found, hfound, hpossible⟩, href⟩ := helem
        cases hsome.symm.trans hfound
        exact hnone .second (Options.possible_mask.mpr ⟨hpossible,
          AttrSubjects.canDraw_iff.mpr ⟨ref, href⟩⟩)
  · have havailable := (Options.possible_mask.mp (Choose.succeeds_weighted hside)).2
    cases side with
    | first =>
        have hempty := (Choose.fails_uniform (fails_of_fails_bind_pure h)).2
        simp [hempty] at havailable
    | second =>
        exact absurd (fails_of_fails_bind_pure h)
          (AttrSubjects.not_fails_draw_of_canDraw havailable)

theorem succeeds_draw {result : SelectResult}
    (h : Succeeds (weights.draw limit synonyms subjects : Choose σ SelectResult) result) :
    weights.AdmitsResult limit synonyms subjects result := by
  obtain ⟨side, hresult, h⟩ := Side.succeeds_pick h
  cases side with
  | second =>
      cases succeeds_pure h
      exact hresult
  | first =>
      obtain ⟨shape, htuple, h⟩ := Side.succeeds_pick h
      cases shape with
      | first =>
          obtain ⟨elem, helem, rfl⟩ := succeeds_bind_pure h
          exact ⟨hresult, htuple, succeeds_drawElem helem⟩
      | second =>
          obtain ⟨more, hmore, h⟩ := succeeds_bind h
          obtain ⟨elems, helems, rfl⟩ := succeeds_bind_pure h
          have hlt : more < max limit 1 := Choose.succeeds_below hmore
          obtain ⟨hlength, hall⟩ := Choose.succeeds_times helems
          exact ⟨hresult, htuple, ⟨by omega, by omega⟩,
            fun elem helem => succeeds_drawElem (hall elem helem)⟩

theorem fails_draw {e : ChoiceError}
    (h : Fails (weights.draw limit synonyms subjects : Choose σ SelectResult) e) :
    (e = .outOfRange ∧ (Side.options? weights.result = none ∨
      Side.options? weights.tuple = none ∨ Side.options? weights.elem = none)) ∨
    (e = .zeroWeights "result" ∧ ∀ side, ¬ Side.Possible weights.result side) ∨
    (e = .zeroWeights "tuple" ∧ Side.Possible weights.result .first ∧
      ∀ side, ¬ Side.Possible weights.tuple side) ∨
    (e = .zeroWeights "elem" ∧ Side.Possible weights.result .first ∧
      (∃ side, Side.Possible weights.tuple side) ∧
      ∀ elem, ¬ weights.AdmitsElem synonyms subjects elem) := by
  rcases Side.fails_pick h with ⟨rfl, hnone⟩ | ⟨rfl, hnone⟩ | ⟨side, hresult, h⟩
  · exact .inl ⟨rfl, .inl hnone⟩
  · exact .inr (.inl ⟨rfl, hnone⟩)
  cases side with
  | second => exact absurd h not_fails_pure
  | first =>
      rcases Side.fails_pick h with ⟨rfl, hnone⟩ | ⟨rfl, hnone⟩ | ⟨shape, htuple, h⟩
      · exact .inl ⟨rfl, .inr (.inl hnone)⟩
      · exact .inr (.inr (.inl ⟨rfl, hresult, hnone⟩))
      -- either shape fails only through one of its elements
      have helem : Fails (weights.drawElem synonyms subjects : Choose σ Elem) e := by
        cases shape with
        | first => exact fails_of_fails_bind_pure h
        | second =>
            rcases fails_bind h with h | ⟨more, -, h⟩
            · exact absurd h (Choose.not_fails_below (by omega))
            · exact Choose.fails_times (fails_of_fails_bind_pure h)
      rcases fails_drawElem helem with ⟨rfl, hnone⟩ | ⟨rfl, hnone⟩
      · exact .inl ⟨rfl, .inr (.inr hnone)⟩
      · exact .inr (.inr (.inr ⟨rfl, hresult, ⟨shape, htuple⟩, hnone⟩))

end SelectWeights

end QuerySynth
