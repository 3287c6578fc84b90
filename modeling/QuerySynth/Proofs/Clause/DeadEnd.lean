import QuerySynth.Proofs.Clause.Equation
import QuerySynth.Proofs.Random.Run

/-!
# When an equation cannot be drawn

An equation fails for one of two reasons, and always with the same error.

* No sort of first side is available.  Then no word is taken.
* The first side is a line number that was drawn with the weight of absent literals.
  The second side knows nothing of that weight, so if line numbers have none of their
  own and there is no number to be read off an attribute, it cannot be drawn.

Any other first side has a partner of its type: itself, but for a line number without
a weight, and that has an attribute.
-/

namespace QuerySynth

open Draw

/-- There is no literal with a weight, no attribute with one, and no line number with
a weight of its own or of absent literals. -/
structure WithoutFirstSide (declared : Declarations) (literals : Literals)
    (weights attrs : List UInt32) : Prop where
  literal : ¬ (0 < weights.getD 0 0 ∧ literals.isEmpty = false)
  attr : ¬ (0 < weights.getD 1 0 ∧
    (AttrSubjects.ofDeclarations declared).canDraw attrs none = true)
  line : ¬ ((∃ s : Synonym, s.IsLine declared) ∧
    (0 < weights.getD 2 0 ∨ 0 < weights.getD 0 0 ∧ literals.isEmpty = true))

/-- There is no second side for a line number that took the weight of absent
literals. -/
structure WithoutPartner (declared : Declarations) (literals : Literals)
    (weights attrs : List UInt32) : Prop where
  literals : literals.isEmpty = true
  line : weights.getD 2 0 = 0
  moved : 0 < weights.getD 0 0
  attr : ¬ (0 < weights.getD 1 0 ∧
    (AttrSubjects.ofDeclarations declared).canDraw attrs (some .number) = true)

namespace EquationScope

variable {declared : Declarations} {literals : Literals} {weights attrs : List UInt32}

/-! ## First sides -/

/-- A drawn literal is a proof that there are literals. -/
theorem isEmpty_of_firstSide_literal {operand : Operand}
    (h : FirstSide declared literals weights attrs (.literal operand)) :
    0 < weights.getD 0 0 ∧ literals.isEmpty = false := by
  have hmem := (admits_of_firstSide h).candidate
  have hsome : literals.isEmpty = false :=
    Bool.eq_false_iff.mpr fun hempty => List.ne_nil_of_mem hmem (literals_eq_nil_iff.mpr hempty)
  cases operand with
  | name text => exact ⟨h.1, hsome⟩
  | integer text => exact ⟨h.1, hsome⟩
  | synonym s => exact h.elim
  | wildcard => exact h.elim

theorem not_firstSide_iff :
    (∀ side, ¬ FirstSide declared literals weights attrs side) ↔
      WithoutFirstSide declared literals weights attrs := by
  constructor
  · intro hnone
    refine ⟨?_, ?_, ?_⟩
    · rintro ⟨hweight, hsome⟩
      have hne : (ofDeclarations declared literals).literals ≠ [] := by
        intro hnil
        rw [literals_eq_nil_iff.mp hnil] at hsome
        cases hsome
      obtain ⟨operand, hoperand⟩ := List.exists_mem_of_ne_nil _ hne
      rcases mem_literals hoperand with ⟨text, -, htext⟩ | ⟨text, -, htext⟩
      · exact hnone (.literal (.name text)) ⟨hweight, htext⟩
      · exact hnone (.literal (.integer text)) ⟨hweight, htext⟩
    · rintro ⟨hweight, hcan⟩
      obtain ⟨ref, href⟩ := AttrSubjects.canDraw_iff.mp hcan
      exact hnone (.attr ref) ⟨hweight, (AttrSubjects.admits_iff.mp href).2⟩
    · rintro ⟨⟨s, hline⟩, hweight⟩
      exact hnone (.synonym s) ⟨hweight, hline⟩
  · rintro ⟨hliteral, hattr, hline⟩ side hside
    cases side with
    | literal operand => exact hliteral (isEmpty_of_firstSide_literal hside)
    | attr ref =>
        exact hattr ⟨hside.1, AttrSubjects.canDraw_iff.mpr
          ⟨ref, AttrSubjects.admits_iff.mpr ⟨nofun, hside.2⟩⟩⟩
    | synonym s => exact hline ⟨⟨s, hside.2⟩, hside.1⟩

/-! ## Partners -/

/-- Literals and attributes are their own partners.  A line number is, if it has a weight
of its own; else it needs an attribute that is a number. -/
theorem withoutPartner_of_not_secondSide {left : WithRef}
    (hleft : FirstSide declared literals weights attrs left)
    (hnone : ∀ right, ¬ SecondSide declared literals weights attrs left.valueType right) :
    WithoutPartner declared literals weights attrs ∧ ∃ line, left = .synonym line := by
  cases left with
  | literal operand =>
      cases operand with
      | name text => exact absurd hleft (hnone (.literal (.name text)))
      | integer text => exact absurd hleft (hnone (.literal (.integer text)))
      | synonym s => exact hleft.elim
      | wildcard => exact hleft.elim
  | attr ref => exact absurd (secondSide_attr_iff.mpr ⟨rfl, hleft⟩) (hnone (.attr ref))
  | synonym line =>
      obtain ⟨hweight, hline⟩ := hleft
      have hzero : ¬ 0 < weights.getD 2 0 := fun h => hnone (.synonym line) ⟨h, hline⟩
      -- so the line number was drawn for the absent literals
      obtain ⟨hmoved, hempty⟩ := hweight.resolve_left hzero
      refine ⟨⟨hempty, ?_, hmoved, ?_⟩, line, rfl⟩
      · rw [UInt32.pos_iff_ne_zero] at hzero
        exact not_not.mp hzero
      · rintro ⟨hattr, hcan⟩
        obtain ⟨ref, href⟩ := AttrSubjects.canDraw_iff.mp hcan
        obtain ⟨htype, hreadable⟩ := AttrSubjects.admits_iff.mp href
        exact hnone (.attr ref) (secondSide_attr_iff.mpr ⟨htype .number rfl, hattr, hreadable⟩)

theorem not_secondSide_of_withoutPartner
    (h : WithoutPartner declared literals weights attrs) (right : WithRef) :
    ¬ SecondSide declared literals weights attrs .number right := by
  intro hright
  cases right with
  | literal operand =>
      have hnil : (ofDeclarations declared literals).literals = [] :=
        literals_eq_nil_iff.mpr h.literals
      have hmem : operand ∈ (ofDeclarations declared literals).literals :=
        mem_literals_of_mem_literalsOf (admits_second_iff.mpr hright).candidate
      rw [hnil] at hmem
      cases hmem
  | attr ref =>
      obtain ⟨htype, hweight, hreadable⟩ := secondSide_attr_iff.mp hright
      refine h.attr ⟨hweight, AttrSubjects.canDraw_iff.mpr ⟨ref, ?_⟩⟩
      exact AttrSubjects.admits_iff.mpr ⟨fun type hwanted => htype.trans (Option.some.inj hwanted),
        hreadable⟩
  | synonym s =>
      have hweight : 0 < weights.getD 2 0 := hright.1
      rw [h.line] at hweight
      exact absurd hweight (by decide)

/-- A first side has no partner exactly if it is a line number and there is none for it. -/
theorem not_secondSide_iff {left : WithRef}
    (hleft : FirstSide declared literals weights attrs left) :
    (∀ right, ¬ SecondSide declared literals weights attrs left.valueType right) ↔
      WithoutPartner declared literals weights attrs ∧ ∃ line, left = .synonym line := by
  refine ⟨withoutPartner_of_not_secondSide hleft, ?_⟩
  rintro ⟨hwithout, line, rfl⟩
  exact not_secondSide_of_withoutPartner hwithout

/-! ## Runs -/

section Runs

variable {σ : Type} [WordSource σ]

/-- The draw of a first side. -/
def drawFirst (scope : EquationScope) (weights attrs : List UInt32) : Choose σ WithRef :=
  scope.drawSide (scope.firstWeights weights) attrs none

/-- The draw of a second side, behind a first side of the given type. -/
def drawSecond (scope : EquationScope) (weights attrs : List UInt32) (type : ValueType) :
    Choose σ WithRef :=
  scope.drawSide (weightsOf weights) attrs (some type)

theorem draw_eq_bind (scope : EquationScope) :
    (scope.draw weights attrs : Choose σ Clause) = do
      let left ← scope.drawFirst weights attrs
      let right ← scope.drawSecond weights attrs left.valueType
      return .equation left right :=
  rfl

variable {scope : EquationScope} {s t : σ}

/-- Where no side is admitted, the draw fails before it takes a word. -/
theorem run_drawSide_of_not_admits {options : Options WithRefKind} {wanted : Option ValueType}
    (h : ∀ side, ¬ scope.Admits options attrs wanted side) :
    (scope.drawSide options attrs wanted : Choose σ WithRef).run s =
      some (.error (.zeroWeights "with_ref"), s) := by
  refine run_bind_of_error (Choose.run_weighted_of_not_possible ?_ s)
  intro kind hkind
  obtain ⟨hpossible, hoffers⟩ := Options.possible_mask.mp hkind
  obtain ⟨side, rfl, hcandidate⟩ := offers_iff.mp hoffers
  exact h side ⟨hpossible, hcandidate⟩

/-- A run that fails does so on the first side, or on the second behind a first side
that it drew. -/
theorem cases_of_run_draw_error {e : ChoiceError}
    (h : (scope.draw weights attrs).run s = some (.error e, t)) :
    (∀ left, ¬ scope.Admits (scope.firstWeights weights) attrs none left) ∨
      ∃ left u, (scope.drawFirst weights attrs).run s = some (.ok left, u) ∧
        ∀ right, ¬ scope.Admits (weightsOf weights) attrs (some left.valueType) right := by
  rw [draw_eq_bind] at h
  rcases run_bind_cases h with ⟨e', hfirst, -⟩ | ⟨left, u, hfirst, h⟩
  · exact .inl (fails_drawSide (fails_of_run hfirst)).2
  · exact .inr ⟨left, u, hfirst,
      (fails_drawSide (fails_of_fails_bind_pure (fails_of_run h))).2⟩

theorem run_draw_of_drawFirst {left : WithRef}
    (hfirst : (scope.drawFirst weights attrs).run s = some (.ok left, t)) :
    (scope.draw weights attrs).run s =
      (do return .equation left (← scope.drawSecond weights attrs left.valueType) :
        Choose σ Clause).run t := by
  rw [draw_eq_bind]
  exact run_bind_of_ok hfirst

theorem firstSide_of_run {left : WithRef}
    (h : ((ofDeclarations declared literals).drawFirst weights attrs).run s =
      some (.ok left, t)) : FirstSide declared literals weights attrs left :=
  admits_first_iff.mp (succeeds_drawSide (succeeds_of_run h))

/-- Whatever follows a first side with a partner, an equation of its type is the end
of it. -/
theorem equation_of_run_draw {left right : WithRef} {outcome : Except ChoiceError Clause} {u : σ}
    (hfirst : ((ofDeclarations declared literals).drawFirst weights attrs).run s =
      some (.ok left, t))
    (hpartner : SecondSide declared literals weights attrs left.valueType right)
    (h : ((ofDeclarations declared literals).draw weights attrs).run s = some (outcome, u)) :
    ∃ drawn, outcome = .ok (.equation left drawn) ∧ drawn.valueType = left.valueType := by
  rw [run_draw_of_drawFirst hfirst] at h
  rcases run_bind_cases h with ⟨e, hsecond, -⟩ | ⟨drawn, v, hsecond, h⟩
  · exact absurd (admits_second_iff.mpr hpartner)
      ((fails_drawSide (fails_of_run hsecond)).2 right)
  · cases h
    exact ⟨drawn, rfl, (succeeds_drawSide (succeeds_of_run hsecond)).candidate.valueType_eq⟩

end Runs

/-- An equation fails for want of a first side, or for want of a partner to a line number
that was drawn, and always with the same error.  Behind any other first side a second of
its type can be drawn, and every run that ends has drawn one. -/
theorem draw_error_iff {σ : Type} [WordSource σ] (declared : Declarations) (literals : Literals)
    (weights attrs : List UInt32) (s : σ) :
    ((∃ e t, ((ofDeclarations declared literals).draw weights attrs).run s =
        some (.error e, t)) ↔
      WithoutFirstSide declared literals weights attrs ∨
        (WithoutPartner declared literals weights attrs ∧ ∃ line t,
          ((ofDeclarations declared literals).drawFirst weights attrs).run s =
            some (.ok (.synonym line), t))) ∧
      (∀ e t, ((ofDeclarations declared literals).draw weights attrs).run s =
        some (.error e, t) → e = .zeroWeights "with_ref") ∧
      ∀ left t, ((ofDeclarations declared literals).drawFirst weights attrs).run s =
          some (.ok left, t) →
        ¬ (WithoutPartner declared literals weights attrs ∧ ∃ line, left = .synonym line) →
          (∃ right, right.valueType = left.valueType ∧ Reaches
            ((ofDeclarations declared literals).drawSecond weights attrs left.valueType :
              Choose Tape WithRef).run (.ok right)) ∧
          ∀ outcome u, ((ofDeclarations declared literals).draw weights attrs).run s =
              some (outcome, u) →
            ∃ right, outcome = .ok (.equation left right) ∧ right.valueType = left.valueType := by
  refine ⟨⟨?_, ?_⟩, ?_, ?_⟩
  · rintro ⟨e, t, hrun⟩
    rcases cases_of_run_draw_error hrun with hnone | ⟨left, u, hfirst, hnone⟩
    · exact .inl (not_firstSide_iff.mp fun side hside => hnone side (admits_first_iff.mpr hside))
    · obtain ⟨hwithout, line, rfl⟩ := (not_secondSide_iff (firstSide_of_run hfirst)).mp
        fun right hright => hnone right (admits_second_iff.mpr hright)
      exact .inr ⟨hwithout, line, u, hfirst⟩
  · rintro (hwithout | ⟨hwithout, line, t, hfirst⟩)
    · have hnone := not_firstSide_iff.mpr hwithout
      refine ⟨_, s, run_bind_of_error (run_drawSide_of_not_admits fun side hside => ?_)⟩
      exact hnone side (admits_first_iff.mp hside)
    · have hnone := not_secondSide_of_withoutPartner hwithout
      refine ⟨.zeroWeights "with_ref", t, ?_⟩
      rw [run_draw_of_drawFirst hfirst]
      refine run_bind_of_error (run_drawSide_of_not_admits fun right hright => ?_)
      exact hnone right (admits_second_iff.mp hright)
  · intro e t hrun
    exact (fails_draw (fails_of_run hrun)).1
  · intro left t hfirst hpartner
    rw [← not_secondSide_iff (firstSide_of_run hfirst)] at hpartner
    obtain ⟨right, hright⟩ := not_forall_not.mp hpartner
    -- the partner itself may be out of reach, but the first of its kind is not
    obtain ⟨drawn, hadmits, hdrawn⟩ := exists_reaches_drawSide
      (Nat.le_of_eq (length_weightsOf weights)) (admits_second_iff.mpr hright)
    exact ⟨⟨drawn, hadmits.candidate.valueType_eq, hdrawn⟩,
      fun outcome u hrun => equation_of_run_draw hfirst hright hrun⟩

/-- Words by which a line number is drawn before an attribute. -/
def lineTape : Tape := ⟨[0x8000000000000000, 0]⟩

/-- The words draw a line number for the weight of absent literals.  Without a weight for
values that is a dead end; with one, a number follows. -/
theorem draw_error_lineTape :
    (∃ e t, ((ofDeclarations lineAndConstant ⟨[], [], []⟩).draw [1, 1, 0] [1, 1, 0, 1]).run
        lineTape = some (.error e, t)) ∧
      ((ofDeclarations lineAndConstant ⟨[], [], []⟩).drawFirst [1, 1, 0] [1, 1, 1, 1]).run
        lineTape = some (.ok (.synonym ⟨.progLine, "n"⟩), ⟨[]⟩) ∧
      ∃ right, right.valueType = .number ∧ Reaches
        ((ofDeclarations lineAndConstant ⟨[], [], []⟩).drawSecond [1, 1, 0] [1, 1, 1, 1]
          .number : Choose Tape WithRef).run (.ok right) := by
  have hstuck : WithoutPartner lineAndConstant ⟨[], [], []⟩ [1, 1, 0] [1, 1, 0, 1] :=
    ⟨rfl, rfl, by decide, by decide⟩
  have hfirst : ((ofDeclarations lineAndConstant ⟨[], [], []⟩).drawFirst [1, 1, 0]
      [1, 1, 0, 1]).run lineTape = some (.ok (.synonym ⟨.progLine, "n"⟩), ⟨[]⟩) := rfl
  have hfirst' : ((ofDeclarations lineAndConstant ⟨[], [], []⟩).drawFirst [1, 1, 0]
      [1, 1, 1, 1]).run lineTape = some (.ok (.synonym ⟨.progLine, "n"⟩), ⟨[]⟩) := rfl
  refine ⟨(draw_error_iff _ _ _ _ _).1.mpr (.inr ⟨hstuck, _, _, hfirst⟩), hfirst', ?_⟩
  refine ((draw_error_iff _ _ _ _ _).2.2 _ _ hfirst' ?_).1
  rintro ⟨hwithout, -⟩
  exact hwithout.attr (by decide)

end EquationScope

end QuerySynth
