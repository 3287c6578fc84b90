import QuerySynth.Generate.Clause
import QuerySynth.Proofs.Generate.Attribute

/-!
# Outcomes of clause draws

For every family: what a scope and weights admit, that a draw ends with an
admitted clause, and the exact reasons for which it fails.

* Such-that and pattern clauses take their operands from the scope; only a kind
  of pattern without subjects can be chosen in vain.
* The second side of an equation is drawn with the type of the first.  It has its
  own reason to fail, since the guard of the first side knows nothing of it.
-/

namespace QuerySynth

open Draw

variable {σ : Type}

namespace Scope

/-- The scope and the weights admit the relation in this form, between these
operands. -/
structure Relates (scope : Scope) (relations forms : List UInt32) (relation : Relation)
    (transitive : Bool) (left right : Operand) : Prop where
  possible : (Options.ofWeights Relation.all relations).Possible relation
  form : if relation.hasTransitive then (Options.ofWeights [false, true] forms).Possible transitive
    else transitive = false
  left_mem : left ∈ scope.left relation
  right_mem : right ∈ scope.right relation

/-- The scope and the weights admit a pattern of this kind, with this subject and
this leading operand. -/
structure Matches (scope : Scope) (kinds : List UInt32) (kind : PatternKind) (entity : Synonym)
    (lhs : Operand) : Prop where
  possible : (Options.ofWeights PatternKind.all kinds).Possible kind
  entity_mem : entity ∈ scope.patternSubjects kind
  lhs_mem : lhs ∈ scope.leaders

variable {scope : Scope} {relations forms kinds : List UInt32}

theorem supports_iff {relation : Relation} :
    scope.supports relation = true ↔ scope.left relation ≠ [] ∧ scope.right relation ≠ [] := by
  simp [supports]

/-- The wildcard can stand on both sides of `Calls`. -/
theorem supports_calls : scope.supports .calls = true :=
  supports_iff.mpr ⟨List.append_ne_nil_of_right_ne_nil _ (List.cons_ne_nil _ _),
    List.append_ne_nil_of_right_ne_nil _ (List.cons_ne_nil _ _)⟩

theorem leaders_ne_nil : scope.leaders ≠ [] := by
  unfold leaders
  split
  · exact List.cons_ne_nil _ _
  · next hnamed => exact fun hnil => hnamed (List.isEmpty_iff.mpr hnil)

variable [WordSource σ]

theorem succeeds_drawSuchThat {clause : Clause}
    (h : Succeeds (scope.drawSuchThat relations forms : Choose σ Clause) clause) :
    ∃ relation transitive left right, clause = .suchThat relation transitive left right ∧
      scope.Relates relations forms relation transitive left right := by
  obtain ⟨relation, hrelation, h⟩ := succeeds_bind h
  have hpossible := (Options.possible_mask.mp (Choose.succeeds_weighted hrelation)).1
  -- both ways of settling the form go on with the same two operands
  have hoperands : ∀ transitive, Succeeds (do
      let left ← Choose.uniform "relation left operand" (scope.left relation)
      let right ← Choose.uniform "relation right operand" (scope.right relation)
      return Clause.suchThat relation transitive left right : Choose σ Clause) clause →
      ∃ left right, clause = .suchThat relation transitive left right ∧
        left ∈ scope.left relation ∧ right ∈ scope.right relation := by
    intro transitive h
    obtain ⟨left, hleft, h⟩ := succeeds_bind h
    obtain ⟨right, hright, rfl⟩ := succeeds_bind_pure h
    exact ⟨left, right, rfl, Choose.succeeds_uniform hleft, Choose.succeeds_uniform hright⟩
  by_cases htransitive : relation.hasTransitive = true
  · simp only [htransitive, if_true] at h
    obtain ⟨transitive, hform, h⟩ := succeeds_bind h
    obtain ⟨left, right, rfl, hleft, hright⟩ := hoperands transitive h
    refine ⟨relation, transitive, left, right, rfl, hpossible, ?_, hleft, hright⟩
    rw [if_pos htransitive]
    exact Choose.succeeds_weighted hform
  · simp only [htransitive, Bool.false_eq_true, if_false] at h
    obtain ⟨transitive, hform, h⟩ := succeeds_bind h
    obtain ⟨left, right, rfl, hleft, hright⟩ := hoperands transitive h
    refine ⟨relation, transitive, left, right, rfl, hpossible, ?_, hleft, hright⟩
    rw [if_neg htransitive]
    exact succeeds_pure hform

theorem fails_drawSuchThat {e : ChoiceError}
    (h : Fails (scope.drawSuchThat relations forms : Choose σ Clause) e) :
    (e = .zeroWeights "relation" ∧ ∀ relation,
      (Options.ofWeights Relation.all relations).Possible relation →
        ¬ scope.supports relation = true) ∨
    (e = .zeroWeights "transitive" ∧ ∀ form,
      ¬ (Options.ofWeights [false, true] forms).Possible form) := by
  rcases fails_bind h with h | ⟨relation, hrelation, h⟩
  · obtain ⟨rfl, hnone⟩ := Choose.fails_weighted h
    exact .inl ⟨rfl, fun relation hpossible hsupports =>
      hnone relation (Options.possible_mask.mpr ⟨hpossible, hsupports⟩)⟩
  have hsupports := (Options.possible_mask.mp (Choose.succeeds_weighted hrelation)).2
  obtain ⟨hleft, hright⟩ := supports_iff.mp hsupports
  have hoperands : ∀ transitive, ¬ Fails (do
      let left ← Choose.uniform "relation left operand" (scope.left relation)
      let right ← Choose.uniform "relation right operand" (scope.right relation)
      return Clause.suchThat relation transitive left right : Choose σ Clause) e := by
    intro transitive h
    rcases fails_bind h with h | ⟨left, -, h⟩
    · exact hleft (Choose.fails_uniform h).2
    · exact hright (Choose.fails_uniform (fails_of_fails_bind_pure h)).2
  by_cases htransitive : relation.hasTransitive = true
  · simp only [htransitive, if_true] at h
    rcases fails_bind h with h | ⟨transitive, -, h⟩
    · exact .inr (Choose.fails_weighted h)
    · exact absurd h (hoperands transitive)
  · simp only [htransitive, Bool.false_eq_true, if_false] at h
    rcases fails_bind h with h | ⟨transitive, -, h⟩
    · exact absurd h not_fails_pure
    · exact absurd h (hoperands transitive)

theorem succeeds_drawPattern {clause : Clause}
    (h : Succeeds (scope.drawPattern kinds : Choose σ Clause) clause) :
    ∃ kind entity lhs, clause = .pattern kind entity lhs ∧
      scope.Matches kinds kind entity lhs := by
  obtain ⟨kind, hkind, h⟩ := succeeds_bind h
  obtain ⟨-, h⟩ := succeeds_guard h
  obtain ⟨entity, hentity, h⟩ := succeeds_bind h
  obtain ⟨lhs, hlhs, rfl⟩ := succeeds_bind_pure h
  exact ⟨kind, entity, lhs, rfl, Choose.succeeds_weighted hkind,
    Choose.succeeds_uniform hentity, Choose.succeeds_uniform hlhs⟩

theorem fails_drawPattern {e : ChoiceError}
    (h : Fails (scope.drawPattern kinds : Choose σ Clause) e) :
    (e = .zeroWeights "pattern" ∧ ∀ kind,
      ¬ (Options.ofWeights PatternKind.all kinds).Possible kind) ∨
    ∃ kind, e = .emptyCandidates kind.missing ∧ scope.patternSubjects kind = [] ∧
      (Options.ofWeights PatternKind.all kinds).Possible kind := by
  rcases fails_bind h with h | ⟨kind, hkind, h⟩
  · exact .inl (Choose.fails_weighted h)
  rcases fails_guard h with ⟨hempty, rfl⟩ | ⟨hempty, h⟩
  · exact .inr ⟨kind, rfl, List.isEmpty_iff.mp hempty, Choose.succeeds_weighted hkind⟩
  rcases fails_bind h with h | ⟨entity, -, h⟩
  · exact absurd (List.isEmpty_iff.mpr (Choose.fails_uniform h).2) hempty
  · exact absurd (Choose.fails_uniform (fails_of_fails_bind_pure h)).2 leaders_ne_nil

end Scope

namespace EquationScope

/-- The side is made of the literals, attributes or line numbers that fit the
wanted type. -/
def Candidate (scope : EquationScope) (attrs : List UInt32) (wanted : Option ValueType) :
    WithRef → Prop
  | .literal operand => operand ∈ scope.literalsOf wanted
  | .attr ref => scope.subjects.Admits attrs wanted ref
  | .synonym s => s ∈ scope.linesOf wanted

/-- The side is a candidate, and the options admit its kind. -/
structure Admits (scope : EquationScope) (options : Options WithRefKind) (attrs : List UInt32)
    (wanted : Option ValueType) (side : WithRef) : Prop where
  possible : options.Possible (WithRefKind.ofRef side)
  candidate : scope.Candidate attrs wanted side

variable {scope : EquationScope} {options : Options WithRefKind} {weights attrs : List UInt32}
  {wanted : Option ValueType}

/-- A kind of side is offered exactly if it has a candidate. -/
theorem offers_iff {kind : WithRefKind} :
    scope.offers attrs wanted kind = true ↔
      ∃ side, WithRefKind.ofRef side = kind ∧ scope.Candidate attrs wanted side := by
  constructor
  · intro h
    cases kind with
    | literal =>
        have hne : scope.literalsOf wanted ≠ [] := by simpa [offers] using h
        obtain ⟨operand, hoperand⟩ := List.exists_mem_of_ne_nil _ hne
        exact ⟨.literal operand, rfl, hoperand⟩
    | attr =>
        obtain ⟨ref, href⟩ := AttrSubjects.canDraw_iff.mp h
        exact ⟨.attr ref, rfl, href⟩
    | synonym =>
        have hne : scope.linesOf wanted ≠ [] := by simpa [offers] using h
        obtain ⟨s, hs⟩ := List.exists_mem_of_ne_nil _ hne
        exact ⟨.synonym s, rfl, hs⟩
  · rintro ⟨side, rfl, hside⟩
    cases side with
    | literal operand => simpa [WithRefKind.ofRef, offers] using List.ne_nil_of_mem hside
    | attr ref => exact AttrSubjects.canDraw_iff.mpr ⟨ref, hside⟩
    | synonym s => simpa [WithRefKind.ofRef, offers] using List.ne_nil_of_mem hside

variable [WordSource σ]

theorem succeeds_drawSide {side : WithRef}
    (h : Succeeds (scope.drawSide options attrs wanted : Choose σ WithRef) side) :
    scope.Admits options attrs wanted side := by
  obtain ⟨kind, hkind, h⟩ := succeeds_bind h
  have hpossible := (Options.possible_mask.mp (Choose.succeeds_weighted hkind)).1
  cases kind with
  | literal =>
      obtain ⟨operand, hoperand, rfl⟩ := succeeds_bind_pure h
      exact ⟨hpossible, Choose.succeeds_uniform hoperand⟩
  | attr =>
      obtain ⟨ref, href, rfl⟩ := succeeds_bind_pure h
      exact ⟨hpossible, AttrSubjects.succeeds_draw href⟩
  | synonym =>
      obtain ⟨s, hs, rfl⟩ := succeeds_bind_pure h
      exact ⟨hpossible, Choose.succeeds_uniform hs⟩

theorem fails_drawSide {e : ChoiceError}
    (h : Fails (scope.drawSide options attrs wanted : Choose σ WithRef) e) :
    e = .zeroWeights "with_ref" ∧ ∀ side, ¬ scope.Admits options attrs wanted side := by
  rcases fails_bind h with h | ⟨kind, hkind, h⟩
  · obtain ⟨rfl, hnone⟩ := Choose.fails_weighted h
    refine ⟨rfl, fun side hside => hnone (WithRefKind.ofRef side) ?_⟩
    exact Options.possible_mask.mpr ⟨hside.possible,
      offers_iff.mpr ⟨side, rfl, hside.candidate⟩⟩
  -- a kind that was chosen has a candidate, so what follows cannot fail
  have hoffers := (Options.possible_mask.mp (Choose.succeeds_weighted hkind)).2
  cases kind with
  | literal =>
      have hempty := (Choose.fails_uniform (fails_of_fails_bind_pure h)).2
      simp [offers, hempty] at hoffers
  | attr =>
      exact absurd (fails_of_fails_bind_pure h) (AttrSubjects.not_fails_draw_of_canDraw hoffers)
  | synonym =>
      have hempty := (Choose.fails_uniform (fails_of_fails_bind_pure h)).2
      simp [offers, hempty] at hoffers

theorem succeeds_draw {clause : Clause}
    (h : Succeeds (scope.draw weights attrs : Choose σ Clause) clause) :
    ∃ left right, clause = .equation left right ∧
      scope.Admits (scope.firstWeights weights) attrs none left ∧
      scope.Admits (weightsOf weights) attrs (some left.valueType) right := by
  obtain ⟨left, hleft, h⟩ := succeeds_bind h
  obtain ⟨right, hright, rfl⟩ := succeeds_bind_pure h
  exact ⟨left, right, rfl, succeeds_drawSide hleft, succeeds_drawSide hright⟩

/-- An equation fails for want of a first side, or because a first side was drawn
that has no partner of its type. -/
theorem fails_draw {e : ChoiceError}
    (h : Fails (scope.draw weights attrs : Choose σ Clause) e) :
    e = .zeroWeights "with_ref" ∧
      ((∀ left, ¬ scope.Admits (scope.firstWeights weights) attrs none left) ∨
        ∃ left, scope.Admits (scope.firstWeights weights) attrs none left ∧
          ∀ right, ¬ scope.Admits (weightsOf weights) attrs (some left.valueType) right) := by
  rcases fails_bind h with h | ⟨left, hleft, h⟩
  · obtain ⟨rfl, hnone⟩ := fails_drawSide h
    exact ⟨rfl, .inl hnone⟩
  · obtain ⟨rfl, hnone⟩ := fails_drawSide (fails_of_fails_bind_pure h)
    exact ⟨rfl, .inr ⟨left, succeeds_drawSide hleft, hnone⟩⟩

end EquationScope

end QuerySynth
