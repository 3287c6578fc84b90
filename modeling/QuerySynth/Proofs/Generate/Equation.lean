import QuerySynth.Proofs.Generate.Clause

/-!
# Candidates for the sides of equations

What the candidates made of declarations and literals are: supplied literals,
attributes of declared owners, and declared line numbers.  Where a type is
wanted, each of them has it, and each of them would do as its own partner.  A sort
of side is weighed by the weight at its place, except that the weight of absent
literals counts for line numbers on the first side.
-/

namespace QuerySynth.EquationScope

variable {declared : Declarations} {literals : Literals} {attrs : List UInt32}
  {wanted : Option ValueType}

/-- The candidates for a wanted type are candidates for any type as well. -/
theorem mem_literals_of_mem_literalsOf {scope : EquationScope} {operand : Operand}
    (h : operand ∈ scope.literalsOf wanted) : operand ∈ scope.literals := by
  match wanted with
  | none => exact h
  | some .name => exact List.mem_append_left _ h
  | some .number => exact List.mem_append_right _ h

theorem mem_lines_of_mem_linesOf {scope : EquationScope} {s : Synonym}
    (h : s ∈ scope.linesOf wanted) : s ∈ scope.lines := by
  match wanted with
  | none => exact h
  | some .name => cases h
  | some .number => exact h

theorem mem_nameOperands {operand : Operand} (h : operand ∈ literals.nameOperands) :
    ∃ text, operand = .name text ∧
      (text ∈ literals.procedureNames ∨ text ∈ literals.variableNames) := by
  rcases List.mem_append.mp h with h | h
  · obtain ⟨text, htext, rfl⟩ := List.mem_map.mp h
    exact ⟨text, rfl, .inl htext⟩
  · obtain ⟨text, htext, rfl⟩ := List.mem_map.mp h
    exact ⟨text, rfl, .inr htext⟩

theorem mem_constantOperands {operand : Operand} (h : operand ∈ literals.constantOperands) :
    ∃ text, operand = .integer text ∧ text ∈ literals.constants := by
  obtain ⟨text, htext, rfl⟩ := List.mem_map.mp h
  exact ⟨text, rfl, htext⟩

theorem mem_literals {operand : Operand}
    (h : operand ∈ (ofDeclarations declared literals).literals) :
    (∃ text, operand = .name text ∧
      (text ∈ literals.procedureNames ∨ text ∈ literals.variableNames)) ∨
    ∃ text, operand = .integer text ∧ text ∈ literals.constants := by
  rcases List.mem_append.mp h with h | h
  · exact .inl (mem_nameOperands h)
  · exact .inr (mem_constantOperands h)

theorem literals_eq_nil_iff :
    (ofDeclarations declared literals).literals = [] ↔ literals.isEmpty = true := by
  simp [EquationScope.literals, ofDeclarations, Literals.nameOperands,
    Literals.procedureOperands, Literals.variableOperands, Literals.constantOperands,
    Literals.isEmpty, and_assoc]

theorem mem_lines {s : Synonym} (h : s ∈ (ofDeclarations declared literals).lines) :
    s.kind = .progLine ∧ declared.contains s = true :=
  ⟨(Declarations.mem_ofKind.mp h).1, Declarations.contains_of_mem_ofKind h⟩

namespace Candidate

variable {side : WithRef}

/-- The synonym of a side, under an attribute or bare, is declared. -/
theorem declared_of_mem (h : (ofDeclarations declared literals).Candidate attrs wanted side) :
    ∀ s ∈ side.synonym?, declared.contains s = true := by
  intro s hs
  cases side with
  | literal operand => cases hs
  | attr ref =>
      cases hs
      exact (AttrSubjects.Admits.owned h).2
  | synonym line =>
      cases hs
      exact (mem_lines (mem_lines_of_mem_linesOf h)).2

/-- A side drawn for a wanted type has that type. -/
theorem valueType_eq {type : ValueType}
    (h : (ofDeclarations declared literals).Candidate attrs (some type) side) :
    side.valueType = type := by
  cases side with
  | literal operand =>
      cases type with
      | name =>
          obtain ⟨text, rfl, -⟩ := mem_nameOperands h
          rfl
      | number =>
          obtain ⟨text, rfl, -⟩ := mem_constantOperands h
          rfl
  | attr ref => exact AttrSubjects.Admits.valueType_eq h type rfl
  | synonym line =>
      cases type with
      | name => cases h
      | number => rfl

/-- A candidate for any type is a candidate for its own. -/
theorem partner (h : (ofDeclarations declared literals).Candidate attrs wanted side) :
    (ofDeclarations declared literals).Candidate attrs (some side.valueType) side := by
  cases side with
  | literal operand =>
      rcases List.mem_append.mp (mem_literals_of_mem_literalsOf h) with hname | hinteger
      · obtain ⟨text, rfl, -⟩ := mem_nameOperands hname
        exact hname
      · obtain ⟨text, rfl, -⟩ := mem_constantOperands hinteger
        exact hinteger
  | attr ref =>
      have hadmits : (AttrSubjects.ofDeclarations declared).Admits attrs wanted ref := h
      exact ⟨hadmits.possible, fun type htype => Option.some.inj htype, hadmits.subject_mem⟩
  | synonym line => exact mem_lines_of_mem_linesOf h

end Candidate

/-! ## Weights of sides -/

section Weights

variable {weights : List UInt32}

/-- A kind of side has the weight at its place. -/
theorem possible_weightsOf_iff {kind : WithRefKind} :
    (weightsOf weights).Possible kind ↔ 0 < weights.getD kind.ctorIdx 0 := by
  cases kind <;> simp [Options.Possible, weightsOf, WithRefKind.all, WithRefKind.ctorIdx]

theorem toNat_addWeights (a b : UInt32) :
    (addWeights a b).toNat = min (a.toNat + b.toNat) (UInt32.size - 1) := by
  have hsize : min (a.toNat + b.toNat) (UInt32.size - 1) < UInt32.size :=
    Nat.lt_of_le_of_lt (Nat.min_le_right _ _) (by decide)
  exact UInt32.toNat_ofNat_of_lt hsize

theorem pos_addWeights_iff {a b : UInt32} : 0 < addWeights a b ↔ 0 < a ∨ 0 < b := by
  have hsize : UInt32.size = 4294967296 := rfl
  rw [UInt32.lt_iff_toNat_lt, UInt32.lt_iff_toNat_lt, UInt32.lt_iff_toNat_lt, toNat_addWeights,
    UInt32.toNat_zero]
  omega

/-- A sort of first side has its own weight, if literals are there to be weighed, and
line numbers have the weight of absent literals too. -/
theorem possible_firstWeights_iff {scope : EquationScope} {kind : WithRefKind} :
    (scope.firstWeights weights).Possible kind ↔
      (0 < weights.getD kind.ctorIdx 0 ∧ (kind = .literal → scope.literals ≠ [])) ∨
        (kind = .synonym ∧ scope.literals = [] ∧ 0 < weights.getD 0 0) := by
  unfold firstWeights
  split
  · next hempty =>
      have hnil : scope.literals = [] := List.isEmpty_iff.mp hempty
      cases kind with
      | literal => simp [Options.Possible, hnil]
      | attr => simp [Options.Possible, WithRefKind.ctorIdx]
      | synonym => simp [Options.Possible, hnil, pos_addWeights_iff, WithRefKind.ctorIdx]
  · next hsome =>
      have hne : scope.literals ≠ [] := fun hnil => hsome (List.isEmpty_iff.mpr hnil)
      simp [possible_weightsOf_iff, hne]

/-- A kind of first side has a weight of its own, or it is the line numbers with
the weight of literals that are not there. -/
theorem pos_of_possible_firstWeights {scope : EquationScope} {kind : WithRefKind}
    (h : (scope.firstWeights weights).Possible kind) :
    0 < weights.getD kind.ctorIdx 0 ∨
      (kind = .synonym ∧ scope.literals = [] ∧ 0 < weights.getD 0 0) :=
  (possible_firstWeights_iff.mp h).imp_left And.left

/-- Where each of the weights is positive, every kind of side is possible. -/
theorem possible_weightsOf (hlength : weights.length = 3)
    (hpositive : ∀ weight ∈ weights, 0 < weight) (kind : WithRefKind) :
    (weightsOf weights).Possible kind := by
  have hplace : kind.ctorIdx < weights.length := by
    rw [hlength]
    cases kind <;> decide
  rw [possible_weightsOf_iff, List.getD_eq_getElem?_getD, List.getElem?_eq_getElem hplace]
  exact hpositive _ (List.getElem_mem hplace)

/-- Attributes keep their weight when that of the literals is moved. -/
theorem possible_firstWeights_attr (scope : EquationScope) (hlength : weights.length = 3)
    (hpositive : ∀ weight ∈ weights, 0 < weight) : (scope.firstWeights weights).Possible .attr := by
  have hattr := possible_weightsOf_iff.mp (possible_weightsOf hlength hpositive .attr)
  exact possible_firstWeights_iff.mpr (.inl ⟨hattr, nofun⟩)

end Weights

end QuerySynth.EquationScope
