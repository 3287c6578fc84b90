import QuerySynth.Proofs.Generate.Support

/-!
# The equations that can be drawn

What may stand on the two sides of an equation, told by declarations, literals and
weights.

* The first side is any literal, any readable attribute or any line number whose
  sort has a weight; without literals their weight counts for line numbers.
* The second side has the type of the first, and only weights of its own count.
* A drawn equation has two such sides, and any two such sides are drawn by some words.
-/

namespace QuerySynth

open Draw

/-! ## Sides -/

/-- The attribute has a positive weight, and its subject is a declared synonym of a
kind that owns it. -/
structure AttrRef.Readable (ref : AttrRef) (declared : Declarations) (attrs : List UInt32) :
    Prop where
  weight_pos : 0 < attrs.getD ref.attr.ctorIdx 0
  owned : ref.subject.kind ∈ ref.attr.owners
  declared : declared.contains ref.subject = true

/-- The synonym is a declared line number. -/
structure Synonym.IsLine (s : Synonym) (declared : Declarations) : Prop where
  kind_eq : s.kind = .progLine
  declared : declared.contains s = true

/-- What the first side of an equation can be. -/
def FirstSide (declared : Declarations) (literals : Literals) (weights attrs : List UInt32) :
    WithRef → Prop
  | .literal (.name text) => 0 < weights.getD 0 0 ∧
      (text ∈ literals.procedureNames ∨ text ∈ literals.variableNames)
  | .literal (.integer text) => 0 < weights.getD 0 0 ∧ text ∈ literals.constants
  | .literal _ => False
  | .attr ref => 0 < weights.getD 1 0 ∧ ref.Readable declared attrs
  | .synonym s => (0 < weights.getD 2 0 ∨ 0 < weights.getD 0 0 ∧ literals.isEmpty = true) ∧
      s.IsLine declared

/-- What the second side can be, behind a first side of the given type. -/
def SecondSide (declared : Declarations) (literals : Literals) (weights attrs : List UInt32) :
    ValueType → WithRef → Prop
  | .name, .literal (.name text) => 0 < weights.getD 0 0 ∧
      (text ∈ literals.procedureNames ∨ text ∈ literals.variableNames)
  | .name, .attr ref => (ref.attr = .procName ∨ ref.attr = .varName) ∧
      0 < weights.getD 1 0 ∧ ref.Readable declared attrs
  | .number, .literal (.integer text) => 0 < weights.getD 0 0 ∧ text ∈ literals.constants
  | .number, .attr ref => (ref.attr = .value ∨ ref.attr = .stmtNo) ∧
      0 < weights.getD 1 0 ∧ ref.Readable declared attrs
  | .number, .synonym s => 0 < weights.getD 2 0 ∧ s.IsLine declared
  | _, _ => False

/-! ## Candidates are such sides -/

theorem AttrSubjects.admits_iff {declared : Declarations} {attrs : List UInt32}
    {wanted : Option ValueType} {ref : AttrRef} :
    (ofDeclarations declared).Admits attrs wanted ref ↔
      (∀ type ∈ wanted, ref.valueType = type) ∧ ref.Readable declared attrs := by
  have hpossible : (Options.ofWeights AttrName.all attrs).Possible ref.attr ↔
      0 < attrs.getD ref.attr.ctorIdx 0 :=
    Options.possible_ofWeights_iff (by decide) ref.attr.getElem?_all
  constructor
  · intro h
    exact ⟨h.valueType_eq, hpossible.mp h.possible, h.owned.1, h.owned.2⟩
  · rintro ⟨htype, hreadable⟩
    refine ⟨hpossible.mpr hreadable.weight_pos, htype, ?_⟩
    rw [get_ofDeclarations]
    exact Declarations.mem_ofKinds.mpr ⟨hreadable.owned, hreadable.declared⟩

theorem AttrRef.valueType_eq_name_iff {ref : AttrRef} :
    ref.valueType = .name ↔ ref.attr = .procName ∨ ref.attr = .varName := by
  unfold valueType
  cases ref.attr <;> decide

theorem AttrRef.valueType_eq_number_iff {ref : AttrRef} :
    ref.valueType = .number ↔ ref.attr = .value ∨ ref.attr = .stmtNo := by
  unfold valueType
  cases ref.attr <;> decide

namespace EquationScope

variable {declared : Declarations} {literals : Literals} {weights attrs : List UInt32}

theorem name_mem_nameOperands {text : String} :
    .name text ∈ literals.nameOperands ↔
      text ∈ literals.procedureNames ∨ text ∈ literals.variableNames := by
  constructor
  · intro h
    obtain ⟨other, heq, hother⟩ := mem_nameOperands h
    cases heq
    exact hother
  · rintro (h | h)
    · exact List.mem_append_left _ (List.mem_map.mpr ⟨text, h, rfl⟩)
    · exact List.mem_append_right _ (List.mem_map.mpr ⟨text, h, rfl⟩)

theorem integer_mem_constantOperands {text : String} :
    .integer text ∈ literals.constantOperands ↔ text ∈ literals.constants := by
  constructor
  · intro h
    obtain ⟨other, heq, hother⟩ := mem_constantOperands h
    cases heq
    exact hother
  · intro h
    exact List.mem_map.mpr ⟨text, h, rfl⟩

theorem mem_lines_iff {s : Synonym} :
    s ∈ (ofDeclarations declared literals).lines ↔ s.IsLine declared := by
  constructor
  · intro h
    exact ⟨(mem_lines h).1, (mem_lines h).2⟩
  · rintro ⟨hkind, hdeclared⟩
    refine Declarations.mem_ofKind.mpr ⟨hkind, ?_⟩
    rw [← hkind]
    exact Declarations.contains_iff.mp hdeclared

theorem firstSide_of_admits {side : WithRef}
    (h : (ofDeclarations declared literals).Admits
      ((ofDeclarations declared literals).firstWeights weights) attrs none side) :
    FirstSide declared literals weights attrs side := by
  obtain ⟨hpossible, hcandidate⟩ := h
  rw [possible_firstWeights_iff] at hpossible
  cases side with
  | literal operand =>
      have hweight : 0 < weights.getD 0 0 := by
        rcases hpossible with ⟨hweight, -⟩ | ⟨hkind, -⟩
        · exact hweight
        · cases hkind
      rcases mem_literals hcandidate with ⟨text, rfl, htext⟩ | ⟨text, rfl, htext⟩
      · exact ⟨hweight, htext⟩
      · exact ⟨hweight, htext⟩
  | attr ref =>
      rcases hpossible with ⟨hweight, -⟩ | ⟨hkind, -⟩
      · exact ⟨hweight, (AttrSubjects.admits_iff.mp hcandidate).2⟩
      · cases hkind
  | synonym s =>
      refine ⟨?_, mem_lines_iff.mp hcandidate⟩
      rcases hpossible with ⟨hweight, -⟩ | ⟨-, hnone, hweight⟩
      · exact .inl hweight
      · exact .inr ⟨hweight, literals_eq_nil_iff.mp hnone⟩

theorem admits_of_firstSide {side : WithRef}
    (h : FirstSide declared literals weights attrs side) :
    (ofDeclarations declared literals).Admits
      ((ofDeclarations declared literals).firstWeights weights) attrs none side := by
  cases side with
  | literal operand =>
      obtain ⟨hweight, hmem⟩ : 0 < weights.getD 0 0 ∧
          operand ∈ (ofDeclarations declared literals).literals := by
        cases operand with
        | name text => exact ⟨h.1, List.mem_append_left _ (name_mem_nameOperands.mpr h.2)⟩
        | integer text =>
            exact ⟨h.1, List.mem_append_right _ (integer_mem_constantOperands.mpr h.2)⟩
        | synonym s => exact h.elim
        | wildcard => exact h.elim
      have hne := List.ne_nil_of_mem hmem
      exact ⟨possible_firstWeights_iff.mpr (.inl ⟨hweight, fun _ => hne⟩), hmem⟩
  | attr ref =>
      obtain ⟨hweight, hreadable⟩ := h
      exact ⟨possible_firstWeights_iff.mpr (.inl ⟨hweight, nofun⟩),
        AttrSubjects.admits_iff.mpr ⟨nofun, hreadable⟩⟩
  | synonym s =>
      obtain ⟨hweight, hline⟩ := h
      refine ⟨possible_firstWeights_iff.mpr ?_, mem_lines_iff.mpr hline⟩
      rcases hweight with hweight | ⟨hweight, hnone⟩
      · exact .inl ⟨hweight, nofun⟩
      · exact .inr ⟨rfl, literals_eq_nil_iff.mpr hnone, hweight⟩

/-- The first sides told above are the ones that the draw admits. -/
theorem admits_first_iff {side : WithRef} :
    (ofDeclarations declared literals).Admits
        ((ofDeclarations declared literals).firstWeights weights) attrs none side ↔
      FirstSide declared literals weights attrs side :=
  ⟨firstSide_of_admits, admits_of_firstSide⟩

theorem secondSide_attr_iff {type : ValueType} {ref : AttrRef} :
    SecondSide declared literals weights attrs type (.attr ref) ↔
      ref.valueType = type ∧ 0 < weights.getD 1 0 ∧ ref.Readable declared attrs := by
  cases type with
  | name =>
      rw [AttrRef.valueType_eq_name_iff]
      exact Iff.rfl
  | number =>
      rw [AttrRef.valueType_eq_number_iff]
      exact Iff.rfl

/-- The second sides told above are the ones that the draw admits. -/
theorem admits_second_iff {type : ValueType} {side : WithRef} :
    (ofDeclarations declared literals).Admits (weightsOf weights) attrs (some type) side ↔
      SecondSide declared literals weights attrs type side := by
  have hsplit : (ofDeclarations declared literals).Admits (weightsOf weights) attrs (some type)
      side ↔ 0 < weights.getD (WithRefKind.ofRef side).ctorIdx 0 ∧
        (ofDeclarations declared literals).Candidate attrs (some type) side :=
    ⟨fun h => ⟨possible_weightsOf_iff.mp h.possible, h.candidate⟩,
      fun h => ⟨possible_weightsOf_iff.mpr h.1, h.2⟩⟩
  rw [hsplit]
  -- what is left to compare are the candidates, kind by kind and type by type
  cases side with
  | literal operand =>
      cases type with
      | name =>
          constructor
          · rintro ⟨hweight, hmem⟩
            obtain ⟨text, rfl, htext⟩ := mem_nameOperands hmem
            exact ⟨hweight, htext⟩
          · intro h
            cases operand with
            | name text => exact ⟨h.1, name_mem_nameOperands.mpr h.2⟩
            | integer | synonym | wildcard => exact h.elim
      | number =>
          constructor
          · rintro ⟨hweight, hmem⟩
            obtain ⟨text, rfl, htext⟩ := mem_constantOperands hmem
            exact ⟨hweight, htext⟩
          · intro h
            cases operand with
            | integer text => exact ⟨h.1, integer_mem_constantOperands.mpr h.2⟩
            | name | synonym | wildcard => exact h.elim
  | attr ref =>
      have hcandidate : (ofDeclarations declared literals).Candidate attrs (some type)
          (.attr ref) ↔ ref.valueType = type ∧ ref.Readable declared attrs := by
        refine AttrSubjects.admits_iff.trans (and_congr_left fun _ => ?_)
        exact ⟨fun h => h type rfl, fun h other hother => Option.some.inj hother ▸ h⟩
      rw [hcandidate, secondSide_attr_iff]
      exact and_left_comm
  | synonym s =>
      cases type with
      | name => exact ⟨fun h => (nomatch h.2), False.elim⟩
      | number => exact and_congr_right fun _ => mem_lines_iff

/-! ## Drawn equations -/

theorem sides_of_succeeds {σ : Type} [WordSource σ] {clause : Clause}
    (h : Succeeds ((ofDeclarations declared literals).draw weights attrs : Choose σ Clause)
      clause) :
    ∃ left right, clause = .equation left right ∧
      FirstSide declared literals weights attrs left ∧
      SecondSide declared literals weights attrs left.valueType right := by
  obtain ⟨left, right, rfl, hleft, hright⟩ := succeeds_draw h
  exact ⟨left, right, rfl, admits_first_iff.mp hleft, admits_second_iff.mp hright⟩

/-- Some words lead to an equation exactly if its sides are such a first side and a
second side of the same type, and no source of words leads to any other clause. -/
theorem draw_support_iff {clause : Clause} (hfits : declared.Fits literals) :
    ((∃ words rest, ((ofDeclarations declared literals).draw weights attrs).run
        (⟨words⟩ : Tape) = some (.ok clause, rest)) ↔
      ∃ left right, clause = .equation left right ∧
        FirstSide declared literals weights attrs left ∧
        SecondSide declared literals weights attrs left.valueType right) ∧
      ∀ (σ : Type) [WordSource σ] (s t : σ),
        ((ofDeclarations declared literals).draw weights attrs).run s = some (.ok clause, t) →
          ∃ left right, clause = .equation left right ∧
            FirstSide declared literals weights attrs left ∧
            SecondSide declared literals weights attrs left.valueType right := by
  refine ⟨⟨?_, ?_⟩, ?_⟩
  · rintro ⟨words, rest, hrun⟩
    exact sides_of_succeeds (succeeds_of_run hrun)
  · rintro ⟨left, right, rfl, hleft, hright⟩
    obtain ⟨words, hwords⟩ := reaches_draw hfits (admits_first_iff.mpr hleft)
      (admits_second_iff.mpr hright)
    exact ⟨words ++ [], ⟨[]⟩, hwords []⟩
  · intro σ _ s t hrun
    exact sides_of_succeeds (succeeds_of_run hrun)

/-- A line number and a constant. -/
def lineAndConstant : Declarations :=
  ⟨((PerKind.fill []).set .progLine ["n"]).set .const ["c"]⟩

/-- Without literals and without a weight of their own, line numbers can open an equation
and cannot close it. -/
theorem draw_moved_support :
    lineAndConstant.Fits ⟨[], [], []⟩ ∧
      (∃ words rest, ((ofDeclarations lineAndConstant ⟨[], [], []⟩).draw [1, 1, 0]
        [1, 1, 1, 1]).run (⟨words⟩ : Tape) =
          some (.ok (.equation (.synonym ⟨.progLine, "n"⟩) (.attr ⟨⟨.const, "c"⟩, .value⟩)),
            rest)) ∧
      ¬ ∃ words rest, ((ofDeclarations lineAndConstant ⟨[], [], []⟩).draw [1, 1, 0]
        [1, 1, 1, 1]).run (⟨words⟩ : Tape) =
          some (.ok (.equation (.attr ⟨⟨.const, "c"⟩, .value⟩) (.synonym ⟨.progLine, "n"⟩)),
            rest) := by
  have hfits : lineAndConstant.Fits ⟨[], [], []⟩ := by
    show 2 + 0 < UInt64.size
    decide
  refine ⟨hfits, (draw_support_iff hfits).1.mpr ?_, ?_⟩
  · exact ⟨_, _, rfl, ⟨.inr ⟨by decide, rfl⟩, rfl, rfl⟩,
      .inl rfl, by decide, by decide, by decide, rfl⟩
  · intro hswapped
    obtain ⟨left, right, heq, -, hright⟩ := (draw_support_iff hfits).1.mp hswapped
    cases heq
    -- the second side is a line number, and only its own weight would let it be drawn
    have hweight : (0 : UInt32) < 0 := hright.1
    exact absurd hweight (by decide)

end EquationScope

end QuerySynth
