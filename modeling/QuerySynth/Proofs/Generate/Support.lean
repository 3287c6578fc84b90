import Mathlib.Data.List.Flatten
import QuerySynth.Proofs.Generate.Equation
import QuerySynth.Proofs.Random.Reach

/-!
# Clauses that some words lead to

The converse of the statements on outcomes of clause draws: what the scope and the
weights admit is drawn by some words.

* A side of an equation and a relation are drawn as soon as the items on them can be
  picked from their lists.
* Any item can be picked from a list that 64-bit words can count, and so from every
  list of a scope with fewer synonyms and literals than there are words.
* The first item can be picked from any list, so something is drawn wherever
  anything is admitted.
-/

namespace QuerySynth

open Draw

/-! ## Lengths -/

namespace Declarations

variable {declared : Declarations}

/-- There are fewer synonyms and literals than 64-bit words, as in any memory, where
each takes up a byte at least. -/
def Fits (declared : Declarations) (literals : Literals) : Prop :=
  declared.synonyms.length + literals.operands.length < UInt64.size

theorem ofKinds_append (kinds kinds' : List Kind) :
    declared.ofKinds (kinds ++ kinds') = declared.ofKinds kinds ++ declared.ofKinds kinds' :=
  List.flatMap_append

theorem length_ofKinds_le {kinds : List Kind} (h : kinds.Nodup) :
    (declared.ofKinds kinds).length ≤ declared.synonyms.length := by
  obtain ⟨listed, hperm, hsublist⟩ := List.subperm_of_subset h fun kind _ => kind.mem_all
  calc (declared.ofKinds kinds).length
      = (declared.ofKinds listed).length := (hperm.flatMap_right declared.ofKind).length_eq.symm
    _ ≤ declared.synonyms.length := (hsublist.flatMap declared.ofKind).length_le

end Declarations

theorem Literals.length_operands (literals : Literals) :
    literals.operands.length = literals.procedureOperands.length +
      literals.variableOperands.length + literals.constantOperands.length := by
  rw [operands, nameOperands, List.length_append, List.length_append]

namespace Scope

variable {scope : Scope}

theorem length_operands (kinds : List Kind) :
    (scope.operands kinds).length = (scope.declared.ofKinds kinds).length :=
  List.length_map _

theorem length_lines_le (scope : Scope) :
    scope.lines.length ≤ (scope.declared.ofKinds [.progLine]).length := by
  unfold lines
  split
  · exact Nat.le_of_eq (length_operands _)
  · exact Nat.zero_le _

/-- Where the kinds are all different, their synonyms and the line numbers are no
more than the synonyms there are. -/
theorem length_operands_add_le (scope : Scope) (kinds more : List Kind)
    (h : (kinds ++ .progLine :: more).Nodup) :
    (scope.operands kinds).length + scope.lines.length + (scope.operands more).length ≤
      scope.declared.synonyms.length := by
  have hall : (scope.declared.ofKinds (kinds ++ ([.progLine] ++ more))).length ≤
      scope.declared.synonyms.length := Declarations.length_ofKinds_le h
  have hlines := scope.length_lines_le
  rw [Declarations.ofKinds_append, List.length_append, Declarations.ofKinds_append,
    List.length_append] at hall
  rw [length_operands, length_operands]
  omega

theorem length_statements_le (scope : Scope) :
    scope.statements.length ≤ scope.declared.synonyms.length + 1 := by
  have hkinds := scope.length_operands_add_le [.stmt, .whileStmt, .ifStmt]
    [.read, .print, .call, .assign] (by decide)
  simp only [statements, containers, List.length_append, List.length_singleton]
  omega

theorem length_left_le (scope : Scope) (relation : Relation) :
    (scope.left relation).length ≤
      scope.declared.synonyms.length + scope.literals.operands.length + 1 := by
  have hliterals := scope.literals.length_operands
  cases relation with
  | modifies =>
      have hkinds := scope.length_operands_add_le
        [.procedure, .stmt, .call, .whileStmt, .ifStmt, .assign] [.read] (by decide)
      simp only [left, actors, List.length_append]
      omega
  | uses =>
      have hkinds := scope.length_operands_add_le
        [.procedure, .stmt, .call, .whileStmt, .ifStmt, .assign] [.print] (by decide)
      simp only [left, actors, List.length_append]
      omega
  | calls =>
      have hkinds := scope.length_operands_add_le [.procedure] [] (by decide)
      simp only [left, procedures, List.length_append, List.length_singleton]
      omega
  | parent =>
      have hstatements := scope.length_statements_le
      simp only [statements, List.length_append] at hstatements
      simp only [left]
      omega
  | follows | next | affects =>
      have hstatements := scope.length_statements_le
      simp only [left]
      omega

theorem length_right_le (scope : Scope) (relation : Relation) :
    (scope.right relation).length ≤
      scope.declared.synonyms.length + scope.literals.operands.length + 1 := by
  have hliterals := scope.literals.length_operands
  cases relation with
  | modifies | uses =>
      have hkinds := scope.length_operands_add_le [.var] [] (by decide)
      simp only [right, targets, List.length_append, List.length_singleton]
      omega
  | calls => exact scope.length_left_le .calls
  | parent | follows | next | affects => exact scope.length_left_le .follows

end Scope

/-! ## Relations -/

namespace Scope

variable {scope : Scope} {relations forms : List UInt32}

/-- A relation that is admitted between two operands is drawn between them. -/
theorem reaches_drawSuchThat {relation : Relation} {transitive : Bool} {left right : Operand}
    (h : scope.Relates relations forms relation transitive left right)
    (hfits : scope.declared.Fits scope.literals) :
    Reaches (scope.drawSuchThat relations forms : Choose Tape Clause).run
      (.ok (.suchThat relation transitive left right)) := by
  have hsupports : scope.supports relation = true :=
    supports_iff.mpr ⟨List.ne_nil_of_mem h.left_mem, List.ne_nil_of_mem h.right_mem⟩
  have hrelation : Reaches (Choose.weighted "relation"
      ((Options.ofWeights Relation.all relations).mask scope.supports) :
      Choose Tape Relation).run (.ok relation) := by
    refine Choose.reaches_weighted ?_ (Options.possible_mask.mpr ⟨h.possible, hsupports⟩)
    rw [Options.length_mask]
    exact Nat.le_trans (Options.length_ofWeights_le _ _) (by decide)
  have hsize : scope.declared.synonyms.length + scope.literals.operands.length < 2 ^ 64 := hfits
  -- both ways of settling the form go on with the same two operands
  have hoperands : Reaches (do
      let left ← Choose.uniform "relation left operand" (scope.left relation)
      let right ← Choose.uniform "relation right operand" (scope.right relation)
      return Clause.suchThat relation transitive left right : Choose Tape Clause).run
      (.ok (.suchThat relation transitive left right)) := by
    have hleft := scope.length_left_le relation
    have hright := scope.length_right_le relation
    refine reaches_bind_of_ok (Choose.reaches_uniform (by omega) h.left_mem) ?_
    refine reaches_bind_of_ok (Choose.reaches_uniform (by omega) h.right_mem) ?_
    exact reaches_pure _
  refine reaches_bind_of_ok hrelation ?_
  have hform := h.form
  by_cases htransitive : relation.hasTransitive = true
  · rw [if_pos htransitive] at hform
    simp only [htransitive, if_true]
    have hlength : (Options.ofWeights [false, true] forms).length ≤ 2 :=
      Options.length_ofWeights_le _ _
    exact reaches_bind_of_ok (Choose.reaches_weighted (by omega) hform) hoperands
  · rw [if_neg htransitive] at hform
    simp only [htransitive]
    refine reaches_bind_of_ok (reaches_pure _) ?_
    rw [← hform]
    exact hoperands

end Scope

/-! ## Attributes -/

namespace AttrSubjects

theorem length_get_ofDeclarations_le (declared : Declarations) (attr : AttrName) :
    ((ofDeclarations declared).get attr).length ≤ declared.synonyms.length := by
  rw [get_ofDeclarations]
  exact Declarations.length_ofKinds_le (by cases attr <;> decide)

variable {subjects : AttrSubjects} {weights : List UInt32} {wanted : Option ValueType}

/-- An admitted reference is drawn as soon as its subject can be picked. -/
theorem reaches_draw {ref : AttrRef} (h : subjects.Admits weights wanted ref)
    (hsubject : Reaches (Choose.uniform "attribute operand" (subjects.get ref.attr) :
      Choose Tape Synonym).run (.ok ref.subject)) :
    Reaches (subjects.draw weights wanted : Choose Tape AttrRef).run (.ok ref) := by
  have hoffers : subjects.offers wanted ref.attr = true :=
    offers_iff.mpr ⟨h.valueType_eq, List.ne_nil_of_mem h.subject_mem⟩
  have hattr : Reaches (Choose.weighted "attr_name"
      ((Options.ofWeights AttrName.all weights).mask (subjects.offers wanted)) :
      Choose Tape AttrName).run (.ok ref.attr) := by
    refine Choose.reaches_weighted ?_ (Options.possible_mask.mpr ⟨h.possible, hoffers⟩)
    rw [Options.length_mask]
    exact Nat.le_trans (Options.length_ofWeights_le _ _) (by decide)
  exact reaches_bind_of_ok hattr (reaches_bind_of_ok hsubject (reaches_pure _))

/-- Where something is admitted, something is drawn: with the same attribute, and the
first of its subjects. -/
theorem exists_reaches_draw {ref : AttrRef} (h : subjects.Admits weights wanted ref) :
    ∃ drawn, subjects.Admits weights wanted drawn ∧
      Reaches (subjects.draw weights wanted : Choose Tape AttrRef).run (.ok drawn) := by
  obtain ⟨subject, others, hsubjects⟩ :=
    List.exists_cons_of_ne_nil (List.ne_nil_of_mem h.subject_mem)
  have hadmits : subjects.Admits weights wanted ⟨subject, ref.attr⟩ :=
    ⟨h.possible, h.valueType_eq, by rw [hsubjects]; exact List.mem_cons_self⟩
  refine ⟨_, hadmits, reaches_draw hadmits ?_⟩
  rw [hsubjects]
  exact Choose.reaches_uniform_cons _ _ _

end AttrSubjects

/-! ## Equations -/

namespace EquationScope

/-- The item on the side can be picked from its list. -/
def Picks (scope : EquationScope) (attrs : List UInt32) (wanted : Option ValueType) :
    WithRef → Prop
  | .literal operand =>
      Reaches (Choose.uniform (literalName wanted) (scope.literalsOf wanted) :
        Choose Tape Operand).run (.ok operand)
  | .attr ref => Reaches (scope.subjects.draw attrs wanted : Choose Tape AttrRef).run (.ok ref)
  | .synonym s =>
      Reaches (Choose.uniform "prog_line synonym" (scope.linesOf wanted) :
        Choose Tape Synonym).run (.ok s)

variable {scope : EquationScope} {options : Options WithRefKind} {weights attrs : List UInt32}
  {wanted : Option ValueType}

theorem reaches_drawSide {side : WithRef} (hlength : options.length ≤ 3)
    (h : scope.Admits options attrs wanted side) (hpicks : scope.Picks attrs wanted side) :
    Reaches (scope.drawSide options attrs wanted : Choose Tape WithRef).run (.ok side) := by
  have hkind : Reaches (Choose.weighted "with_ref" (options.mask (scope.offers attrs wanted)) :
      Choose Tape WithRefKind).run (.ok (WithRefKind.ofRef side)) := by
    refine Choose.reaches_weighted ?_ (Options.possible_mask.mpr ⟨h.possible, ?_⟩)
    · rw [Options.length_mask]
      omega
    · exact offers_iff.mpr ⟨side, rfl, h.candidate⟩
  refine reaches_bind_of_ok hkind ?_
  cases side with
  | literal operand => exact reaches_bind_of_ok hpicks (reaches_pure _)
  | attr ref => exact reaches_bind_of_ok hpicks (reaches_pure _)
  | synonym s => exact reaches_bind_of_ok hpicks (reaches_pure _)

/-- Where a side is admitted, a side of the same kind is drawn. -/
theorem exists_reaches_drawSide {side : WithRef} (hlength : options.length ≤ 3)
    (h : scope.Admits options attrs wanted side) :
    ∃ drawn, scope.Admits options attrs wanted drawn ∧
      Reaches (scope.drawSide options attrs wanted : Choose Tape WithRef).run (.ok drawn) := by
  obtain ⟨drawn, hadmits, hpicks⟩ : ∃ drawn, scope.Admits options attrs wanted drawn ∧
      scope.Picks attrs wanted drawn := by
    -- the head of a list can be picked whatever the length of the list
    obtain ⟨hpossible, hcandidate⟩ := h
    cases side with
    | literal operand =>
        obtain ⟨first, others, hliterals⟩ :=
          List.exists_cons_of_ne_nil (List.ne_nil_of_mem hcandidate)
        refine ⟨.literal first, ⟨hpossible, ?_⟩, ?_⟩
        · show first ∈ scope.literalsOf wanted
          rw [hliterals]
          exact List.mem_cons_self
        · unfold Picks
          rw [hliterals]
          exact Choose.reaches_uniform_cons _ _ _
    | attr ref =>
        obtain ⟨drawn, hadmits, hdrawn⟩ := AttrSubjects.exists_reaches_draw hcandidate
        exact ⟨.attr drawn, ⟨hpossible, hadmits⟩, hdrawn⟩
    | synonym s =>
        obtain ⟨first, others, hlines⟩ :=
          List.exists_cons_of_ne_nil (List.ne_nil_of_mem hcandidate)
        refine ⟨.synonym first, ⟨hpossible, ?_⟩, ?_⟩
        · show first ∈ scope.linesOf wanted
          rw [hlines]
          exact List.mem_cons_self
        · unfold Picks
          rw [hlines]
          exact Choose.reaches_uniform_cons _ _ _
  exact ⟨drawn, hadmits, reaches_drawSide hlength hadmits hpicks⟩

theorem length_weightsOf (weights : List UInt32) : (weightsOf weights).length = 3 := rfl

theorem length_firstWeights (scope : EquationScope) (weights : List UInt32) :
    (scope.firstWeights weights).length = 3 := by
  unfold firstWeights
  split
  · rfl
  · exact length_weightsOf weights

variable {declared : Declarations} {literals : Literals}

theorem length_literalsOf_le (scope : EquationScope) (wanted : Option ValueType) :
    (scope.literalsOf wanted).length ≤ scope.literals.length := by
  have hsum : scope.literals.length = scope.names.length + scope.integers.length :=
    List.length_append
  match wanted with
  | none => exact Nat.le_refl _
  | some .name =>
      simp only [literalsOf]
      omega
  | some .number =>
      simp only [literalsOf]
      omega

theorem length_linesOf_le (scope : EquationScope) (wanted : Option ValueType) :
    (scope.linesOf wanted).length ≤ scope.lines.length := by
  match wanted with
  | none => exact Nat.le_refl _
  | some .name => exact Nat.zero_le _
  | some .number => exact Nat.le_refl _

/-- Every candidate can be picked, if there are fewer of them than words. -/
theorem picks_of_candidate {side : WithRef} (hfits : declared.Fits literals)
    (h : (ofDeclarations declared literals).Candidate attrs wanted side) :
    (ofDeclarations declared literals).Picks attrs wanted side := by
  have hsize : declared.synonyms.length + literals.operands.length < 2 ^ 64 := hfits
  cases side with
  | literal operand =>
      have hlength := length_literalsOf_le (ofDeclarations declared literals) wanted
      have hliterals : (ofDeclarations declared literals).literals.length =
          literals.operands.length := rfl
      exact Choose.reaches_uniform (by omega) h
  | attr ref =>
      have hadmits : (AttrSubjects.ofDeclarations declared).Admits attrs wanted ref := h
      have hlength := AttrSubjects.length_get_ofDeclarations_le declared ref.attr
      exact AttrSubjects.reaches_draw hadmits
        (Choose.reaches_uniform (Nat.le_trans hlength (by omega)) hadmits.subject_mem)
  | synonym s =>
      have hlines := length_linesOf_le (ofDeclarations declared literals) wanted
      have hlength : (declared.ofKinds [.progLine]).length ≤ declared.synonyms.length :=
        Declarations.length_ofKinds_le (by decide)
      have hsingle : declared.ofKinds [.progLine] =
          (ofDeclarations declared literals).lines := by
        rw [Declarations.ofKinds, List.flatMap_singleton]
        rfl
      rw [hsingle] at hlength
      exact Choose.reaches_uniform (by omega) h

/-- An equation of admitted sides is drawn. -/
theorem reaches_draw {left right : WithRef} (hfits : declared.Fits literals)
    (hleft : (ofDeclarations declared literals).Admits
      ((ofDeclarations declared literals).firstWeights weights) attrs none left)
    (hright : (ofDeclarations declared literals).Admits (weightsOf weights) attrs
      (some left.valueType) right) :
    Reaches ((ofDeclarations declared literals).draw weights attrs : Choose Tape Clause).run
      (.ok (.equation left right)) := by
  have hfirst := length_firstWeights (ofDeclarations declared literals) weights
  have hsecond := length_weightsOf weights
  refine reaches_bind_of_ok (reaches_drawSide (Nat.le_of_eq hfirst) hleft
    (picks_of_candidate hfits hleft.candidate)) ?_
  refine reaches_bind_of_ok (reaches_drawSide (Nat.le_of_eq hsecond) hright
    (picks_of_candidate hfits hright.candidate)) ?_
  exact reaches_pure _

end EquationScope

end QuerySynth
