import QuerySynth.Proofs.Generate.Support

/-!
# The operands of relations

Which such-that clauses can be drawn: those of a table with one row for every
relation, and none besides.

* A row says where the weight of the relation stands, whether the relation has a
  starred form, and what may stand on either side.
* A rule admits what is on one of five lists, and the lists of a scope are put
  together from the same, one lemma for each that several relations share.
-/

namespace QuerySynth

open Draw

/-! ## The table -/

/-- What may stand on one side of a relation. -/
structure SideRule where
  /-- The kinds of synonyms that may. -/
  kinds : List Kind
  /-- Line numbers may, where they may stand for statements. -/
  lines : Bool := false
  procedureNames : Bool := false
  variableNames : Bool := false
  wildcard : Bool := false

namespace SideRule

/-- What modifies or uses a variable; `device` is the kind of statement that does
only the one of them. -/
def actors (device : Kind) : SideRule where
  kinds := [.procedure, .stmt, .call, .whileStmt, .ifStmt, .assign, device]
  lines := true
  procedureNames := true

/-- What is modified or used. -/
def targets : SideRule where
  kinds := [.var]
  variableNames := true
  wildcard := true

/-- What calls and is called. -/
def procedures : SideRule where
  kinds := [.procedure]
  procedureNames := true
  wildcard := true

/-- Statements that contain others. -/
def containers : SideRule where
  kinds := [.stmt, .whileStmt, .ifStmt]
  lines := true
  wildcard := true

/-- Statements of every kind. -/
def statements : SideRule where
  kinds := [.stmt, .whileStmt, .ifStmt, .read, .print, .call, .assign]
  lines := true
  wildcard := true

/-- The rule admits the operand, over the declarations and literals of a scope. -/
def Admits (rule : SideRule) (scope : Scope) : Operand → Prop
  | .synonym s => scope.declared.contains s = true ∧
      (s.kind ∈ rule.kinds ∨
        (rule.lines = true ∧ scope.lineRefs = true ∧ s.kind = .progLine))
  | .name text =>
      (rule.procedureNames = true ∧ text ∈ scope.literals.procedureNames) ∨
        (rule.variableNames = true ∧ text ∈ scope.literals.variableNames)
  | .integer _ => False
  | .wildcard => rule.wildcard = true

end SideRule

/-- The row of a relation. -/
structure RelationRule where
  /-- The place of its weight. -/
  place : Nat
  /-- Whether there is a form with a star. -/
  starred : Bool
  left : SideRule
  right : SideRule

/-- The table of relations. -/
def Relation.rule : Relation → RelationRule
  | .modifies => ⟨0, false, .actors .read, .targets⟩
  | .uses => ⟨1, false, .actors .print, .targets⟩
  | .calls => ⟨2, true, .procedures, .procedures⟩
  | .parent => ⟨3, true, .containers, .statements⟩
  | .follows => ⟨4, true, .statements, .statements⟩
  | .next => ⟨5, true, .statements, .statements⟩
  | .affects => ⟨6, true, .statements, .statements⟩

/-- The clause is a relation with a positive weight, in a form that has one or is
the only form, between operands that its row admits. -/
def Scope.Tabulates (scope : Scope) (relations forms : List UInt32) : Clause → Prop
  | .suchThat relation transitive left right =>
      0 < relations.getD relation.rule.place 0 ∧
        (if relation.rule.starred = true then 0 < forms.getD (if transitive then 1 else 0) 0
          else transitive = false) ∧
        relation.rule.left.Admits scope left ∧ relation.rule.right.Admits scope right
  | _ => False

/-! ## The lists of a scope -/

namespace Scope

variable {scope : Scope} {operand : Operand}

theorem mem_operands {kinds : List Kind} :
    operand ∈ scope.operands kinds ↔
      ∃ s, operand = .synonym s ∧ s.kind ∈ kinds ∧ scope.declared.contains s = true := by
  constructor
  · intro h
    obtain ⟨s, hs, rfl⟩ := List.mem_map.mp h
    exact ⟨s, rfl, Declarations.mem_ofKinds.mp hs⟩
  · rintro ⟨s, rfl, hs⟩
    exact List.mem_map.mpr ⟨s, Declarations.mem_ofKinds.mpr hs, rfl⟩

theorem mem_lines :
    operand ∈ scope.lines ↔
      scope.lineRefs = true ∧
        ∃ s, operand = .synonym s ∧ s.kind = .progLine ∧ scope.declared.contains s = true := by
  unfold lines
  split
  · next hlines => simp only [mem_operands, List.mem_singleton, hlines, true_and]
  · next hlines => simp only [hlines, List.not_mem_nil, false_and, Bool.false_eq_true]

theorem mem_procedureOperands {literals : Literals} :
    operand ∈ literals.procedureOperands ↔
      ∃ text, operand = .name text ∧ text ∈ literals.procedureNames := by
  unfold Literals.procedureOperands
  rw [List.mem_map]
  exact ⟨fun ⟨text, h, heq⟩ => ⟨text, heq.symm, h⟩, fun ⟨text, heq, h⟩ => ⟨text, h, heq.symm⟩⟩

theorem mem_variableOperands {literals : Literals} :
    operand ∈ literals.variableOperands ↔
      ∃ text, operand = .name text ∧ text ∈ literals.variableNames := by
  unfold Literals.variableOperands
  rw [List.mem_map]
  exact ⟨fun ⟨text, h, heq⟩ => ⟨text, heq.symm, h⟩, fun ⟨text, heq, h⟩ => ⟨text, h, heq.symm⟩⟩

theorem operands_append (kinds kinds' : List Kind) :
    scope.operands (kinds ++ kinds') = scope.operands kinds ++ scope.operands kinds' := by
  rw [operands, Declarations.ofKinds_append, List.map_append]
  rfl

/-- A rule admits what is on one of the lists that it names. -/
theorem admits_rule_iff {rule : SideRule} :
    rule.Admits scope operand ↔
      operand ∈ scope.operands rule.kinds ∨
      (rule.lines = true ∧ operand ∈ scope.lines) ∨
      (rule.procedureNames = true ∧ operand ∈ scope.literals.procedureOperands) ∨
      (rule.variableNames = true ∧ operand ∈ scope.literals.variableOperands) ∨
      (rule.wildcard = true ∧ operand = .wildcard) := by
  rw [mem_operands, mem_lines, mem_procedureOperands, mem_variableOperands]
  cases operand with
  | synonym s => grind [SideRule.Admits]
  | name text => simp [SideRule.Admits]
  | integer text => simp [SideRule.Admits]
  | wildcard => simp [SideRule.Admits]

/-- The actors, and the one kind of statement that only modifies or only uses. -/
theorem mem_actors (device : Kind) :
    operand ∈ scope.actors ++ scope.operands [device] ↔
      (SideRule.actors device).Admits scope operand := by
  have hkinds : scope.operands (SideRule.actors device).kinds =
      scope.operands [.procedure, .stmt, .call, .whileStmt, .ifStmt, .assign] ++
        scope.operands [device] :=
    operands_append [.procedure, .stmt, .call, .whileStmt, .ifStmt, .assign] [device]
  rw [admits_rule_iff, hkinds]
  simp [actors, SideRule.actors, or_assoc, or_comm, or_left_comm]

theorem mem_targets : operand ∈ scope.targets ↔ SideRule.targets.Admits scope operand := by
  rw [admits_rule_iff]
  simp [targets, SideRule.targets]

theorem mem_procedures :
    operand ∈ scope.procedures ↔ SideRule.procedures.Admits scope operand := by
  rw [admits_rule_iff]
  simp [procedures, SideRule.procedures]

theorem mem_containers :
    operand ∈ scope.containers ↔ SideRule.containers.Admits scope operand := by
  rw [admits_rule_iff]
  simp [containers, SideRule.containers]

theorem mem_statements :
    operand ∈ scope.statements ↔ SideRule.statements.Admits scope operand := by
  have hkinds : scope.operands SideRule.statements.kinds =
      scope.operands SideRule.containers.kinds ++
        scope.operands [.read, .print, .call, .assign] :=
    operands_append SideRule.containers.kinds _
  rw [admits_rule_iff, hkinds, statements, List.mem_append, mem_containers, admits_rule_iff]
  simp [SideRule.containers, SideRule.statements, or_assoc, or_comm, or_left_comm]

/-- The left lists are those of the table. -/
theorem mem_left_iff {relation : Relation} :
    operand ∈ scope.left relation ↔ relation.rule.left.Admits scope operand := by
  cases relation with
  | modifies => exact mem_actors .read
  | uses => exact mem_actors .print
  | calls => exact mem_procedures
  | parent => exact mem_containers
  | follows | next | affects => exact mem_statements

/-- The right lists are those of the table. -/
theorem mem_right_iff {relation : Relation} :
    operand ∈ scope.right relation ↔ relation.rule.right.Admits scope operand := by
  cases relation with
  | modifies | uses => exact mem_targets
  | calls => exact mem_procedures
  | parent | follows | next | affects => exact mem_statements

/-! ## The clauses of the table -/

variable {relations forms : List UInt32}

theorem relates_iff {relation : Relation} {transitive : Bool} {left right : Operand} :
    scope.Relates relations forms relation transitive left right ↔
      scope.Tabulates relations forms (.suchThat relation transitive left right) := by
  have hplace : Relation.all[relation.rule.place]? = some relation := by cases relation <;> rfl
  have hstarred : relation.hasTransitive = relation.rule.starred := by cases relation <;> rfl
  have hform : [false, true][if transitive then 1 else 0]? = some transitive := by
    cases transitive <;> rfl
  have hrelation : (Options.ofWeights Relation.all relations).Possible relation ↔
      0 < relations.getD relation.rule.place 0 :=
    Options.possible_ofWeights_iff (by decide) hplace
  have hforms : (Options.ofWeights [false, true] forms).Possible transitive ↔
      0 < forms.getD (if transitive then 1 else 0) 0 :=
    Options.possible_ofWeights_iff (by decide) hform
  constructor
  · intro h
    have hgiven := h.form
    rw [hstarred, hforms] at hgiven
    exact ⟨hrelation.mp h.possible, hgiven, mem_left_iff.mp h.left_mem,
      mem_right_iff.mp h.right_mem⟩
  · rintro ⟨hweight, hgiven, hleft, hright⟩
    refine ⟨hrelation.mpr hweight, ?_, mem_left_iff.mpr hleft, mem_right_iff.mpr hright⟩
    rwa [hstarred, hforms]

theorem tabulates_of_succeeds {σ : Type} [WordSource σ] {clause : Clause}
    (h : Succeeds (scope.drawSuchThat relations forms : Choose σ Clause) clause) :
    scope.Tabulates relations forms clause := by
  obtain ⟨relation, transitive, left, right, rfl, hrelates⟩ := succeeds_drawSuchThat h
  exact relates_iff.mp hrelates

/-- The such-that clauses of the table are the ones that some words lead to, and no
source of words leads to any other. -/
theorem drawSuchThat_support_iff {clause : Clause} (hfits : scope.declared.Fits scope.literals) :
    ((∃ words rest, (scope.drawSuchThat relations forms).run (⟨words⟩ : Tape) =
        some (.ok clause, rest)) ↔ scope.Tabulates relations forms clause) ∧
      ∀ (σ : Type) [WordSource σ] (s t : σ),
        (scope.drawSuchThat relations forms).run s = some (.ok clause, t) →
          scope.Tabulates relations forms clause := by
  refine ⟨⟨?_, ?_⟩, ?_⟩
  · rintro ⟨words, rest, hrun⟩
    exact tabulates_of_succeeds (succeeds_of_run hrun)
  · intro h
    cases clause with
    | suchThat relation transitive left right =>
        obtain ⟨words, hwords⟩ := reaches_drawSuchThat (relates_iff.mpr h) hfits
        exact ⟨words ++ [], ⟨[]⟩, hwords []⟩
    | equation => exact h.elim
    | pattern => exact h.elim
  · intro σ _ s t hrun
    exact tabulates_of_succeeds (succeeds_of_run hrun)

/-- One line number, one procedure and one variable literal; line numbers may stand for
statements. -/
def lineScope : Scope where
  declared := ⟨((PerKind.fill []).set .progLine ["n"]).set .procedure ["p"]⟩
  literals := ⟨[], ["x"], []⟩
  lineRefs := true
  allowError := false

/-- With weights for `Parent` and its star only, a line number can be above the wildcard
in the starred form and not in the plain one, and never below a procedure. -/
theorem drawSuchThat_line_support :
    lineScope.declared.Fits lineScope.literals ∧
      (∃ words rest, (lineScope.drawSuchThat [0, 0, 0, 1, 0, 0, 0] [0, 1]).run (⟨words⟩ : Tape) =
        some (.ok (.suchThat .parent true (.synonym ⟨.progLine, "n"⟩) .wildcard), rest)) ∧
      (¬ ∃ words rest, (lineScope.drawSuchThat [0, 0, 0, 1, 0, 0, 0] [0, 1]).run
        (⟨words⟩ : Tape) =
          some (.ok (.suchThat .parent false (.synonym ⟨.progLine, "n"⟩) .wildcard), rest)) ∧
      ¬ ∃ words rest, (lineScope.drawSuchThat [0, 0, 0, 1, 0, 0, 0] [0, 1]).run
        (⟨words⟩ : Tape) = some (.ok (.suchThat .parent true (.synonym ⟨.procedure, "p"⟩)
          (.synonym ⟨.progLine, "n"⟩)), rest) := by
  have hfits : lineScope.declared.Fits lineScope.literals := by
    show 2 + 1 < UInt64.size
    decide
  refine ⟨hfits, (drawSuchThat_support_iff hfits).1.mpr ?_, ?_, ?_⟩
  · exact ⟨by decide, by decide, ⟨by decide, .inr ⟨rfl, rfl, rfl⟩⟩, rfl⟩
  · intro hplain
    obtain ⟨-, hform, -⟩ := (drawSuchThat_support_iff hfits).1.mp hplain
    exact absurd hform (by decide)
  · intro hprocedure
    obtain ⟨-, -, ⟨-, hkind⟩, -⟩ := (drawSuchThat_support_iff hfits).1.mp hprocedure
    rcases hkind with hkind | ⟨-, -, hkind⟩
    · exact absurd hkind (by decide)
    · cases hkind

end Scope

end QuerySynth
