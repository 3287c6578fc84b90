import QuerySynth.Generate.Query
import QuerySynth.Proofs.Random.Map

/-!
# Renamed parts

A renaming changes the bare names of every kind and the literals, and nothing
else.  Everything that clauses and results are drawn from is renamed with it, so
each draw from renamed parts is the renamed draw.

* The lists of a scope are renamed item by item, in the same order.
* Which options are available does not depend on a name.
* A draw of a clause or a result takes the same words and fails with the same
  error.
-/

namespace QuerySynth

/-- New texts for the bare names of each kind, for the names among the literals and
for the constants. -/
structure Renaming where
  bare : Kind → String → String
  name : String → String
  constant : String → String

variable (r : Renaming)

/-! ## Renamed grammar -/

/-- The synonym with its name renamed. -/
def Synonym.rename (s : Synonym) : Synonym := ⟨s.kind, r.bare s.kind s.name⟩

/-- The operand with its text renamed. -/
def Operand.rename : Operand → Operand
  | .synonym s => .synonym (s.rename r)
  | .name text => .name (r.name text)
  | .integer text => .integer (r.constant text)
  | .wildcard => .wildcard

/-- The reference with its subject renamed. -/
def AttrRef.rename (ref : AttrRef) : AttrRef := ⟨ref.subject.rename r, ref.attr⟩

/-- The side with its literal, subject or line number renamed. -/
def WithRef.rename : WithRef → WithRef
  | .literal operand => .literal (operand.rename r)
  | .attr ref => .attr (ref.rename r)
  | .synonym s => .synonym (s.rename r)

/-- The clause with every synonym and literal renamed. -/
def Clause.rename : Clause → Clause
  | .suchThat relation transitive left right =>
      .suchThat relation transitive (left.rename r) (right.rename r)
  | .equation left right => .equation (left.rename r) (right.rename r)
  | .pattern kind entity lhs => .pattern kind (entity.rename r) (lhs.rename r)

/-- The chain with every clause renamed. -/
def ClauseChain.rename (chain : ClauseChain) : ClauseChain :=
  ⟨chain.family, chain.clauses.map (Clause.rename r)⟩

/-- The element with its synonym renamed. -/
def Elem.rename : Elem → Elem
  | .synonym s => .synonym (s.rename r)
  | .attr ref => .attr (ref.rename r)

/-- The result with every element renamed. -/
def SelectResult.rename : SelectResult → SelectResult
  | .boolean => .boolean
  | .single elem => .single (elem.rename r)
  | .tuple elems => .tuple (elems.map (Elem.rename r))

/-- The literals renamed, in order. -/
def Literals.rename (literals : Literals) : Literals where
  procedureNames := literals.procedureNames.map r.name
  variableNames := literals.variableNames.map r.name
  constants := literals.constants.map r.constant

/-- The names of every kind renamed, in order. -/
def Declarations.rename (declared : Declarations) : Declarations :=
  ⟨.ofFn fun kind => (declared.names.get kind).map (r.bare kind)⟩

variable {r}

theorem WithRef.valueType_rename (side : WithRef) :
    (side.rename r).valueType = side.valueType := by
  cases side with
  | literal operand => cases operand <;> rfl
  | attr ref => rfl
  | synonym s => rfl

namespace Declarations

theorem ofKind_rename (declared : Declarations) (kind : Kind) :
    (declared.rename r).ofKind kind = (declared.ofKind kind).map (Synonym.rename r) := by
  simp only [ofKind, rename, PerKind.get_ofFn, List.map_map]
  rfl

theorem ofKinds_rename (declared : Declarations) (kinds : List Kind) :
    (declared.rename r).ofKinds kinds = (declared.ofKinds kinds).map (Synonym.rename r) := by
  rw [ofKinds, ofKinds, List.map_flatMap]
  exact congrArg kinds.flatMap (funext fun kind => declared.ofKind_rename kind)

theorem synonyms_rename (declared : Declarations) :
    (declared.rename r).synonyms = declared.synonyms.map (Synonym.rename r) :=
  ofKinds_rename declared Kind.all

end Declarations

namespace Literals

theorem procedureOperands_rename (literals : Literals) :
    (literals.rename r).procedureOperands = literals.procedureOperands.map (Operand.rename r) := by
  simp only [procedureOperands, rename, List.map_map]
  rfl

theorem variableOperands_rename (literals : Literals) :
    (literals.rename r).variableOperands = literals.variableOperands.map (Operand.rename r) := by
  simp only [variableOperands, rename, List.map_map]
  rfl

theorem constantOperands_rename (literals : Literals) :
    (literals.rename r).constantOperands = literals.constantOperands.map (Operand.rename r) := by
  simp only [constantOperands, rename, List.map_map]
  rfl

theorem nameOperands_rename (literals : Literals) :
    (literals.rename r).nameOperands = literals.nameOperands.map (Operand.rename r) := by
  simp only [nameOperands, procedureOperands_rename, variableOperands_rename, List.map_append]

end Literals

/-! ## Relations and patterns -/

namespace Scope

variable (r) in
/-- The scope with its declarations and literals renamed. -/
def rename (scope : Scope) : Scope :=
  { scope with declared := scope.declared.rename r, literals := scope.literals.rename r }

theorem operands_rename (scope : Scope) (kinds : List Kind) :
    (scope.rename r).operands kinds = (scope.operands kinds).map (Operand.rename r) := by
  simp only [operands, rename, Declarations.ofKinds_rename, List.map_map]
  rfl

theorem lines_rename (scope : Scope) :
    (scope.rename r).lines = scope.lines.map (Operand.rename r) := by
  have hlineRefs : (scope.rename r).lineRefs = scope.lineRefs := rfl
  rw [lines, lines, hlineRefs]
  split
  · exact operands_rename scope [.progLine]
  · rfl

theorem procedureOperands_rename (scope : Scope) :
    (scope.rename r).literals.procedureOperands =
      scope.literals.procedureOperands.map (Operand.rename r) :=
  scope.literals.procedureOperands_rename

theorem variableOperands_rename (scope : Scope) :
    (scope.rename r).literals.variableOperands =
      scope.literals.variableOperands.map (Operand.rename r) :=
  scope.literals.variableOperands_rename

theorem wildcard_rename : [Operand.wildcard].map (Operand.rename r) = [.wildcard] := rfl

theorem left_rename (scope : Scope) (relation : Relation) :
    (scope.rename r).left relation = (scope.left relation).map (Operand.rename r) := by
  cases relation <;>
    simp only [left, actors, procedures, statements, containers, operands_rename, lines_rename,
      procedureOperands_rename, List.map_append, wildcard_rename]

theorem right_rename (scope : Scope) (relation : Relation) :
    (scope.rename r).right relation = (scope.right relation).map (Operand.rename r) := by
  cases relation <;>
    simp only [right, targets, procedures, statements, containers, operands_rename, lines_rename,
      procedureOperands_rename, variableOperands_rename, List.map_append, wildcard_rename]

theorem supports_rename (scope : Scope) : (scope.rename r).supports = scope.supports := by
  funext relation
  simp only [supports, left_rename, right_rename, List.isEmpty_map]

theorem patternSubjects_rename (scope : Scope) (kind : PatternKind) :
    (scope.rename r).patternSubjects kind =
      (scope.patternSubjects kind).map (Synonym.rename r) :=
  scope.declared.ofKind_rename kind.entity

theorem namedLeaders_rename (scope : Scope) :
    (scope.rename r).namedLeaders = scope.namedLeaders.map (Operand.rename r) := by
  have hallowError : (scope.rename r).allowError = scope.allowError := rfl
  simp only [namedLeaders, operands_rename, variableOperands_rename, procedureOperands_rename,
    hallowError, List.map_append]
  split <;> rfl

theorem leaders_rename (scope : Scope) :
    (scope.rename r).leaders = scope.leaders.map (Operand.rename r) := by
  simp only [leaders, namedLeaders_rename, List.isEmpty_map]
  split <;> rfl

variable {σ : Type} [WordSource σ]

theorem drawSuchThat_rename (scope : Scope) (relations forms : List UInt32) :
    ((scope.rename r).drawSuchThat relations forms : Choose σ Clause) =
      Clause.rename r <$> scope.drawSuchThat relations forms := by
  simp only [drawSuchThat, supports_rename, left_rename, right_rename, Choose.uniform_map,
    map_bind, bind_map_left]
  refine bind_congr fun relation => ?_
  split <;> simp only [map_bind, map_pure] <;> rfl

theorem drawPattern_rename (scope : Scope) (kinds : List UInt32) :
    ((scope.rename r).drawPattern kinds : Choose σ Clause) =
      Clause.rename r <$> scope.drawPattern kinds := by
  simp only [drawPattern, patternSubjects_rename, leaders_rename, List.isEmpty_map,
    Choose.uniform_map, map_bind, bind_map_left, ← Choose.guard_map, map_pure]
  rfl

end Scope

/-! ## Attributes and equations -/

namespace AttrSubjects

variable (r) in
/-- The subjects renamed, in order. -/
def rename (subjects : AttrSubjects) : AttrSubjects where
  procName := subjects.procName.map (Synonym.rename r)
  varName := subjects.varName.map (Synonym.rename r)
  value := subjects.value.map (Synonym.rename r)
  stmtNo := subjects.stmtNo.map (Synonym.rename r)

theorem ofDeclarations_rename (declared : Declarations) :
    ofDeclarations (declared.rename r) = (ofDeclarations declared).rename r := by
  simp only [ofDeclarations, rename, Declarations.ofKinds_rename]

theorem get_rename (subjects : AttrSubjects) (attr : AttrName) :
    (subjects.rename r).get attr = (subjects.get attr).map (Synonym.rename r) := by
  cases attr <;> rfl

theorem offers_rename (subjects : AttrSubjects) (wanted : Option ValueType) :
    (subjects.rename r).offers wanted = subjects.offers wanted := by
  funext attr
  simp only [offers, get_rename, List.isEmpty_map]

theorem canDraw_rename (subjects : AttrSubjects) (weights : List UInt32)
    (wanted : Option ValueType) :
    (subjects.rename r).canDraw weights wanted = subjects.canDraw weights wanted := by
  simp only [canDraw, offers_rename]

theorem draw_rename {σ : Type} [WordSource σ] (subjects : AttrSubjects) (weights : List UInt32)
    (wanted : Option ValueType) :
    ((subjects.rename r).draw weights wanted : Choose σ AttrRef) =
      AttrRef.rename r <$> subjects.draw weights wanted := by
  simp only [draw, offers_rename, get_rename, Choose.uniform_map, map_bind, bind_map_left,
    map_pure]
  rfl

end AttrSubjects

namespace EquationScope

variable (r) in
/-- The literals, subjects and line numbers renamed, in order. -/
def rename (scope : EquationScope) : EquationScope where
  names := scope.names.map (Operand.rename r)
  integers := scope.integers.map (Operand.rename r)
  subjects := scope.subjects.rename r
  lines := scope.lines.map (Synonym.rename r)

theorem ofDeclarations_rename (declared : Declarations) (literals : Literals) :
    ofDeclarations (declared.rename r) (literals.rename r) =
      (ofDeclarations declared literals).rename r := by
  simp only [ofDeclarations, rename, Literals.nameOperands_rename,
    Literals.constantOperands_rename, AttrSubjects.ofDeclarations_rename,
    Declarations.ofKind_rename]

theorem literals_rename (scope : EquationScope) :
    (scope.rename r).literals = scope.literals.map (Operand.rename r) := by
  simp only [literals, rename, List.map_append]

theorem literalsOf_rename (scope : EquationScope) (wanted : Option ValueType) :
    (scope.rename r).literalsOf wanted = (scope.literalsOf wanted).map (Operand.rename r) := by
  rcases wanted with _ | _ | _
  · exact literals_rename scope
  · rfl
  · rfl

theorem linesOf_rename (scope : EquationScope) (wanted : Option ValueType) :
    (scope.rename r).linesOf wanted = (scope.linesOf wanted).map (Synonym.rename r) := by
  rcases wanted with _ | _ | _ <;> rfl

theorem firstWeights_rename (scope : EquationScope) (weights : List UInt32) :
    (scope.rename r).firstWeights weights = scope.firstWeights weights := by
  simp only [firstWeights, literals_rename, List.isEmpty_map]

theorem offers_rename (scope : EquationScope) (attrs : List UInt32) (wanted : Option ValueType) :
    (scope.rename r).offers attrs wanted = scope.offers attrs wanted := by
  funext kind
  cases kind with
  | literal => simp only [offers, literalsOf_rename, List.isEmpty_map]
  | attr => exact scope.subjects.canDraw_rename attrs wanted
  | synonym => simp only [offers, linesOf_rename, List.isEmpty_map]

variable {σ : Type} [WordSource σ]

theorem drawSide_rename (scope : EquationScope) (options : Options WithRefKind)
    (attrs : List UInt32) (wanted : Option ValueType) :
    ((scope.rename r).drawSide options attrs wanted : Choose σ WithRef) =
      WithRef.rename r <$> scope.drawSide options attrs wanted := by
  simp only [drawSide, offers_rename, map_bind]
  refine bind_congr fun kind => ?_
  cases kind with
  | literal =>
      simp only [literalsOf_rename, Choose.uniform_map, map_bind, bind_map_left, map_pure]
      rfl
  | attr =>
      have hsubjects : (scope.rename r).subjects = scope.subjects.rename r := rfl
      simp only [hsubjects, AttrSubjects.draw_rename, map_bind, bind_map_left, map_pure]
      rfl
  | synonym =>
      simp only [linesOf_rename, Choose.uniform_map, map_bind, bind_map_left, map_pure]
      rfl

theorem draw_rename (scope : EquationScope) (weights attrs : List UInt32) :
    ((scope.rename r).draw weights attrs : Choose σ Clause) =
      Clause.rename r <$> scope.draw weights attrs := by
  simp only [draw, firstWeights_rename, drawSide_rename, map_bind, bind_map_left,
    WithRef.valueType_rename, map_pure]
  rfl

end EquationScope

/-! ## Chains and results -/

section Repetition

variable {α β : Type}

theorem Choose.times_map {σ : Type} (f : α → β) (next : Choose σ α) (n : Nat) :
    Choose.times (f <$> next) n = List.map f <$> Choose.times next n := by
  induction n with
  | zero => exact (map_pure (List.map f) []).symm
  | succ n ih =>
      simp only [Choose.times, ih, map_bind, bind_map_left, map_pure, List.map_cons]

theorem ChainPolicy.extend_map {m : Type → Type} [Monad m] [LawfulMonad m] (f : α → β)
    (decay : Float) (coin : Float → m Bool) (next : m α) (chance : Float) (n : Nat) :
    extend decay coin (f <$> next) chance n = List.map f <$> extend decay coin next chance n := by
  induction n generalizing chance with
  | zero => exact (map_pure (List.map f) []).symm
  | succ n ih =>
      simp only [extend, ih, map_bind, bind_map_left]
      refine bind_congr fun more => ?_
      cases more with
      | false => exact (map_pure (List.map f) []).symm
      | true =>
          simp only [if_true, map_bind, map_pure, List.map_cons]

theorem ChainPolicy.chain_map {σ : Type} [WordSource σ] (f : α → β) (policy : ChainPolicy)
    (next : Choose σ α) : policy.chain (f <$> next) = List.map f <$> policy.chain next := by
  simp only [chain, chainWith, extend_map, map_bind, bind_map_left, map_pure, List.map_cons]

end Repetition

namespace SelectWeights

variable {σ : Type} [WordSource σ]

theorem drawElem_rename (weights : SelectWeights) (synonyms : List Synonym)
    (subjects : AttrSubjects) :
    (weights.drawElem (synonyms.map (Synonym.rename r)) (subjects.rename r) : Choose σ Elem) =
      Elem.rename r <$> weights.drawElem synonyms subjects := by
  simp only [drawElem, AttrSubjects.canDraw_rename, List.isEmpty_map, map_bind]
  refine bind_congr fun options => ?_
  refine bind_congr fun side => ?_
  cases side with
  | first =>
      simp only [Choose.uniform_map, map_bind, bind_map_left, map_pure]
      rfl
  | second =>
      simp only [AttrSubjects.draw_rename, map_bind, bind_map_left, map_pure]
      rfl

theorem draw_rename (weights : SelectWeights) (limit : Nat) (synonyms : List Synonym)
    (subjects : AttrSubjects) :
    (weights.draw limit (synonyms.map (Synonym.rename r)) (subjects.rename r) :
        Choose σ SelectResult) =
      SelectResult.rename r <$> weights.draw limit synonyms subjects := by
  simp only [draw, map_bind]
  refine bind_congr fun results => ?_
  refine bind_congr fun side => ?_
  cases side with
  | second => exact (map_pure (SelectResult.rename r) .boolean).symm
  | first =>
      simp only [map_bind]
      refine bind_congr fun tuples => ?_
      refine bind_congr fun shape => ?_
      cases shape with
      | first =>
          simp only [drawElem_rename, map_bind, bind_map_left, map_pure]
          rfl
      | second =>
          simp only [drawElem_rename, Choose.times_map, map_bind, bind_map_left, map_pure]
          rfl

end SelectWeights

end QuerySynth
