import QuerySynth.Proofs.Clause.Operands

/-!
# The patterns that can be drawn

Which pattern clauses some words lead to, and what becomes of a draw that has chosen
a kind of pattern.

* The kind is drawn by weight alone, without a look at what is declared.  Everything
  after it belongs to that kind: a pattern over one of its subjects, or the error that
  names it if there are none.
* The leading place is drawn from one list.  The wildcard is on that list only where
  nothing else is.
-/

namespace QuerySynth

open Draw

/-- What may lead a pattern besides the wildcard. -/
def SideRule.leaders (procedureNames : Bool) : SideRule where
  kinds := [.var]
  procedureNames := procedureNames
  variableNames := true

namespace PatternKind

/-- The place of the weight of a kind of pattern. -/
def place : PatternKind → Nat
  | .assign => 0
  | .ifStmt => 1
  | .whileStmt => 2

theorem missing_inj {a b : PatternKind} (h : a.missing = b.missing) : a = b := by
  revert h
  cases a <;> cases b <;> decide

end PatternKind

/-- The draw of a kind of pattern. -/
def drawPatternKind {σ : Type} [WordSource σ] (kinds : List UInt32) : Choose σ PatternKind :=
  Choose.weighted "pattern" (Options.ofWeights PatternKind.all kinds)

namespace Scope

/-! ## What a pattern may consist of -/

/-- There is no variable synonym, no variable literal and no procedure literal that may
lead a pattern. -/
structure Leaderless (scope : Scope) : Prop where
  synonyms : ∀ s, scope.declared.contains s = true → s.kind ≠ .var
  variableNames : scope.literals.variableNames = []
  procedureNames : scope.allowError = true → scope.literals.procedureNames = []

/-- The operand may lead a pattern. -/
def Leads (scope : Scope) : Operand → Prop
  | .wildcard => scope.Leaderless
  | operand => (SideRule.leaders scope.allowError).Admits scope operand

/-- A declared synonym is there for patterns of the kind. -/
def HasSubject (scope : Scope) (kind : PatternKind) : Prop :=
  ∃ s, scope.declared.contains s = true ∧ s.kind = kind.entity

/-- The clause is a pattern of a kind with a positive weight, with a declared synonym of
that kind as its subject, led by what may lead a pattern. -/
def AdmitsPattern (scope : Scope) (kinds : List UInt32) : Clause → Prop
  | .pattern kind entity lhs =>
      0 < kinds.getD kind.place 0 ∧
        (scope.declared.contains entity = true ∧ entity.kind = kind.entity) ∧ scope.Leads lhs
  | _ => False

variable {scope : Scope} {kinds : List UInt32} {kind : PatternKind} {operand : Operand}

theorem mem_namedLeaders :
    operand ∈ scope.namedLeaders ↔
      (SideRule.leaders scope.allowError).Admits scope operand := by
  rw [admits_rule_iff]
  cases hallow : scope.allowError with
  | false => simp [namedLeaders, SideRule.leaders, hallow]
  | true => simp [namedLeaders, SideRule.leaders, hallow, or_comm]

/-- The rule admits nothing exactly if each of its sources is empty. -/
theorem namedLeaders_eq_nil_iff : scope.namedLeaders = [] ↔ scope.Leaderless := by
  have hnone : scope.namedLeaders = [] ↔
      ∀ operand, ¬ (SideRule.leaders scope.allowError).Admits scope operand := by
    simp only [List.eq_nil_iff_forall_not_mem, mem_namedLeaders]
  rw [hnone]
  constructor
  · intro h
    refine ⟨?_, ?_, ?_⟩
    · intro s hs hkind
      exact h (.synonym s) ⟨hs, .inl (by simp [SideRule.leaders, hkind])⟩
    · rw [List.eq_nil_iff_forall_not_mem]
      exact fun text htext => h (.name text) (.inr ⟨rfl, htext⟩)
    · intro hallow
      rw [List.eq_nil_iff_forall_not_mem]
      exact fun text htext => h (.name text) (.inl ⟨hallow, htext⟩)
  · rintro ⟨hsynonyms, hvariables, hprocedures⟩ operand h
    cases operand with
    | synonym s =>
        obtain ⟨hs, hkind | ⟨hlines, -⟩⟩ := h
        · exact hsynonyms s hs (List.mem_singleton.mp hkind)
        · cases hlines
    | name text =>
        rcases h with ⟨hallow, htext⟩ | ⟨-, htext⟩
        · rw [hprocedures hallow] at htext
          cases htext
        · rw [hvariables] at htext
          cases htext
    | integer text => exact h
    | wildcard => cases h

theorem leads_iff :
    scope.Leads operand ↔ (SideRule.leaders scope.allowError).Admits scope operand ∨
      (operand = .wildcard ∧ scope.Leaderless) := by
  cases operand with
  | synonym | name | integer => simp [Leads]
  | wildcard => simp [Leads, SideRule.Admits, SideRule.leaders]

/-- What may lead a pattern is on the list of its leaders, the wildcard included. -/
theorem mem_leaders_iff : operand ∈ scope.leaders ↔ scope.Leads operand := by
  rw [leads_iff, ← mem_namedLeaders, ← namedLeaders_eq_nil_iff]
  by_cases hnone : scope.namedLeaders = []
  · simp [leaders, hnone]
  · simp [leaders, hnone]

theorem mem_patternSubjects {s : Synonym} :
    s ∈ scope.patternSubjects kind ↔
      scope.declared.contains s = true ∧ s.kind = kind.entity := by
  rw [patternSubjects, Declarations.mem_ofKind, Declarations.contains_iff]
  constructor
  · rintro ⟨hkind, hname⟩
    rw [hkind]
    exact ⟨hname, rfl⟩
  · rintro ⟨hname, hkind⟩
    rw [hkind] at hname
    exact ⟨hkind, hname⟩

theorem patternSubjects_eq_nil_iff : scope.patternSubjects kind = [] ↔ ¬ scope.HasSubject kind := by
  simp only [List.eq_nil_iff_forall_not_mem, mem_patternSubjects, HasSubject, not_exists]

theorem possible_patternKind_iff :
    (Options.ofWeights PatternKind.all kinds).Possible kind ↔ 0 < kinds.getD kind.place 0 :=
  Options.possible_ofWeights_iff (by decide) (by cases kind <;> rfl)

theorem matches_iff {entity : Synonym} {lhs : Operand} :
    scope.Matches kinds kind entity lhs ↔ scope.AdmitsPattern kinds (.pattern kind entity lhs) := by
  constructor
  · rintro ⟨hpossible, hentity, hlhs⟩
    exact ⟨possible_patternKind_iff.mp hpossible, mem_patternSubjects.mp hentity,
      mem_leaders_iff.mp hlhs⟩
  · rintro ⟨hweight, hentity, hlhs⟩
    exact ⟨possible_patternKind_iff.mpr hweight, mem_patternSubjects.mpr hentity,
      mem_leaders_iff.mpr hlhs⟩

/-! ## Words that lead to a pattern -/

theorem length_patternSubjects_le (scope : Scope) (kind : PatternKind) :
    (scope.patternSubjects kind).length ≤ scope.declared.synonyms.length := by
  have hsingle : scope.declared.ofKinds [kind.entity] = scope.patternSubjects kind :=
    List.flatMap_singleton _ _
  rw [← hsingle]
  exact Declarations.length_ofKinds_le (List.nodup_singleton _)

theorem length_leaders_le (scope : Scope) :
    scope.leaders.length ≤
      scope.declared.synonyms.length + scope.literals.operands.length + 1 := by
  have hkinds := scope.length_operands_add_le [.var] [] (by decide)
  have hliterals := scope.literals.length_operands
  have hprocedures : (if scope.allowError then scope.literals.procedureOperands else []).length ≤
      scope.literals.procedureOperands.length := by
    split
    · exact Nat.le_refl _
    · exact Nat.zero_le _
  unfold leaders
  split
  · simp
  · simp only [namedLeaders, List.length_append]
    omega

theorem reaches_drawPattern {entity : Synonym} {lhs : Operand}
    (h : scope.Matches kinds kind entity lhs) (hfits : scope.declared.Fits scope.literals) :
    Reaches (scope.drawPattern kinds : Choose Tape Clause).run
      (.ok (.pattern kind entity lhs)) := by
  have hsize : scope.declared.synonyms.length + scope.literals.operands.length < 2 ^ 64 := hfits
  have hoptions : (Options.ofWeights PatternKind.all kinds).length ≤ 3 :=
    Options.length_ofWeights_le _ _
  have hsubjects := scope.length_patternSubjects_le kind
  have hleaders := scope.length_leaders_le
  have hsome : ¬ (scope.patternSubjects kind).isEmpty = true :=
    fun hempty => List.ne_nil_of_mem h.entity_mem (List.isEmpty_iff.mp hempty)
  unfold drawPattern
  refine reaches_bind_of_ok (Choose.reaches_weighted (by omega) h.possible) ?_
  simp only [hsome]
  refine reaches_bind_of_ok (Choose.reaches_uniform (by omega) h.entity_mem) ?_
  refine reaches_bind_of_ok (Choose.reaches_uniform (by omega) h.lhs_mem) ?_
  exact reaches_pure _

/-! ## Behind the choice of a kind -/

section Runs

variable {σ : Type} [WordSource σ] {s t : σ}

/-- The draw of a pattern of a given kind. -/
def drawPatternOf (scope : Scope) (kind : PatternKind) : Choose σ Clause := do
  if (scope.patternSubjects kind).isEmpty then
    throw (.emptyCandidates kind.missing)
  let entity ← Choose.uniform "pattern synonym" (scope.patternSubjects kind)
  let leader ← Choose.uniform "pattern left-hand side" scope.leaders
  return .pattern kind entity leader

theorem drawPattern_eq_bind (scope : Scope) (kinds : List UInt32) :
    (scope.drawPattern kinds : Choose σ Clause) =
      drawPatternKind kinds >>= scope.drawPatternOf :=
  rfl

/-- Without a subject the draw is over, and no word is taken. -/
theorem run_drawPatternOf_of_not_hasSubject (h : ¬ scope.HasSubject kind) (s : σ) :
    (scope.drawPatternOf kind : Choose σ Clause).run s =
      some (.error (.emptyCandidates kind.missing), s) := by
  have hempty := patternSubjects_eq_nil_iff.mpr h
  unfold drawPatternOf
  simp only [hempty, List.isEmpty_nil, if_true]
  rfl

/-- With a subject the draw cannot fail. -/
theorem not_fails_drawPatternOf {e : ChoiceError} (h : scope.HasSubject kind) :
    ¬ Fails (scope.drawPatternOf kind : Choose σ Clause) e := by
  intro hfails
  have hsubjects : ¬ scope.patternSubjects kind = [] :=
    fun hnil => patternSubjects_eq_nil_iff.mp hnil h
  rcases fails_guard hfails with ⟨hempty, -⟩ | ⟨-, hfails⟩
  · exact hsubjects (List.isEmpty_iff.mp hempty)
  · rcases fails_bind hfails with hfails | ⟨entity, -, hfails⟩
    · exact hsubjects (Choose.fails_uniform hfails).2
    · exact leaders_ne_nil (Choose.fails_uniform (fails_of_fails_bind_pure hfails)).2

theorem succeeds_drawPatternOf {clause : Clause}
    (h : Succeeds (scope.drawPatternOf kind : Choose σ Clause) clause) :
    ∃ entity lhs, clause = .pattern kind entity lhs ∧ entity ∈ scope.patternSubjects kind ∧
      lhs ∈ scope.leaders := by
  obtain ⟨-, h⟩ := succeeds_guard h
  obtain ⟨entity, hentity, h⟩ := succeeds_bind h
  obtain ⟨lhs, hlhs, rfl⟩ := succeeds_bind_pure h
  exact ⟨entity, lhs, rfl, Choose.succeeds_uniform hentity, Choose.succeeds_uniform hlhs⟩

/-- A draw fails for want of weights, or for the kind that was chosen. -/
theorem error_of_run_drawPattern {e : ChoiceError}
    (h : (scope.drawPattern kinds).run s = some (.error e, t)) :
    (e = .zeroWeights "pattern" ∧ ∀ kind : PatternKind, ¬ 0 < kinds.getD kind.place 0) ∨
      ∃ kind u, (drawPatternKind kinds).run s = some (.ok kind, u) ∧
        e = .emptyCandidates kind.missing ∧ ¬ scope.HasSubject kind := by
  rw [drawPattern_eq_bind] at h
  rcases run_bind_cases h with ⟨_, hkind, herror⟩ | ⟨kind, u, hkind, h⟩
  · cases herror
    obtain ⟨rfl, hnone⟩ := Choose.fails_weighted (fails_of_run hkind)
    exact .inl ⟨rfl, fun kind hweight => hnone kind (possible_patternKind_iff.mpr hweight)⟩
  · by_cases hsubject : scope.HasSubject kind
    · exact absurd (fails_of_run h) (not_fails_drawPatternOf hsubject)
    · rw [run_drawPatternOf_of_not_hasSubject hsubject] at h
      cases h
      exact .inr ⟨kind, _, hkind, rfl, hsubject⟩

theorem admits_of_run_drawPattern {clause : Clause}
    (h : (scope.drawPattern kinds).run s = some (.ok clause, t)) :
    scope.AdmitsPattern kinds clause ∧ ∃ kind entity lhs u,
      clause = .pattern kind entity lhs ∧ (drawPatternKind kinds).run s = some (.ok kind, u) := by
  rw [drawPattern_eq_bind] at h
  rcases run_bind_cases h with ⟨_, -, herror⟩ | ⟨kind, u, hkind, h⟩
  · cases herror
  · obtain ⟨entity, lhs, rfl, hentity, hlhs⟩ := succeeds_drawPatternOf (succeeds_of_run h)
    have hpossible := Choose.succeeds_weighted (succeeds_of_run hkind)
    exact ⟨matches_iff.mp ⟨hpossible, hentity, hlhs⟩, kind, entity, lhs, u, rfl, hkind⟩

/-- How a draw from a source of words ends, told by the kind that the words choose. -/
structure FailsFast (scope : Scope) (kinds : List UInt32) (s : σ) : Prop where
  zeroWeights : (∃ t, (scope.drawPattern kinds).run s =
      some (.error (.zeroWeights "pattern"), t)) ↔
    ∀ kind : PatternKind, ¬ 0 < kinds.getD kind.place 0
  emptyCandidates : ∀ kind : PatternKind, (∃ t, (scope.drawPattern kinds).run s =
      some (.error (.emptyCandidates kind.missing), t)) ↔
    (∃ t, (drawPatternKind kinds).run s = some (.ok kind, t)) ∧ ¬ scope.HasSubject kind
  error : ∀ e t, (scope.drawPattern kinds).run s = some (.error e, t) →
    e = .zeroWeights "pattern" ∨ ∃ kind : PatternKind, e = .emptyCandidates kind.missing
  ok : ∀ clause t, (scope.drawPattern kinds).run s = some (.ok clause, t) →
    scope.AdmitsPattern kinds clause ∧ ∃ kind entity lhs u,
      clause = .pattern kind entity lhs ∧ (drawPatternKind kinds).run s = some (.ok kind, u)

theorem drawPattern_failsFast (scope : Scope) (kinds : List UInt32) (s : σ) :
    scope.FailsFast kinds s := by
  refine ⟨⟨?_, ?_⟩, fun kind => ⟨?_, ?_⟩, ?_, fun _ _ => admits_of_run_drawPattern⟩
  · rintro ⟨t, hrun⟩
    rcases error_of_run_drawPattern hrun with ⟨-, hnone⟩ | ⟨kind, u, -, herror, -⟩
    · exact hnone
    · cases herror
  · intro hnone
    refine ⟨s, run_bind_of_error (Choose.run_weighted_of_not_possible ?_ s)⟩
    exact fun kind hpossible => hnone kind (possible_patternKind_iff.mp hpossible)
  · rintro ⟨t, hrun⟩
    rcases error_of_run_drawPattern hrun with ⟨herror, -⟩ | ⟨chosen, u, hkind, herror, hsubject⟩
    · cases herror
    · cases PatternKind.missing_inj (ChoiceError.emptyCandidates.inj herror)
      exact ⟨⟨u, hkind⟩, hsubject⟩
  · rintro ⟨⟨t, hkind⟩, hsubject⟩
    refine ⟨t, ?_⟩
    rw [drawPattern_eq_bind, run_bind_of_ok hkind]
    exact run_drawPatternOf_of_not_hasSubject hsubject t
  · intro e t hrun
    rcases error_of_run_drawPattern hrun with ⟨herror, -⟩ | ⟨kind, u, -, herror, -⟩
    · exact .inl herror
    · exact .inr ⟨kind, herror⟩

end Runs

/-! ## The patterns -/

/-- The patterns that are admitted are the ones that some words lead to, as long as the
lists have lengths that fit into a word.  From no source does a draw go over to another
kind: it fails for the one that its words choose. -/
theorem drawPattern_support_iff (scope : Scope) (kinds : List UInt32) :
    (scope.declared.Fits scope.literals →
      ∀ clause, (∃ words rest, (scope.drawPattern kinds).run (⟨words⟩ : Tape) =
        some (.ok clause, rest)) ↔ scope.AdmitsPattern kinds clause) ∧
      ∀ (σ : Type) [WordSource σ] (s : σ), scope.FailsFast kinds s := by
  refine ⟨fun hfits clause => ⟨?_, ?_⟩, fun σ _ s => drawPattern_failsFast scope kinds s⟩
  · rintro ⟨words, rest, hrun⟩
    exact ((drawPattern_failsFast scope kinds _).ok clause rest hrun).1
  · intro h
    cases clause with
    | suchThat => exact h.elim
    | equation => exact h.elim
    | pattern kind entity lhs =>
        obtain ⟨words, hwords⟩ := reaches_drawPattern (matches_iff.mpr h) hfits
        exact ⟨words ++ [], ⟨[]⟩, hwords []⟩

/-- One assignment and one procedure literal, with or without procedures in the leading
place. -/
def assignScope (allowError : Bool) : Scope where
  declared := ⟨(PerKind.fill []).set .assign ["x"]⟩
  literals := ⟨["main"], [], []⟩
  lineRefs := false
  allowError := allowError

/-- The procedure leads patterns where that is allowed, and else the wildcard does; a word
that chooses conditionals is the end of the draw. -/
theorem drawPattern_assign_support :
    (∀ allowError, (assignScope allowError).declared.Fits (assignScope allowError).literals) ∧
      (∃ words rest, ((assignScope true).drawPattern [1, 1, 0]).run (⟨words⟩ : Tape) =
        some (.ok (.pattern .assign ⟨.assign, "x"⟩ (.name "main")), rest)) ∧
      (¬ ∃ words rest, ((assignScope true).drawPattern [1, 1, 0]).run (⟨words⟩ : Tape) =
        some (.ok (.pattern .assign ⟨.assign, "x"⟩ .wildcard), rest)) ∧
      (∃ words rest, ((assignScope false).drawPattern [1, 1, 0]).run (⟨words⟩ : Tape) =
        some (.ok (.pattern .assign ⟨.assign, "x"⟩ .wildcard), rest)) ∧
      ∃ rest, ((assignScope true).drawPattern [1, 1, 0]).run
        (⟨[0x8000000000000000, 0]⟩ : Tape) =
          some (.error (.emptyCandidates "pattern-if synonym"), rest) := by
  have hfits : ∀ allowError,
      (assignScope allowError).declared.Fits (assignScope allowError).literals := by
    intro allowError
    show 1 + 1 < UInt64.size
    decide
  have hleaderless : ∀ {allowError}, (assignScope allowError).Leaderless ↔ allowError = false := by
    intro allowError
    rw [← namedLeaders_eq_nil_iff]
    cases allowError <;> decide
  have hsubject : ∀ allowError,
      (assignScope allowError).declared.contains ⟨.assign, "x"⟩ = true ∧
        Kind.assign = PatternKind.assign.entity := fun _ => ⟨rfl, rfl⟩
  have hsupport : ∀ allowError clause,
      (∃ words rest, ((assignScope allowError).drawPattern [1, 1, 0]).run (⟨words⟩ : Tape) =
        some (.ok clause, rest)) ↔ (assignScope allowError).AdmitsPattern [1, 1, 0] clause :=
    fun allowError => (drawPattern_support_iff _ _).1 (hfits allowError)
  refine ⟨hfits, ?_, ?_, ?_, ?_⟩
  · exact (hsupport true _).mpr
      ⟨by decide, hsubject _, .inl ⟨rfl, List.mem_singleton.mpr rfl⟩⟩
  · intro hwildcard
    obtain ⟨-, -, hlhs⟩ := (hsupport true _).mp hwildcard
    cases hleaderless.mp hlhs
  · exact (hsupport false _).mpr ⟨by decide, hsubject _, hleaderless.mpr rfl⟩
  · have hends := (drawPattern_support_iff (assignScope true) [1, 1, 0]).2 Tape
      ⟨[0x8000000000000000, 0]⟩
    refine (hends.emptyCandidates .ifStmt).mpr ⟨⟨_, rfl⟩, ?_⟩
    rw [← patternSubjects_eq_nil_iff]
    rfl

end Scope

end QuerySynth
