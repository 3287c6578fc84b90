import QuerySynth.Proofs.Pool
import QuerySynth.Proofs.Query.Closure
import QuerySynth.Proofs.Reading.Clause
import QuerySynth.Proofs.Reading.Declaration

/-!
# Drawn queries can be told from their text

Over a generated pool and legible literals, every word of a drawn query is
legible: its synonyms are named by the pool, and its literals are supplied.  The
declaration line and the select line together then fix the declarations, the
result and the chains, even between setups that have nothing in common.
-/

namespace QuerySynth

open Draw

/-! ## What drawn queries are made of -/

/-- No name has a quotation mark, and every constant is a number. -/
structure Literals.Legible (literals : Literals) : Prop where
  unquoted : ∀ text, text ∈ literals.procedureNames ∨ text ∈ literals.variableNames →
    '"' ∉ text.toList
  numeric : ∀ text ∈ literals.constants, text ≠ "" ∧ ∀ c ∈ text.toList, c.isDigit = true

/-- Every name of the pool is made of letters and digits. -/
def Pool.Plain (pool : Pool) : Prop :=
  ∀ kind, ∀ name ∈ pool.names.get kind, ∀ c ∈ name.toList, c.isAlphanum = true

theorem Pool.generate_plain {σ : Type} [WordSource σ] {sizes : PoolSizes} {limit : Nat}
    {pool : Pool} (h : Succeeds (generate sizes limit : Filling σ Pool) pool) : pool.Plain := by
  intro kind name hname c hc
  exact isAlphanum_of_mem_alphabet ((generate_isName h kind name hname).letters c hc)

theorem Declarations.PartOf.plain {declared : Declarations} {pool : Pool}
    (h : declared.PartOf pool) (hpool : pool.Plain) : declared.Plain :=
  fun s hs => hpool s.kind s.name (h.name_mem hs)

theorem Scope.Covers.legible {scope : Scope} {operand : Operand} (h : scope.Covers operand)
    (hplain : scope.declared.Plain) (hliterals : scope.literals.Legible) : operand.Legible := by
  cases operand with
  | synonym s => exact hplain s h
  | name text => exact hliterals.unquoted text h
  | integer text => exact h.elim
  | wildcard => exact trivial

theorem EquationScope.Candidate.legible {declared : Declarations} {literals : Literals}
    {attrs : List UInt32} {wanted : Option ValueType} {side : WithRef}
    (h : (ofDeclarations declared literals).Candidate attrs wanted side)
    (hplain : declared.Plain) (hliterals : literals.Legible) : side.Legible := by
  cases side with
  | literal operand =>
      rcases mem_literals (mem_literals_of_mem_literalsOf h) with
        ⟨text, rfl, htext⟩ | ⟨text, rfl, htext⟩
      · exact ⟨.inl ⟨text, rfl⟩, hliterals.unquoted text htext⟩
      · exact ⟨.inr ⟨text, rfl⟩, hliterals.numeric text htext⟩
  | attr ref => exact hplain ref.subject (h.declared_of_mem _ rfl)
  | synonym s => exact hplain s (h.declared_of_mem _ rfl)

namespace Setup

variable {setup : Setup} {declared : Declarations}

theorem AdmitsClause.legible {clause : Clause} (h : setup.AdmitsClause declared clause)
    (hplain : declared.Plain) (hliterals : setup.literals.Legible) : clause.Legible := by
  cases clause with
  | suchThat relation transitive left right =>
      exact ⟨(Scope.covers_left relation _ h.left_mem).legible hplain hliterals,
        (Scope.covers_right relation _ h.right_mem).legible hplain hliterals⟩
  | equation left right =>
      exact ⟨h.1.candidate.legible hplain hliterals, h.2.candidate.legible hplain hliterals⟩
  | pattern kind entity lhs =>
      have hcontains := Declarations.contains_of_mem_ofKind h.entity_mem
      exact ⟨(Declarations.mem_ofKind.mp h.entity_mem).1, hplain entity hcontains,
        (Scope.covers_leaders _ h.lhs_mem).legible hplain hliterals⟩

theorem AdmitsChain.legible {chain : ClauseChain} (h : setup.AdmitsChain declared chain)
    (hplain : declared.Plain) (hliterals : setup.literals.Legible) : chain.Legible :=
  ⟨List.length_pos_iff.mp h.length_pos, fun clause hclause =>
    ⟨h.family_eq clause hclause, (h.clauses clause hclause).legible hplain hliterals⟩⟩

theorem Admits.legible {query : Query} (h : setup.Admits query) (hpool : setup.pool.Plain)
    (hliterals : setup.literals.Legible) : query.Legible := by
  have hplain := h.declarations.plain hpool
  have helems : ∀ elem ∈ query.select.elems, elem.Legible := by
    intro elem helem
    have hadmits := h.select.elems elem helem
    cases elem with
    | synonym s => exact hplain s (Declarations.mem_synonyms.mp hadmits.2)
    | attr ref => exact hplain ref.subject hadmits.2.owned.2
  refine ⟨?_, fun chain hchain => (h.chains chain hchain).legible hplain hliterals⟩
  have hselect := h.select
  cases hshape : query.select with
  | boolean => exact trivial
  | single elem =>
      rw [hshape] at helems
      exact helems elem List.mem_cons_self
  | tuple elems =>
      rw [hshape] at helems hselect
      exact ⟨List.length_pos_iff.mp hselect.2.2.1.1, helems⟩

/-! ## Two queries with one text

The sample is of two setups that share no more than the names drawn for them. -/

/-- One assignment and one variable. -/
def twinSizes : PoolSizes := ⟨0, ((PerKind.fill none).set .assign (some 1)).set .var (some 1)⟩

/-- The names drawn for them. -/
def twinPool : Pool := ⟨((PerKind.fill []).set .assign ["A"]).set .var ["A"]⟩

/-- Standard settings, with literals. -/
def firstTwin : Setup := ⟨{}, twinPool, ⟨["main"], [], ["7"]⟩⟩

/-- Short queries under another comment, without literals. -/
def secondTwin : Setup := ⟨{ andLimit := 0, lenQueries := 1, comment := "short" }, twinPool, {}⟩

/-- What both runs end with, up to number and comment. -/
def twinQuery (index : Nat) (comment : String) : Query where
  index := index
  comment := comment
  declarations := ⟨twinPool.names⟩
  select := .single (.synonym ⟨.assign, "A"⟩)
  chains := [⟨.pattern, [.pattern .assign ⟨.assign, "A"⟩ (.synonym ⟨.var, "A"⟩)]⟩]
  timeout := "5000"

theorem run_firstTwin :
    (Pool.generate twinSizes 1 : Pool.Filling Tape Pool).run (tapeOfEighths [0, 0, 0, 0]) =
        some (.ok firstTwin.pool, ⟨[]⟩) ∧
      (firstTwin.drawQuery 1).run
          (tapeOfEighths [0, 0, 0, 0, 0, 0, 0, 0, 1, 7, 0, 0, 0, 7]) =
        some (.ok (twinQuery 1 "NIL"), ⟨[]⟩) :=
  ⟨rfl, rfl⟩

theorem run_secondTwin :
    (Pool.generate twinSizes 2 : Pool.Filling Tape Pool).run (tapeOfEighths [1, 0, 0, 0]) =
        some (.ok secondTwin.pool, ⟨[]⟩) ∧
      (secondTwin.drawQuery 2).run (tapeOfEighths [1, 0, 2, 0, 1, 1, 1, 1, 4, 6, 1, 1, 1]) =
        some (.ok (twinQuery 2 "short"), ⟨[]⟩) :=
  ⟨rfl, rfl⟩

/-- Two drawn queries with the same declaration line and the same select line have
the same declarations, result and chains, whatever their setups, pools and
sources of words. -/
theorem drawQuery_eq_of_text_eq {σ σ' τ τ' : Type} [WordSource σ] [WordSource σ'] [WordSource τ]
    [WordSource τ'] {setup setup' : Setup} {sizes sizes' : PoolSizes} {limit limit' : Nat}
    {index index' : Nat} {query query' : Query} {p q : τ} {p' q' : τ'} {s t : σ} {s' t' : σ'}
    (hpool : (Pool.generate sizes limit : Pool.Filling τ Pool).run p = some (.ok setup.pool, q))
    (hpool' : (Pool.generate sizes' limit' : Pool.Filling τ' Pool).run p' =
      some (.ok setup'.pool, q'))
    (hliterals : setup.literals.Legible) (hliterals' : setup'.literals.Legible)
    (hquery : (setup.drawQuery index).run s = some (.ok query, t))
    (hquery' : (setup'.drawQuery index').run s' = some (.ok query', t'))
    (hdeclarations : query.declarations.render = query'.declarations.render)
    (hselect : query.selectLine = query'.selectLine) :
    query.declarations = query'.declarations ∧ query.select = query'.select ∧
      query.chains = query'.chains := by
  have hplain := Pool.generate_plain (succeeds_of_run hpool)
  have hplain' := Pool.generate_plain (succeeds_of_run hpool')
  have hadmits := (succeeds_drawQuery (succeeds_of_run hquery)).2
  have hadmits' := (succeeds_drawQuery (succeeds_of_run hquery')).2
  have hlegible := hadmits.legible hplain hliterals
  have hlegible' := hadmits'.legible hplain' hliterals'
  exact ⟨(hadmits.declarations.plain hplain).render_inj (hadmits'.declarations.plain hplain')
    hdeclarations, hlegible.selectLine_inj hlegible' hselect⟩

/-- Runs that read different words to the same two lines. -/
theorem drawQuery_twins_eq :
    (firstTwin.drawQuery 1).run (tapeOfEighths [0, 0, 0, 0, 0, 0, 0, 0, 1, 7, 0, 0, 0, 7]) =
        some (.ok (twinQuery 1 "NIL"), ⟨[]⟩) ∧
      (secondTwin.drawQuery 2).run (tapeOfEighths [1, 0, 2, 0, 1, 1, 1, 1, 4, 6, 1, 1, 1]) =
        some (.ok (twinQuery 2 "short"), ⟨[]⟩) ∧
      firstTwin.literals.Legible ∧ secondTwin.literals.Legible ∧
      (twinQuery 1 "NIL").selectLine = "Select aA pattern aA(vA, _)" ∧
      (twinQuery 2 "short").selectLine = "Select aA pattern aA(vA, _)" ∧
      (twinQuery 1 "NIL").declarations = (twinQuery 2 "short").declarations ∧
      (twinQuery 1 "NIL").select = (twinQuery 2 "short").select ∧
      (twinQuery 1 "NIL").chains = (twinQuery 2 "short").chains := by
  have hliterals : firstTwin.literals.Legible := ⟨by simp [firstTwin], by simp [firstTwin]⟩
  have hliterals' : secondTwin.literals.Legible := ⟨by simp [secondTwin], by simp [secondTwin]⟩
  exact ⟨run_firstTwin.2, run_secondTwin.2, hliterals, hliterals', rfl, rfl,
    drawQuery_eq_of_text_eq run_firstTwin.1 run_secondTwin.1 hliterals hliterals' run_firstTwin.2
      run_secondTwin.2 rfl rfl⟩

end Setup

end QuerySynth
