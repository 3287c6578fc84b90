import QuerySynth.Proofs.Generate.Batch
import QuerySynth.Proofs.Query.Decoding
import QuerySynth.Proofs.Text.Lines

/-!
# The lines of a file of queries

A query takes five lines, and one more for every line feed in the comment and in
the timeout, which are written as they are.

* A query is made of fixed words and of words from outside: bare names of the pool,
  and literals.  The fixed ones have no line feed, so its declaration line and its
  select line are lines if the others have none.
* Names of a generated pool are letters and digits, and literals that were read as
  entries of a text come from within a line of it.
* Every query ends in a line feed, so the lines of a file are those of its queries.
-/

namespace QuerySynth

open Draw Text

/-! ## Words from outside -/

/-- The part of an operand that is not fixed: a bare name or a literal. -/
def Operand.word : Operand → String
  | .synonym s => s.name
  | .name text => text
  | .integer text => text
  | .wildcard => ""

/-- The part of a side that is not fixed. -/
def WithRef.word : WithRef → String
  | .literal operand => operand.word
  | .attr ref => ref.subject.name
  | .synonym s => s.name

/-- The parts of a clause that are not fixed. -/
def Clause.words : Clause → List String
  | .suchThat _ _ left right => [left.word, right.word]
  | .equation left right => [left.word, right.word]
  | .pattern _ entity lhs => [entity.name, lhs.word]

theorem Synonym.oneLine_render {s : Synonym} (h : OneLine s.name) : OneLine s.render := by
  refine oneLine_append ?_ h
  cases s.kind <;> decide

theorem Operand.oneLine_render {operand : Operand} (h : OneLine operand.word) :
    OneLine operand.render := by
  cases operand with
  | synonym s => exact Synonym.oneLine_render h
  | name text => exact oneLine_append (oneLine_append (by decide) h) (by decide)
  | integer text => exact h
  | wildcard => decide

theorem AttrRef.oneLine_render {ref : AttrRef} (h : OneLine ref.subject.name) :
    OneLine ref.render := by
  refine oneLine_append (oneLine_append (Synonym.oneLine_render h) (by decide)) ?_
  cases ref.attr <;> decide

theorem WithRef.oneLine_render {side : WithRef} (h : OneLine side.word) :
    OneLine side.render := by
  cases side with
  | literal operand => exact Operand.oneLine_render h
  | attr ref => exact AttrRef.oneLine_render h
  | synonym s => exact Synonym.oneLine_render h

theorem Elem.oneLine_render {elem : Elem} (h : OneLine elem.subject.name) :
    OneLine elem.render := by
  cases elem with
  | synonym s => exact Synonym.oneLine_render h
  | attr ref => exact AttrRef.oneLine_render h

theorem Clause.oneLine_render {clause : Clause} (h : ∀ word ∈ clause.words, OneLine word) :
    OneLine clause.render := by
  cases clause with
  | suchThat relation transitive left right =>
      have hleft : OneLine left.render := Operand.oneLine_render (h _ (by simp [words]))
      have hright : OneLine right.render := Operand.oneLine_render (h _ (by simp [words]))
      have hheading : OneLine (relation.text ++ (if transitive then "*" else "") ++ "(") := by
        cases relation <;> cases transitive <;> decide
      exact oneLine_append (oneLine_append (oneLine_append (oneLine_append hheading hleft)
        (by decide)) hright) (by decide)
  | equation left right =>
      have hleft : OneLine left.render := WithRef.oneLine_render (h _ (by simp [words]))
      have hright : OneLine right.render := WithRef.oneLine_render (h _ (by simp [words]))
      exact oneLine_append (oneLine_append hleft (by decide)) hright
  | pattern kind entity lhs =>
      have hentity : OneLine entity.render := Synonym.oneLine_render (h _ (by simp [words]))
      have hlhs : OneLine lhs.render := Operand.oneLine_render (h _ (by simp [words]))
      have hopening : OneLine (entity.render ++ "(" ++ lhs.render) :=
        oneLine_append (oneLine_append hentity (by decide)) hlhs
      cases kind <;> exact oneLine_append hopening (by decide)

theorem ClauseChain.oneLine_render {chain : ClauseChain}
    (h : ∀ clause ∈ chain.clauses, ∀ word ∈ clause.words, OneLine word) :
    OneLine chain.render := by
  have hkeyword : OneLine chain.family.keyword := by cases chain.family <;> decide
  unfold render
  split
  · exact hkeyword
  · refine oneLine_append (oneLine_append hkeyword (by decide)) ?_
    refine oneLine_intercalate (by decide) ?_
    intro text htext
    obtain ⟨clause, hclause, rfl⟩ := List.mem_map.mp htext
    exact Clause.oneLine_render (h clause hclause)

theorem SelectResult.oneLine_render {result : SelectResult}
    (h : ∀ elem ∈ result.elems, OneLine elem.subject.name) : OneLine result.render := by
  cases result with
  | boolean => decide
  | single elem => exact Elem.oneLine_render (h elem List.mem_cons_self)
  | tuple elems =>
      refine oneLine_append (oneLine_append (by decide) ?_) (by decide)
      refine oneLine_intercalate (by decide) ?_
      intro text htext
      obtain ⟨elem, helem, rfl⟩ := List.mem_map.mp htext
      exact Elem.oneLine_render (h elem helem)

theorem Declarations.oneLine_render {declared : Declarations}
    (h : ∀ s, declared.contains s = true → OneLine s.name) : OneLine declared.render := by
  refine oneLine_join ?_
  intro group hgroup
  obtain ⟨kind, -, rfl⟩ := List.mem_map.mp hgroup
  have hkeyword : OneLine kind.keyword := by cases kind <;> decide
  unfold renderKind
  split
  · decide
  · refine oneLine_append (oneLine_append (oneLine_append hkeyword (by decide)) ?_) (by decide)
    refine oneLine_intercalate (by decide) ?_
    intro text htext
    obtain ⟨s, hs, rfl⟩ := List.mem_map.mp htext
    exact Synonym.oneLine_render (h s (contains_of_mem_ofKind hs))

theorem Query.oneLine_selectLine {query : Query}
    (hselect : ∀ elem ∈ query.select.elems, OneLine elem.subject.name)
    (hclauses : ∀ clause ∈ query.clauses, ∀ word ∈ clause.words, OneLine word) :
    OneLine query.selectLine := by
  refine oneLine_append (oneLine_append (by decide) (SelectResult.oneLine_render hselect)) ?_
  refine oneLine_join ?_
  intro text htext
  obtain ⟨chain, hchain, rfl⟩ := List.mem_map.mp htext
  refine oneLine_append (by decide) (ClauseChain.oneLine_render ?_)
  intro clause hclause
  exact hclauses clause (List.mem_flatMap.mpr ⟨chain, hchain, hclause⟩)

/-! ## Where the words come from -/

/-- Each of the three lists holds the entries of some text. -/
structure Literals.Listed (literals : Literals) : Prop where
  procedureNames : ∃ text delimiter, literals.procedureNames = entries text delimiter
  variableNames : ∃ text delimiter, literals.variableNames = entries text delimiter
  constants : ∃ text delimiter, literals.constants = entries text delimiter

namespace Setup

variable {setup : Setup} {declared : Declarations}

/-- The word is a bare name of the pool or a literal, or there is none. -/
def Supplies (setup : Setup) (word : String) : Prop :=
  (∃ kind, word ∈ setup.pool.names.get kind) ∨ word ∈ setup.literals.procedureNames ∨
    word ∈ setup.literals.variableNames ∨ word ∈ setup.literals.constants ∨ word = ""

theorem Supplies.oneLine {word : String} (h : setup.Supplies word) (hpool : setup.pool.Plain)
    (hliterals : setup.literals.Listed) : OneLine word := by
  rcases h with ⟨kind, hword⟩ | hword | hword | hword | rfl
  · exact oneLine_of_isAlphanum (hpool kind word hword)
  · obtain ⟨text, delimiter, heq⟩ := hliterals.procedureNames
    rw [heq] at hword
    exact oneLine_of_mem_entries hword
  · obtain ⟨text, delimiter, heq⟩ := hliterals.variableNames
    rw [heq] at hword
    exact oneLine_of_mem_entries hword
  · obtain ⟨text, delimiter, heq⟩ := hliterals.constants
    rw [heq] at hword
    exact oneLine_of_mem_entries hword
  · decide

theorem supplies_name (hpart : declared.PartOf setup.pool) {s : Synonym}
    (hs : declared.contains s = true) : setup.Supplies s.name :=
  .inl ⟨s.kind, hpart.name_mem hs⟩

theorem supplies_of_covers (hpart : declared.PartOf setup.pool) {operand : Operand}
    (h : (setup.scope declared).Covers operand) : setup.Supplies operand.word := by
  cases operand with
  | synonym s => exact supplies_name hpart h
  | name text => exact .inr (h.elim .inl fun hvariable => .inr (.inl hvariable))
  | integer text => exact h.elim
  | wildcard => exact .inr (.inr (.inr (.inr rfl)))

theorem supplies_of_candidate (hpart : declared.PartOf setup.pool) {attrs : List UInt32}
    {wanted : Option ValueType} {side : WithRef}
    (h : (EquationScope.ofDeclarations declared setup.literals).Candidate attrs wanted side) :
    setup.Supplies side.word := by
  cases side with
  | literal operand =>
      rcases EquationScope.mem_literals (EquationScope.mem_literals_of_mem_literalsOf h) with
        ⟨text, rfl, htext⟩ | ⟨text, rfl, htext⟩
      · exact .inr (htext.elim .inl fun hvariable => .inr (.inl hvariable))
      · exact .inr (.inr (.inr (.inl htext)))
  | attr ref => exact supplies_name hpart (h.declared_of_mem _ rfl)
  | synonym s => exact supplies_name hpart (h.declared_of_mem _ rfl)

/-- The words of an admitted clause are supplied. -/
theorem AdmitsClause.supplies {clause : Clause} (h : setup.AdmitsClause declared clause)
    (hpart : declared.PartOf setup.pool) : ∀ word ∈ clause.words, setup.Supplies word := by
  cases clause with
  | suchThat relation transitive left right =>
      have hleft := supplies_of_covers hpart (Scope.covers_left relation _ h.left_mem)
      have hright := supplies_of_covers hpart (Scope.covers_right relation _ h.right_mem)
      simpa [Clause.words] using ⟨hleft, hright⟩
  | equation left right =>
      have hleft := supplies_of_candidate hpart h.1.candidate
      have hright := supplies_of_candidate hpart h.2.candidate
      simpa [Clause.words] using ⟨hleft, hright⟩
  | pattern kind entity lhs =>
      have hentity := supplies_name hpart (Declarations.contains_of_mem_ofKind h.entity_mem)
      have hlhs := supplies_of_covers hpart (Scope.covers_leaders _ h.lhs_mem)
      simpa [Clause.words] using ⟨hentity, hlhs⟩

/-! ## The lines of a query -/

end Setup

/-- The text of the query under its number: the comment behind the number, two
lines, an empty line, the timeout. -/
structure Query.LaidOut (query : Query) (config : Config) (number : Nat) : Prop where
  render_eq : query.render = number.repr ++ " - " ++ config.comment ++ "\n" ++
    query.declarations.render ++ "\n" ++ query.selectLine ++ "\n" ++ "\n" ++ config.timeout ++ "\n"
  declarations_oneLine : OneLine query.declarations.render
  selectLine_oneLine : OneLine query.selectLine
  lineFeeds_eq : lineFeeds query.render =
    5 + lineFeeds config.comment + lineFeeds config.timeout

theorem oneLine_repr (n : Nat) : OneLine n.repr := by
  unfold OneLine
  rw [Nat.toList_repr]
  intro hfeed
  exact absurd (Nat.isDigit_of_mem_toDigits (by decide) (by decide) hfeed) (by decide)

theorem Query.lineFeeds_render {query : Query} (hdeclarations : OneLine query.declarations.render)
    (hselect : OneLine query.selectLine) :
    lineFeeds query.render = 5 + lineFeeds query.comment + lineFeeds query.timeout := by
  have hindex := lineFeeds_eq_zero_iff.mpr (oneLine_repr query.index)
  have hdash : lineFeeds " - " = 0 := by decide
  have hfeed : lineFeeds "\n" = 1 := by decide
  rw [← lineFeeds_eq_zero_iff] at hdeclarations hselect
  simp only [render, lineFeeds_append, hindex, hdash, hfeed, hdeclarations, hselect]
  omega

namespace Setup

variable {setup : Setup}

theorem Admits.laidOut {query : Query} (h : setup.Admits query) (hpool : setup.pool.Plain)
    (hliterals : setup.literals.Listed) : query.LaidOut setup.config query.index := by
  have hnames : ∀ s, query.declarations.contains s = true → OneLine s.name :=
    fun s hs => (supplies_name h.declarations hs).oneLine hpool hliterals
  have hdeclarations : OneLine query.declarations.render := Declarations.oneLine_render hnames
  have hselect : OneLine query.selectLine := by
    refine Query.oneLine_selectLine ?_ ?_
    · intro elem helem
      have hmentioned : elem.subject ∈ query.mentioned :=
        List.mem_append_left _ (List.mem_append_left _ (List.mem_map.mpr ⟨elem, helem, rfl⟩))
      exact hnames _ (h.declares _ hmentioned)
    · intro clause hclause word hword
      exact ((h.clause hclause).supplies h.declarations word hword).oneLine hpool hliterals
  have hfeeds := Query.lineFeeds_render hdeclarations hselect
  rw [h.comment_eq, h.timeout_eq] at hfeeds
  refine ⟨?_, hdeclarations, hselect, hfeeds⟩
  rw [Query.render, h.comment_eq, h.timeout_eq]

variable {σ : Type} [WordSource σ]

theorem Draws.laidOut {index : Nat} {queries : List Query} {s t : σ}
    (h : setup.Draws index s queries t) (hpool : setup.pool.Plain)
    (hliterals : setup.literals.Listed) {k : Nat} {query : Query} (hk : queries[k]? = some query) :
    query.LaidOut setup.config (index + k) := by
  induction h generalizing k with
  | nil => cases hk
  | @cons index s t u first queries hquery _ ih =>
      cases k with
      | zero =>
          cases hk
          obtain ⟨hindex, hadmits⟩ := succeeds_drawQuery (succeeds_of_run hquery)
          have hlaid := hadmits.laidOut hpool hliterals
          rwa [hindex] at hlaid
      -- the others are the queries from the next number on
      | succ k =>
          have hlaid := ih hk
          rwa [Nat.add_assoc, Nat.add_comm 1 k] at hlaid

/-! ## The lines of a file -/

end Setup

theorem mul_add_eq_iff (n a b : Nat) : n * (5 + a + b) = 5 * n ↔ n = 0 ∨ a = 0 ∧ b = 0 := by
  have hsplit : n * (5 + a + b) = 5 * n + n * (a + b) := by
    rw [Nat.add_assoc, Nat.mul_add, Nat.mul_comm n 5]
  rw [hsplit, Nat.add_eq_left, Nat.mul_eq_zero, Nat.add_eq_zero_iff]

theorem lineFeeds_fileText {queries : List Query} {n : Nat}
    (h : ∀ query ∈ queries, lineFeeds query.render = n) :
    lineFeeds (fileText queries) = queries.length * n := by
  induction queries with
  | nil => rw [List.length_nil, Nat.zero_mul]; rfl
  | cons query queries ih =>
      obtain ⟨hquery, hqueries⟩ := List.forall_mem_cons.mp h
      have hjoin : fileText (query :: queries) = query.render ++ fileText queries :=
        String.join_cons
      rw [hjoin, lineFeeds_append, hquery, ih hqueries, List.length_cons, Nat.succ_mul,
        Nat.add_comm]

/-- A file without queries is empty, and any other ends the line of a timeout. -/
theorem getLast?_fileText (queries : List Query) :
    ∀ c ∈ (fileText queries).toList.getLast?, c = '\n' := by
  induction queries with
  | nil => exact nofun
  | cons query queries ih =>
      have hjoin : fileText (query :: queries) = query.render ++ fileText queries :=
        String.join_cons
      have hrender : query.render.toList.getLast? = some '\n' := by
        rw [Query.render, String.toList_append]
        exact List.getLast?_concat
      intro c hc
      rw [hjoin, String.toList_append, List.getLast?_append, hrender] at hc
      cases hlast : (fileText queries).toList.getLast? with
      | none =>
          rw [hlast] at hc
          cases hc
          rfl
      | some d =>
          rw [hlast] at hc
          cases hc
          exact ih c hlast

namespace Setup

variable {setup : Setup} {σ τ : Type} [WordSource σ] [WordSource τ]

theorem Draws.length_lines {queries : List Query} {s t : σ} (h : setup.Draws 1 s queries t)
    (hpool : setup.pool.Plain) (hliterals : setup.literals.Listed) :
    (lines (fileText queries).toList).length =
      queries.length * (5 + lineFeeds setup.config.comment + lineFeeds setup.config.timeout) := by
  refine (Text.length_lines (getLast?_fileText queries)).trans (lineFeeds_fileText ?_)
  intro query hquery
  obtain ⟨k, hk⟩ := List.mem_iff_getElem?.mp hquery
  exact (h.laidOut hpool hliterals hk).lineFeeds_eq

/-- Bytes of a batch that came to its end. -/
theorem bytes_of_fits {batch : Batch} {room : Option Nat} (hstop : batch.stop = none)
    (hroom : ∀ limit ∈ room, batch.text.utf8ByteSize ≤ limit) :
    batch.bytes room = batch.text.toUTF8 := by
  have hoffered : batch.text ++ "" = batch.text := String.append_empty
  unfold Batch.bytes
  rw [hstop]
  simp only [hoffered]
  cases room with
  | none => rfl
  | some limit =>
      have hsize : batch.text.toUTF8.size ≤ limit := hroom limit rfl
      have hall := ByteArray.extract_zero_max_size (a := batch.text.toUTF8) (i := limit)
      rwa [Nat.max_eq_left hsize] at hall

/-- A batch that comes to its end holds the queries asked for, and nothing else.
Each is laid out under its number, and the file has five lines for each of them
exactly if there are none, or if comment and timeout stay on their lines. -/
theorem write_laidOut {sizes : PoolSizes} {limit : Nat} {room : Option Nat} {batch : Batch}
    {p q : τ} {s t : σ}
    (hpool : (Pool.generate sizes limit : Pool.Filling τ Pool).run p = some (.ok setup.pool, q))
    (hliterals : setup.literals.Listed)
    (h : (setup.write room).run s = some (batch, t)) (hstop : batch.stop = none) :
    batch.texts.length = setup.config.numQueries.toNat ∧
      ∃ queries, setup.Draws 1 s queries t ∧ batch.texts = queries.map Query.render ∧
        batch.bytes room = (fileText queries).toUTF8 ∧
        (∀ (k : Nat) (query : Query), queries[k]? = some query →
          query.LaidOut setup.config (k + 1)) ∧
        ((lines (fileText queries).toList).length = 5 * setup.config.numQueries.toNat ↔
          setup.config.numQueries.toNat = 0 ∨
            OneLine setup.config.comment ∧ OneLine setup.config.timeout) := by
  have hplain := Pool.generate_plain (succeeds_of_run hpool)
  obtain ⟨queries, hqueries, hlength, htexts, hroom⟩ := exists_draws_of_writeFrom h hstop
  have htext : batch.text = fileText queries := congrArg String.join htexts
  have hlines := hqueries.length_lines hplain hliterals
  refine ⟨by rw [htexts, List.length_map, hlength], queries, hqueries, htexts, ?_, ?_, ?_⟩
  · rw [bytes_of_fits hstop hroom, htext]
  · intro k query hk
    have hlaid := hqueries.laidOut hplain hliterals hk
    rwa [Nat.add_comm 1 k] at hlaid
  · rw [hlines, hlength, ← lineFeeds_eq_zero_iff, ← lineFeeds_eq_zero_iff]
    exact mul_add_eq_iff _ _ _

/-! ### A file with a comment of two lines -/

/-- Two queries, under a comment that holds a line feed, with literals read from
texts. -/
def ruledSetup : Setup where
  config := { andLimit := 0, lenQueries := 1, numQueries := 2, comment := "two\nlines" }
  pool := twinPool
  literals := ⟨entries "main;; \n" ";", [], entries "7" ""⟩

/-- The words of each of the two queries. -/
def ruledWords : List Nat := [1, 0, 2, 0, 1, 1, 1, 1, 4, 6, 1, 1, 1]

/-- What the run writes. -/
def ruledBatch : Batch :=
  ⟨[(twinQuery 1 "two\nlines").render, (twinQuery 2 "two\nlines").render], none⟩

theorem run_ruled :
    (ruledSetup.write none).run (tapeOfEighths (ruledWords ++ ruledWords)) =
      some (ruledBatch, ⟨[]⟩) := by
  have hfirst : (ruledSetup.drawQuery 1).run (tapeOfEighths (ruledWords ++ ruledWords)) =
      some (.ok (twinQuery 1 "two\nlines"), tapeOfEighths ruledWords) := rfl
  have hsecond : (ruledSetup.drawQuery 2).run (tapeOfEighths ruledWords) =
      some (.ok (twinQuery 2 "two\nlines"), ⟨[]⟩) := rfl
  have hdraws : ruledSetup.Draws 1 (tapeOfEighths (ruledWords ++ ruledWords))
      [twinQuery 1 "two\nlines", twinQuery 2 "two\nlines"] ⟨[]⟩ :=
    .cons hfirst (.cons hsecond (.nil 3 _))
  exact hdraws.run_write rfl

/-- The comment takes a second line in both queries, so there are not ten lines. -/
theorem write_ruled_laidOut :
    ruledSetup.literals.Listed ∧
      (Pool.generate twinSizes 1 : Pool.Filling Tape Pool).run (tapeOfEighths [0, 0, 0, 0]) =
        some (.ok ruledSetup.pool, ⟨[]⟩) ∧
      (ruledSetup.write none).run (tapeOfEighths (ruledWords ++ ruledWords)) =
        some (ruledBatch, ⟨[]⟩) ∧
      ruledBatch.stop = none ∧ ruledBatch.texts.length = 2 ∧
      ∃ queries, ruledBatch.texts = queries.map Query.render ∧
        (∀ (k : Nat) (query : Query), queries[k]? = some query →
          query.LaidOut ruledSetup.config (k + 1)) ∧
        (lines (fileText queries).toList).length ≠ 5 * 2 := by
  have hliterals : ruledSetup.literals.Listed :=
    ⟨⟨_, _, rfl⟩, ⟨"", "", rfl⟩, ⟨_, _, rfl⟩⟩
  have hpool : (Pool.generate twinSizes 1 : Pool.Filling Tape Pool).run
      (tapeOfEighths [0, 0, 0, 0]) = some (.ok ruledSetup.pool, ⟨[]⟩) := run_firstTwin.1
  obtain ⟨hlength, queries, -, htexts, -, hlaid, hlines⟩ :=
    write_laidOut hpool hliterals run_ruled rfl
  refine ⟨hliterals, hpool, run_ruled, rfl, hlength, queries, htexts, hlaid, ?_⟩
  intro hten
  have hcomment : ¬ OneLine ruledSetup.config.comment := by decide
  rcases hlines.mp hten with hnone | ⟨hone, -⟩
  · cases hnone
  · exact hcomment hone

end Setup

end QuerySynth
