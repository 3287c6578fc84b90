import QuerySynth.Grammar.Query
import QuerySynth.Proofs.Reading.Word

/-!
# Reading the select line back

Clauses, chains and results can be told from their texts, and so can the whole
line behind `Select`.

* Within a chain the family is known, so the clauses of one family are told apart
  from one another and never from those of another family.
* A pattern on `if` has one more place than the others.  It need not be counted,
  since the kind of the pattern is that of the synonym in front.
* A chain ends where no `and` goes on with it: at the end of the line, or in front
  of the keyword of another chain.
-/

namespace QuerySynth

/-! ## Clauses -/

/-- The words are legible, and a pattern opens with a synonym of its kind. -/
def Clause.Legible : Clause → Prop
  | .suchThat _ _ left right => left.Legible ∧ right.Legible
  | .equation left right => left.Legible ∧ right.Legible
  | .pattern kind entity lhs => entity.kind = kind.entity ∧ entity.Plain ∧ lhs.Legible

/-- What a such-that clause opens with. -/
def Relation.heading (form : Relation × Bool) : List Char :=
  (form.1.text ++ (if form.2 then "*" else "") ++ "(").toList

theorem Relation.heading_prefixFree : PrefixFree heading := by
  have hall : ∀ a ∈ all, ∀ b ∈ all, ∀ s t, heading (a, s) <+: heading (b, t) →
      (a, s) = (b, t) := by
    decide
  exact fun a b => hall a.1 a.1.mem_all b.1 b.1.mem_all a.2 b.2

/-- What a pattern has behind its leading operand. -/
def PatternKind.closing : PatternKind → List Char
  | .ifStmt => ", _, _)".toList
  | _ => ", _)".toList

theorem PatternKind.entity_injective {a b : PatternKind} (h : a.entity = b.entity) : a = b := by
  revert h
  cases a <;> cases b <;> decide

theorem PatternKind.endsName_closing (kind : PatternKind) (u : List Char) :
    EndsName (kind.closing ++ u) := by
  cases kind <;> exact stopsAt_cons (by decide)

namespace Clause

variable {u v : List Char}

theorem suchThat_append_inj {relation relation' : Relation} {transitive transitive' : Bool}
    {left right left' right' : Operand} (hleft : left.Legible) (hright : right.Legible)
    (hleft' : left'.Legible) (hright' : right'.Legible)
    (h : (suchThat relation transitive left right).render.toList ++ u =
      (suchThat relation' transitive' left' right').render.toList ++ v) :
    suchThat relation transitive left right = suchThat relation' transitive' left' right' ∧
      u = v := by
  have hsplit : Relation.heading (relation, transitive) ++
        (left.render.toList ++ ',' :: ' ' :: (right.render.toList ++ ')' :: u)) =
      Relation.heading (relation', transitive') ++
        (left'.render.toList ++ ',' :: ' ' :: (right'.render.toList ++ ')' :: v)) := by
    simpa [render, Relation.heading, String.toList_append] using h
  obtain ⟨hform, hoperands⟩ := Relation.heading_prefixFree.append_inj hsplit
  obtain ⟨rfl, hcomma⟩ := Operand.unambiguous left left' _ _ hleft hleft'
    (stopsAt_cons (by decide)) (stopsAt_cons (by decide)) hoperands
  obtain ⟨rfl, hclose⟩ := Operand.unambiguous right right' _ _ hright hright'
    (stopsAt_cons (by decide)) (stopsAt_cons (by decide))
    (List.cons.inj (List.cons.inj hcomma).2).2
  obtain ⟨rfl, rfl⟩ := Prod.mk.inj hform
  exact ⟨rfl, (List.cons.inj hclose).2⟩

theorem equation_append_inj {left right left' right' : WithRef} (hleft : left.Legible)
    (hright : right.Legible) (hleft' : left'.Legible) (hright' : right'.Legible)
    (hu : EndsElem u) (hv : EndsElem v)
    (h : (equation left right).render.toList ++ u =
      (equation left' right').render.toList ++ v) :
    equation left right = equation left' right' ∧ u = v := by
  have hsplit : left.render.toList ++ ' ' :: '=' :: ' ' :: (right.render.toList ++ u) =
      left'.render.toList ++ ' ' :: '=' :: ' ' :: (right'.render.toList ++ v) := by
    simpa [render, String.toList_append] using h
  obtain ⟨rfl, hsign⟩ := WithRef.unambiguous left left' _ _ hleft hleft'
    (stopsAt_cons (by decide)) (stopsAt_cons (by decide)) hsplit
  obtain ⟨rfl, huv⟩ := WithRef.unambiguous right right' u v hright hright' hu hv
    (List.cons.inj (List.cons.inj (List.cons.inj hsign).2).2).2
  exact ⟨rfl, huv⟩

theorem render_pattern_toList (kind : PatternKind) (entity : Synonym) (lhs : Operand)
    (u : List Char) : (pattern kind entity lhs).render.toList ++ u =
      entity.render.toList ++ '(' :: (lhs.render.toList ++ (kind.closing ++ u)) := by
  have hsplit : ∀ closing : String, (entity.render ++ "(" ++ lhs.render ++ closing).toList ++ u =
      entity.render.toList ++ '(' :: (lhs.render.toList ++ (closing.toList ++ u)) := by
    intro closing
    simp only [String.toList_append, List.append_assoc]
    rfl
  cases kind with
  | ifStmt => exact hsplit ", _, _)"
  | assign | whileStmt => exact hsplit ", _)"

theorem pattern_append_inj {kind kind' : PatternKind} {entity entity' : Synonym}
    {lhs lhs' : Operand} (hvalid : (pattern kind entity lhs).Legible)
    (hvalid' : (pattern kind' entity' lhs').Legible)
    (h : (pattern kind entity lhs).render.toList ++ u =
      (pattern kind' entity' lhs').render.toList ++ v) :
    pattern kind entity lhs = pattern kind' entity' lhs' ∧ u = v := by
  obtain ⟨hkind, hentity, hlhs⟩ := hvalid
  obtain ⟨hkind', hentity', hlhs'⟩ := hvalid'
  rw [render_pattern_toList, render_pattern_toList] at h
  obtain ⟨rfl, hopen⟩ := Synonym.unambiguous entity entity' _ _ hentity hentity'
    (stopsAt_cons (by decide)) (stopsAt_cons (by decide)) h
  obtain ⟨rfl, hclose⟩ := Operand.unambiguous lhs lhs' _ _ hlhs hlhs' (kind.endsName_closing u)
    (kind'.endsName_closing v) (List.cons.inj hopen).2
  -- the number of places follows from the synonym in front
  obtain rfl := PatternKind.entity_injective (hkind.symm.trans hkind')
  exact ⟨rfl, List.append_cancel_left hclose⟩

/-- The clauses of one family. -/
theorem unambiguous (family : ClauseFamily) :
    Unambiguous (fun clause : Clause => clause.family = family ∧ clause.Legible) EndsElem
      (fun clause => clause.render.toList) := by
  rintro a b u v ⟨rfl, ha⟩ ⟨hfamily, hb⟩ hu hv h
  cases a with
  | suchThat relation transitive left right =>
      cases b with
      | suchThat => exact suchThat_append_inj ha.1 ha.2 hb.1 hb.2 h
      | equation | pattern => cases hfamily
  | equation left right =>
      cases b with
      | equation => exact equation_append_inj ha.1 ha.2 hb.1 hb.2 hu hv h
      | suchThat | pattern => cases hfamily
  | pattern kind entity lhs =>
      cases b with
      | pattern => exact pattern_append_inj ha hb h
      | suchThat | equation => cases hfamily

end Clause

/-! ## Chains -/

theorem ClauseFamily.keyword_prefixFree :
    PrefixFree fun family : ClauseFamily => family.keyword.toList ++ [' '] := by
  intro a b h
  revert h
  cases a <;> cases b <;> decide

namespace ClauseChain

/-- There are clauses, all of the chain's family and legible. -/
def Legible (chain : ClauseChain) : Prop :=
  chain.clauses ≠ [] ∧
    ∀ clause ∈ chain.clauses, clause.family = chain.family ∧ clause.Legible

/-- The text does not go on with a word, nor with a further clause. -/
def Ends (u : List Char) : Prop := EndsElem u ∧ ¬ " and ".toList <+: u

theorem render_toList {chain : ClauseChain} (h : chain.clauses ≠ []) :
    chain.render.toList = (chain.family.keyword.toList ++ [' ']) ++
      " and ".toList.intercalate (chain.clauses.map fun clause => clause.render.toList) := by
  unfold render
  split
  · next hnil => exact absurd hnil h
  · rw [String.toList_append, String.toList_append, String.toList_intercalate, List.map_map]
    rfl

/-- The clauses of a chain, whose family is known. -/
theorem unambiguous_clauses (family : ClauseFamily) :
    Unambiguous (fun clauses : List Clause => clauses ≠ [] ∧
        ∀ clause ∈ clauses, clause.family = family ∧ clause.Legible) Ends
      (fun clauses => " and ".toList.intercalate (clauses.map fun clause =>
        clause.render.toList)) :=
  (Clause.unambiguous family).intercalate (fun _ hends => hends)
    fun _ _ _ => stopsAt_cons (by decide)

theorem unambiguous : Unambiguous Legible Ends (fun chain => chain.render.toList) := by
  rintro a b u v ⟨hne, ha⟩ ⟨hne', hb⟩ hu hv h
  simp only [render_toList hne, render_toList hne', List.append_assoc _ _ u,
    List.append_assoc _ _ v] at h
  obtain ⟨hfamily, h⟩ := ClauseFamily.keyword_prefixFree.append_inj h
  rw [← hfamily] at hb
  obtain ⟨hclauses, huv⟩ := unambiguous_clauses a.family a.clauses b.clauses u v ⟨hne, ha⟩
    ⟨hne', hb⟩ hu hv h
  cases a
  cases b
  exact ⟨congr (congrArg ClauseChain.mk hfamily) hclauses, huv⟩

/-- Another chain does not go on with the one before it. -/
theorem ends_space_append {chain : ClauseChain} (h : chain.Legible) (u : List Char) :
    Ends (" ".toList ++ chain.render.toList ++ u) := by
  refine ⟨stopsAt_cons (by decide), ?_⟩
  rw [render_toList h.1]
  cases chain.family <;> simp [ClauseFamily.keyword]

/-- The chains of a query, up to the end of the line. -/
theorem unambiguous_flatMap :
    Unambiguous (fun chains : List ClauseChain => ∀ chain ∈ chains, chain.Legible) (· = [])
      (fun chains => chains.flatMap fun chain => " ".toList ++ chain.render.toList) := by
  refine unambiguous.flatMap ?_ fun _ u hchain => ends_space_append hchain u
  rintro u rfl
  exact ⟨⟨stopsAt_nil _, by decide⟩, by decide⟩

end ClauseChain

/-! ## Results -/

namespace SelectResult

/-- Every element is legible, and a tuple has elements. -/
def Legible : SelectResult → Prop
  | .boolean => True
  | .single elem => elem.Legible
  | .tuple elems => elems ≠ [] ∧ ∀ elem ∈ elems, elem.Legible

theorem render_tuple_toList (elems : List Elem) (u : List Char) :
    (tuple elems).render.toList ++ u = '<' ::
      (", ".toList.intercalate (elems.map fun elem => elem.render.toList) ++ '>' :: u) := by
  simp [render, String.toList_append, String.toList_intercalate, Function.comp_def]

/-- The elements of a tuple, up to the closing bracket. -/
theorem unambiguous_elems :
    Unambiguous (fun elems : List Elem => elems ≠ [] ∧ ∀ elem ∈ elems, elem.Legible)
      (fun u => ∃ w, u = '>' :: w)
      (fun elems => ", ".toList.intercalate (elems.map fun elem => elem.render.toList)) := by
  refine Elem.unambiguous.intercalate ?_ fun _ _ _ => stopsAt_cons (by decide)
  rintro u ⟨w, rfl⟩
  exact ⟨stopsAt_cons (by decide), by simp⟩

theorem unambiguous : Unambiguous Legible EndsElem (fun select => select.render.toList) := by
  intro a b u v ha hb hu hv h
  have hboolean : Opening.Of boolean.render.toList .other := rfl
  have htuple : ∀ elems, Opening.Of (tuple elems).render.toList .other := by
    intro elems
    rw [← List.append_nil (tuple elems).render.toList, render_tuple_toList]
    rfl
  cases a with
  | boolean =>
      cases b with
      | boolean => exact ⟨rfl, List.append_cancel_left h⟩
      | single elem => cases hboolean.unique elem.opening_render h
      | tuple elems =>
          simp only [render_tuple_toList] at h
          cases (List.cons.inj h).1
  | single elem =>
      cases b with
      | boolean => cases elem.opening_render.unique hboolean h
      | single other =>
          obtain ⟨heq, huv⟩ := Elem.unambiguous elem other u v ha hb hu hv h
          exact ⟨congrArg single heq, huv⟩
      | tuple elems => cases elem.opening_render.unique (htuple elems) h
  | tuple elems =>
      cases b with
      | boolean =>
          simp only [render_tuple_toList] at h
          cases (List.cons.inj h).1
      | single elem => cases (htuple elems).unique elem.opening_render h
      | tuple others =>
          simp only [render_tuple_toList] at h
          obtain ⟨heq, hclose⟩ := unambiguous_elems elems others _ _ ha hb ⟨u, rfl⟩ ⟨v, rfl⟩
            (List.cons.inj h).2
          exact ⟨congrArg tuple heq, (List.cons.inj hclose).2⟩

end SelectResult

/-! ## The line -/

namespace Query

/-- The result and every chain are legible. -/
structure Legible (query : Query) : Prop where
  select : query.select.Legible
  chains : ∀ chain ∈ query.chains, chain.Legible

theorem selectLine_toList (query : Query) :
    query.selectLine.toList = "Select ".toList ++ (query.select.render.toList ++
      query.chains.flatMap fun chain => " ".toList ++ chain.render.toList) := by
  rw [selectLine, String.toList_append, String.toList_append, String.toList_join,
    List.flatMap_map, List.append_assoc]
  simp only [String.toList_append]

/-- Legible queries with the same select line ask for the same. -/
theorem Legible.selectLine_inj {a b : Query} (ha : a.Legible) (hb : b.Legible)
    (h : a.selectLine = b.selectLine) : a.select = b.select ∧ a.chains = b.chains := by
  have hends : ∀ chains : List ClauseChain,
      EndsElem (chains.flatMap fun chain => " ".toList ++ chain.render.toList) := by
    intro chains
    cases chains with
    | nil => exact stopsAt_nil _
    | cons chain chains => exact stopsAt_cons (by decide)
  have hline := congrArg String.toList h
  rw [selectLine_toList, selectLine_toList] at hline
  obtain ⟨hselect, hchains⟩ := SelectResult.unambiguous a.select b.select _ _ ha.select hb.select
    (hends a.chains) (hends b.chains) (List.append_cancel_left hline)
  refine ⟨hselect, (ClauseChain.unambiguous_flatMap a.chains b.chains [] [] ha.chains hb.chains
    rfl rfl ?_).1⟩
  exact congrArg (· ++ []) hchains

end Query

end QuerySynth
