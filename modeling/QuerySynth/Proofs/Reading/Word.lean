import QuerySynth.Grammar.Clause
import QuerySynth.Grammar.Select
import QuerySynth.Proofs.Reading.Unambiguous

/-!
# Reading words back

Synonyms, operands, elements and the sides of equations can be told from their
texts, as long as the bare names are made of letters and digits.

* The stems of the kinds are prefix-free, so a synonym falls into its kind and its
  bare name, also where the text of a synonym happens to be a keyword.
* The sorts of operands open with different characters.
* A period behind a synonym makes it the subject of an attribute.
-/

namespace QuerySynth

/-! ## Prefix-free words -/

theorem Kind.stem_prefixFree : PrefixFree fun kind : Kind => kind.stem.toList := by
  have hall : ∀ a ∈ Kind.all, ∀ b ∈ Kind.all, a.stem.toList <+: b.stem.toList → a = b := by
    decide
  exact fun a b => hall a a.mem_all b b.mem_all

theorem AttrName.text_prefixFree : PrefixFree fun attr : AttrName => attr.text.toList := by
  have hall : ∀ a ∈ AttrName.all, ∀ b ∈ AttrName.all, a.text.toList <+: b.text.toList → a = b := by
    decide
  exact fun a b => hall a a.mem_all b b.mem_all

/-! ## Legible values -/

/-- The bare name is made of letters and digits. -/
def Synonym.Plain (s : Synonym) : Prop := ∀ c ∈ s.name.toList, c.isAlphanum = true

/-- A synonym is plain, a name has no quotation mark, and a constant is a number. -/
def Operand.Legible : Operand → Prop
  | .synonym s => s.Plain
  | .name text => '"' ∉ text.toList
  | .integer text => text ≠ "" ∧ ∀ c ∈ text.toList, c.isDigit = true
  | .wildcard => True

/-- The subject of the element is plain. -/
def Elem.Legible (elem : Elem) : Prop := elem.subject.Plain

/-- A literal is a legible name or constant, and any synonym is plain. -/
def WithRef.Legible : WithRef → Prop
  | .literal operand =>
      ((∃ text, operand = .name text) ∨ ∃ text, operand = .integer text) ∧ operand.Legible
  | .attr ref => ref.subject.Plain
  | .synonym s => s.Plain

/-! ## What a text opens with -/

/-- The sorts of characters that words open with. -/
inductive Opening where
  | letter
  | digit
  | quote
  | other
  deriving DecidableEq

namespace Opening

/-- The sort of a character. -/
def ofChar (c : Char) : Opening :=
  if c.isLower then .letter else if c.isDigit then .digit else if c = '"' then .quote else .other

/-- The text is not empty and opens with this sort of character. -/
def Of (text : List Char) (opening : Opening) : Prop := text.head?.map ofChar = some opening

variable {text other u v : List Char} {opening opening' : Opening}

theorem Of.append (h : Of text opening) (u : List Char) : Of (text ++ u) opening := by
  cases text with
  | nil => cases h
  | cons c text => exact h

/-- Texts that go on to the same text open alike. -/
theorem Of.unique (h : Of text opening) (h' : Of other opening') (heq : text ++ u = other ++ v) :
    opening = opening' := by
  have hfirst := h.append u
  rw [heq] at hfirst
  exact Option.some.inj (hfirst.symm.trans (h'.append v))

end Opening

/-- The sort of character that the text of an operand opens with. -/
def Operand.opening : Operand → Opening
  | .synonym _ => .letter
  | .name _ => .quote
  | .integer _ => .digit
  | .wildcard => .other

theorem Synonym.render_toList (s : Synonym) :
    s.render.toList = s.kind.stem.toList ++ s.name.toList :=
  String.toList_append

theorem Synonym.opening_render (s : Synonym) : Opening.Of s.render.toList .letter := by
  rw [render_toList]
  refine Opening.Of.append ?_ _
  cases s.kind <;> rfl

theorem isLower_eq_false_of_isDigit {c : Char} (h : c.isDigit = true) : c.isLower = false := by
  have hdigit : (decide (48 ≤ c.val) && decide (c.val ≤ 57)) = true := h
  rw [Bool.and_eq_true, decide_eq_true_eq, decide_eq_true_eq] at hdigit
  show (decide (97 ≤ c.val) && decide (c.val ≤ 122)) = false
  rw [Bool.and_eq_false_iff, decide_eq_false_iff_not]
  exact .inl fun hlower => absurd (UInt32.le_trans hlower hdigit.2) (by decide)

theorem Operand.opening_render {operand : Operand} (h : operand.Legible) :
    Opening.Of operand.render.toList operand.opening := by
  cases operand with
  | synonym s => exact s.opening_render
  | name text =>
      show Opening.Of ("\"" ++ text ++ "\"").toList .quote
      rw [String.toList_append, String.toList_append]
      rfl
  | integer text =>
      obtain ⟨hne, hdigits⟩ := h
      show Opening.Of text.toList .digit
      cases htext : text.toList with
      | nil => exact absurd (String.toList_inj.mp htext) hne
      | cons c rest =>
          have hdigit : c.isDigit = true := hdigits c (by rw [htext]; exact List.mem_cons_self)
          show some (Opening.ofChar c) = some .digit
          simp [Opening.ofChar, hdigit, isLower_eq_false_of_isDigit hdigit]
  | wildcard => rfl

/-! ## Unambiguous words -/

/-- The text does not go on with a letter or a digit. -/
abbrev EndsName (u : List Char) : Prop := StopsAt Char.isAlphanum u

/-- The text does not go on with a letter, a digit or a period. -/
abbrev EndsElem (u : List Char) : Prop := StopsAt (fun c => c.isAlphanum || c == '.') u

theorem EndsElem.endsName {u : List Char} (h : EndsElem u) : EndsName u := by
  intro c hc
  exact (Bool.or_eq_false_iff.mp (h c hc)).1

theorem EndsElem.ne_period {u v : List Char} (h : EndsElem u) : u ≠ '.' :: v := by
  rintro rfl
  exact absurd (h '.' rfl) (by decide)

theorem EndsName.not_digit {u : List Char} (h : EndsName u) : StopsAt Char.isDigit u := by
  intro c hc
  exact (Bool.or_eq_false_iff.mp (h c hc)).2

theorem Synonym.unambiguous :
    Unambiguous Synonym.Plain EndsName (fun s => s.render.toList) := by
  intro s t u v hs ht hu hv h
  simp only [render_toList, List.append_assoc] at h
  obtain ⟨hkind, hname⟩ := Kind.stem_prefixFree.append_inj h
  obtain ⟨hname, huv⟩ := unambiguous_run Char.isAlphanum _ _ u v hs ht hu hv hname
  refine ⟨?_, huv⟩
  cases s
  cases t
  exact congr (congrArg Synonym.mk hkind) (String.toList_inj.mp hname)

/-- Nothing keeps a synonym from being written like a keyword. -/
example : (⟨.whileStmt, "ith"⟩ : Synonym).render = ClauseFamily.equation.keyword := by decide

/-- The opening tells the sort of the operand, and within a sort the end of the
text is marked, by the closing quotation mark or by what follows. -/
theorem Operand.unambiguous :
    Unambiguous Operand.Legible EndsName (fun operand => operand.render.toList) := by
  intro a b u v ha hb hu hv h
  have hopening := (opening_render ha).unique (opening_render hb) h
  cases a with
  | synonym s =>
      cases b with
      | synonym t =>
          obtain ⟨hst, huv⟩ := Synonym.unambiguous s t u v ha hb hu hv h
          exact ⟨congrArg Operand.synonym hst, huv⟩
      | name | integer | wildcard => cases hopening
  | name text =>
      cases b with
      | name other =>
          -- the closing mark ends the run of other characters
          have hclosed : text.toList ++ '"' :: u = other.toList ++ '"' :: v := by
            simpa [render, String.toList_append] using h
          have hquote : ∀ w : List Char, StopsAt (· != '"') ('"' :: w) :=
            fun w => stopsAt_cons (by decide)
          obtain ⟨htext, huv⟩ := unambiguous_run (· != '"') _ _ _ _
            (fun c hc => bne_iff_ne.mpr fun heq => ha (heq ▸ hc))
            (fun c hc => bne_iff_ne.mpr fun heq => hb (heq ▸ hc)) (hquote u) (hquote v) hclosed
          exact ⟨congrArg Operand.name (String.toList_inj.mp htext), (List.cons.inj huv).2⟩
      | synonym | integer | wildcard => cases hopening
  | integer text =>
      cases b with
      | integer other =>
          obtain ⟨htext, huv⟩ := unambiguous_run Char.isDigit _ _ u v ha.2 hb.2 hu.not_digit
            hv.not_digit h
          exact ⟨congrArg Operand.integer (String.toList_inj.mp htext), huv⟩
      | synonym | name | wildcard => cases hopening
  | wildcard =>
      cases b with
      | wildcard => exact ⟨rfl, List.append_cancel_left h⟩
      | synonym | name | integer => cases hopening

/-- What an element has behind its subject. -/
def Elem.suffix : Elem → List Char
  | .synonym _ => []
  | .attr ref => '.' :: ref.attr.text.toList

theorem Elem.render_toList (elem : Elem) :
    elem.render.toList = elem.subject.render.toList ++ elem.suffix := by
  cases elem with
  | synonym s => exact (List.append_nil _).symm
  | attr ref =>
      show (ref.subject.render ++ "." ++ ref.attr.text).toList = _
      rw [String.toList_append, String.toList_append, List.append_assoc]
      rfl

theorem Elem.endsName_suffix (elem : Elem) {u : List Char} (hu : EndsElem u) :
    EndsName (elem.suffix ++ u) := by
  cases elem with
  | synonym s => exact hu.endsName
  | attr ref => exact stopsAt_cons (by decide)

theorem Elem.unambiguous :
    Unambiguous Elem.Legible EndsElem (fun elem => elem.render.toList) := by
  intro a b u v ha hb hu hv h
  simp only [render_toList, List.append_assoc] at h
  -- a suffix opens with a period, so the subject ends in front of it
  obtain ⟨hsubject, hsuffix⟩ := Synonym.unambiguous _ _ _ _ ha hb (a.endsName_suffix hu)
    (b.endsName_suffix hv) h
  cases a with
  | synonym s =>
      cases b with
      | synonym t => exact ⟨congrArg Elem.synonym hsubject, hsuffix⟩
      | attr ref => exact absurd hsuffix hu.ne_period
  | attr ref =>
      cases b with
      | synonym t => exact absurd hsuffix.symm hv.ne_period
      | attr other =>
          obtain ⟨hattr, huv⟩ := AttrName.text_prefixFree.append_inj (List.cons.inj hsuffix).2
          cases ref
          cases other
          exact ⟨congrArg Elem.attr (congr (congrArg AttrRef.mk hsubject) hattr), huv⟩

/-- The side of an equation that is written like an element. -/
def Elem.toRef : Elem → WithRef
  | .synonym s => .synonym s
  | .attr ref => .attr ref

theorem WithRef.legible_cases {side : WithRef} (h : side.Legible) :
    (∃ operand : Operand, side = .literal operand ∧ operand.Legible ∧
      (operand.opening = .quote ∨ operand.opening = .digit)) ∨
    ∃ elem : Elem, side = elem.toRef ∧ elem.Legible := by
  cases side with
  | literal operand =>
      obtain ⟨⟨text, rfl⟩ | ⟨text, rfl⟩, hlegible⟩ := h
      · exact .inl ⟨_, rfl, hlegible, .inl rfl⟩
      · exact .inl ⟨_, rfl, hlegible, .inr rfl⟩
  | attr ref => exact .inr ⟨.attr ref, rfl, h⟩
  | synonym s => exact .inr ⟨.synonym s, rfl, h⟩

theorem Elem.render_toRef (elem : Elem) : elem.toRef.render = elem.render := by
  cases elem <;> rfl

theorem Elem.opening_render (elem : Elem) : Opening.Of elem.render.toList .letter := by
  rw [render_toList]
  exact elem.subject.opening_render.append _

theorem WithRef.unambiguous :
    Unambiguous WithRef.Legible EndsElem (fun side => side.render.toList) := by
  intro a b u v ha hb hu hv h
  rcases legible_cases ha with ⟨operand, rfl, hoperand, hsort⟩ | ⟨elem, rfl, helem⟩
  · rcases legible_cases hb with ⟨other, rfl, hother, -⟩ | ⟨elem, rfl, -⟩
    · obtain ⟨heq, huv⟩ := Operand.unambiguous operand other u v hoperand hother hu.endsName
        hv.endsName h
      exact ⟨congrArg WithRef.literal heq, huv⟩
    · simp only [Elem.render_toRef] at h
      rw [(Operand.opening_render hoperand).unique elem.opening_render h] at hsort
      rcases hsort with hsort | hsort <;> cases hsort
  · simp only [Elem.render_toRef] at h
    rcases legible_cases hb with ⟨operand, rfl, hoperand, hsort⟩ | ⟨other, rfl, hother⟩
    · rw [(Operand.opening_render hoperand).unique elem.opening_render h.symm] at hsort
      rcases hsort with hsort | hsort <;> cases hsort
    · simp only [Elem.render_toRef] at h
      obtain ⟨heq, huv⟩ := Elem.unambiguous elem other u v helem hother hu hv h
      exact ⟨congrArg Elem.toRef heq, huv⟩

end QuerySynth
