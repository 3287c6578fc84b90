import QuerySynth.Declaration
import QuerySynth.Proofs.Steps
import QuerySynth.Proofs.Text.Pieces

/-!
# Reading declaration lines

The reader of a line and the reader of a group are both cut at a character, so
that what they read of two parts is what they read of each.  From this follow
both halves of a round trip: groups of readable texts are read back, and nothing
that is read is unreadable.
-/

namespace QuerySynth.Declarations

open Text

/-- The text of a synonym that can be read back from a line. -/
structure Readable (text : String) : Prop where
  solid : Solid text.toList
  semicolon : ';' ∉ text.toList
  comma : ',' ∉ text.toList

/-! ## Synonyms of a group -/

/-- Reads the synonyms behind the keyword of a group. -/
def readSynonyms (group : List Char) (kind : Kind) (text : List Char) :
    Except DeclarationError (List (Kind × String)) :=
  (piecesAt ',' text).mapM (readSynonym group kind)

variable {group : List Char} {kind : Kind}

theorem readSynonyms_append (a b : List Char) :
    readSynonyms group kind (a ++ ',' :: b) = do
      let front ← readSynonyms group kind a
      let back ← readSynonyms group kind b
      return front ++ back := by
  simp [readSynonyms, piecesAt_append]

theorem readSynonyms_cons_space (text : List Char) :
    readSynonyms group kind (' ' :: text) = readSynonyms group kind text := by
  obtain ⟨first, others, heq⟩ := exists_piecesAt_eq_cons ',' text
  have htrim : readSynonym group kind (' ' :: first) = readSynonym group kind first := by
    rw [readSynonym, trim_cons_of_isBlank (by decide)]
    rfl
  rw [readSynonyms, readSynonyms, piecesAt_cons_of_ne (by decide), heq, consPiece, List.mapM_cons,
    List.mapM_cons, htrim]

theorem readSynonyms_of_readable {name : String} (h : Readable name) :
    readSynonyms group kind name.toList = .ok [(kind, name)] := by
  have hsynonym : readSynonym group kind name.toList = .ok (kind, name) := by
    rw [readSynonym, trim_of_solid h.solid]
    split
    · next hnil => exact absurd hnil h.solid.ne_nil
    · rw [String.ofList_toList]
  rw [readSynonyms, piecesAt_of_not_mem h.comma, List.mapM_cons, hsynonym]
  rfl

theorem readSynonyms_intercalate {names : List String} (hne : names ≠ [])
    (hnames : ∀ name ∈ names, Readable name) :
    readSynonyms group kind (", ".toList.intercalate (names.map String.toList)) =
      .ok (names.map (Prod.mk kind)) := by
  induction names with
  | nil => exact absurd rfl hne
  | cons name names ih =>
      obtain ⟨hname, hnames⟩ := List.forall_mem_cons.mp hnames
      cases names with
      | nil =>
          rw [List.map_singleton, List.intercalate_singleton]
          exact readSynonyms_of_readable hname
      | cons next names =>
          have hsplit : ", ".toList.intercalate ((name :: next :: names).map String.toList) =
              name.toList ++ ',' :: ' ' ::
                ", ".toList.intercalate ((next :: names).map String.toList) := by
            rw [List.map_cons, List.map_cons, List.intercalate_cons_cons, List.append_assoc]
            rfl
          rw [hsplit, readSynonyms_append, readSynonyms_cons_space,
            ih (List.cons_ne_nil _ _) hnames, readSynonyms_of_readable hname]
          rfl

/-! ## Groups of a line -/

/-- Reads the groups of a line. -/
def readGroups (line : List Char) : Except DeclarationError (List (Kind × String)) := do
  return (← (trimmed (piecesAt ';' line)).mapM readGroup).flatten

theorem readLine_eq (line : String) : readLine line = readGroups line.toList := rfl

/-- The groups of two parts are read one after the other. -/
theorem readGroups_append (a b : List Char) :
    readGroups (a ++ ';' :: b) = do
      let front ← readGroups a
      let back ← readGroups b
      return front ++ back := by
  simp [readGroups, piecesAt_append, trimmed_append]

theorem readGroups_cons_space (line : List Char) :
    readGroups (' ' :: line) = readGroups line := by
  rw [readGroups, piecesAt_cons_of_ne (by decide), trimmed_consPiece_of_isBlank (by decide)]
  rfl

theorem isBlank_keyword (kind : Kind) : kind.keyword.toList.any isBlank = false := by
  cases kind <;> decide

theorem solid_keyword (kind : Kind) : Solid kind.keyword.toList :=
  solid_of_not_any_isBlank (by cases kind <;> decide) (isBlank_keyword kind)

theorem semicolon_not_mem_keyword (kind : Kind) : ';' ∉ kind.keyword.toList := by
  cases kind <;> decide

theorem readGroup_keyword (kind : Kind) (text : List Char) :
    readGroup (kind.keyword.toList ++ ' ' :: text) =
      readSynonyms (kind.keyword.toList ++ ' ' :: text) kind text := by
  have hword : ∀ c ∈ kind.keyword.toList, (!isBlank c) = true := by
    simpa using isBlank_keyword kind
  have htake : (kind.keyword.toList ++ ' ' :: text).takeWhile (!isBlank ·) =
      kind.keyword.toList := by
    rw [List.takeWhile_append_of_pos hword, List.takeWhile_cons_of_neg (by decide),
      List.append_nil]
  have hdrop : (kind.keyword.toList ++ ' ' :: text).dropWhile (!isBlank ·) = ' ' :: text := by
    rw [List.dropWhile_append_of_pos hword, List.dropWhile_cons_of_neg (by decide)]
  rw [readGroup, htake, hdrop, String.ofList_toList, Kind.ofKeyword?_keyword]
  rfl

theorem readGroups_of_solid {group : List Char} (hsolid : Solid group) (h : ';' ∉ group) :
    readGroups group = readGroup group := by
  rw [readGroups, piecesAt_of_not_mem h, trimmed_of_solid hsolid, List.mapM_cons]
  cases readGroup group with
  | error e => rfl
  | ok pairs => exact congrArg Except.ok (List.append_nil pairs)

/-- A group of readable texts is read back. -/
theorem readGroups_group (kind : Kind) {names : List String} (hne : names ≠ [])
    (hnames : ∀ name ∈ names, Readable name) :
    readGroups (kind.keyword.toList ++ ' ' ::
      ", ".toList.intercalate (names.map String.toList)) = .ok (names.map (Prod.mk kind)) := by
  have hsolid : Solid (", ".toList.intercalate (names.map String.toList)) := by
    refine solid_intercalate (by simpa using hne) ?_ _
    exact List.forall_mem_map.mpr fun name hname => (hnames name hname).solid
  have hsemicolon : ';' ∉ ", ".toList.intercalate (names.map String.toList) := by
    refine not_mem_intercalate (by decide) ?_
    exact List.forall_mem_map.mpr fun name hname => (hnames name hname).semicolon
  have hgroup := (solid_keyword kind).append_append hsolid [' ']
  rw [List.append_assoc, List.singleton_append] at hgroup
  rw [readGroups_of_solid hgroup, readGroup_keyword, readSynonyms_intercalate hne hnames]
  rw [List.mem_append, List.mem_cons]
  exact not_or.mpr ⟨semicolon_not_mem_keyword kind, not_or.mpr ⟨by decide, hsemicolon⟩⟩

/-! ## What can be read -/

theorem readSynonym_eq_ok {piece : List Char} {pair : Kind × String}
    (h : readSynonym group kind piece = .ok pair) :
    trim piece ≠ [] ∧ pair = (kind, String.ofList (trim piece)) := by
  rw [readSynonym] at h
  split at h
  · cases h
  · next hne =>
    cases h
    exact ⟨hne, rfl⟩

/-- The synonyms of a group are read from a part of it. -/
theorem readGroup_eq_ok {pairs : List (Kind × String)} (h : readGroup group = .ok pairs) :
    ∃ kind text, text <:+ group ∧ readSynonyms group kind text = .ok pairs := by
  rw [readGroup] at h
  split at h
  · cases h
  · next c text hdrop =>
    split at h
    · cases h
    · next kind _ =>
      refine ⟨kind, text, ?_, h⟩
      have hsuffix := List.dropWhile_suffix (!isBlank ·) (l := group)
      rw [hdrop] at hsuffix
      exact (List.suffix_cons c text).trans hsuffix

theorem readGroups_eq_ok {line : List Char} {pairs : List (Kind × String)}
    (h : readGroups line = .ok pairs) :
    ∃ lists, (trimmed (piecesAt ';' line)).mapM readGroup = .ok lists ∧ pairs = lists.flatten := by
  obtain ⟨lists, hlists, h⟩ := bind_eq_ok_iff.mp h
  cases h
  exact ⟨lists, hlists, rfl⟩

/-- Every text that is read from a line is readable. -/
theorem readable_of_readGroups {line : List Char} {pairs : List (Kind × String)}
    (h : readGroups line = .ok pairs) : ∀ pair ∈ pairs, Readable pair.2 := by
  intro pair hpair
  obtain ⟨lists, hlists, rfl⟩ := readGroups_eq_ok h
  obtain ⟨list, hlist, hpair⟩ := List.mem_flatten.mp hpair
  obtain ⟨group, hgroup, hread⟩ := exists_of_mem_mapM hlists list hlist
  obtain ⟨kind, text, hsuffix, hread⟩ := readGroup_eq_ok hread
  obtain ⟨piece, hpiece, hread⟩ := exists_of_mem_mapM hread pair hpair
  obtain ⟨hne, rfl⟩ := readSynonym_eq_ok hread
  obtain ⟨whole, hwhole, rfl⟩ := List.mem_map.mp (List.mem_filter.mp hgroup).1
  -- a character of the text is one of its piece, and so of its group
  have hpart : ∀ c ∈ trim piece, c ≠ ',' ∧ c ≠ ';' := by
    intro c hc
    obtain ⟨htext, hcomma⟩ := mem_of_mem_piecesAt hpiece c (mem_of_mem_trim hc)
    exact ⟨hcomma, (mem_of_mem_piecesAt hwhole c (mem_of_mem_trim (hsuffix.subset htext))).2⟩
  refine ⟨?_, ?_, ?_⟩
  · rw [String.toList_ofList]
    exact (trim_eq_nil_or_solid piece).resolve_left hne
  · rw [String.toList_ofList]
    exact fun hc => (hpart _ hc).2 rfl
  · rw [String.toList_ofList]
    exact fun hc => (hpart _ hc).1 rfl

end QuerySynth.Declarations
