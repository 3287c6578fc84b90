import QuerySynth.Proofs.Text.Pieces

/-!
# Texts of one line

A text stays on one line if there is no line feed in it.

* The entries of a text do, whatever the delimiter: the text is cut into lines
  first, and cutting and trimming a line bring no character in.
* A text whose last line is ended has as many lines as line feeds.
-/

namespace QuerySynth.Text

/-- The text has no line feed. -/
def OneLine (text : String) : Prop := '\n' ∉ text.toList

instance (text : String) : Decidable (OneLine text) :=
  inferInstanceAs (Decidable ('\n' ∉ text.toList))

/-- The number of line feeds in the text. -/
def lineFeeds (text : String) : Nat := text.toList.count '\n'

/-! ## Putting texts together -/

theorem oneLine_append {a b : String} (ha : OneLine a) (hb : OneLine b) : OneLine (a ++ b) := by
  unfold OneLine
  rw [String.toList_append, List.mem_append]
  exact not_or.mpr ⟨ha, hb⟩

theorem oneLine_intercalate {between : String} {texts : List String} (hbetween : OneLine between)
    (h : ∀ text ∈ texts, OneLine text) : OneLine (between.intercalate texts) := by
  unfold OneLine
  rw [String.toList_intercalate]
  refine not_mem_intercalate hbetween ?_
  intro characters hcharacters
  obtain ⟨text, htext, rfl⟩ := List.mem_map.mp hcharacters
  exact h text htext

theorem oneLine_join {texts : List String} (h : ∀ text ∈ texts, OneLine text) :
    OneLine (String.join texts) := by
  unfold OneLine
  rw [String.toList_join]
  intro hfeed
  obtain ⟨text, htext, hfeed⟩ := List.mem_flatMap.mp hfeed
  exact h text htext hfeed

/-- Letters and digits are no line feeds. -/
theorem oneLine_of_isAlphanum {text : String} (h : ∀ c ∈ text.toList, c.isAlphanum = true) :
    OneLine text := by
  intro hfeed
  exact absurd (h '\n' hfeed) (by decide)

@[simp]
theorem lineFeeds_append (a b : String) : lineFeeds (a ++ b) = lineFeeds a + lineFeeds b := by
  rw [lineFeeds, String.toList_append, List.count_append, lineFeeds, lineFeeds]

theorem lineFeeds_eq_zero_iff {text : String} : lineFeeds text = 0 ↔ OneLine text :=
  List.count_eq_zero

/-! ## Lines -/

theorem length_piecesAt (sep : Char) (text : List Char) :
    (piecesAt sep text).length = text.count sep + 1 := by
  induction text with
  | nil => rfl
  | cons c text ih =>
      by_cases hc : c = sep
      · subst hc
        rw [piecesAt_cons_self, List.length_cons, ih, List.count_cons_self]
      · obtain ⟨first, others, heq⟩ := exists_piecesAt_eq_cons sep text
        have hcons : consPiece c (first :: others) = (c :: first) :: others := rfl
        rw [heq] at ih
        rw [piecesAt_cons_of_ne hc, heq, hcons, List.count_cons_of_ne hc, ← ih]
        rfl

theorem linesOfPieces_concat (pieces : List (List Char)) (last : List Char) :
    linesOfPieces (pieces ++ [last]) = pieces.map dropReturn ++ linesOfPieces [last] := by
  induction pieces with
  | nil => rfl
  | cons piece pieces ih =>
      have hcons : linesOfPieces (piece :: pieces ++ [last]) =
          dropReturn piece :: linesOfPieces (pieces ++ [last]) := by
        cases pieces <;> rfl
      rw [hcons, ih]
      rfl

/-- An empty last piece is no line. -/
theorem length_linesOfPieces_append (pieces : List (List Char)) :
    (linesOfPieces (pieces ++ [[]])).length = pieces.length := by
  simp [linesOfPieces_concat, linesOfPieces]

/-- Where the last line is ended, lines are counted by line feeds. -/
theorem length_lines {text : List Char} (h : ∀ c ∈ text.getLast?, c = '\n') :
    (lines text).length = text.count '\n' := by
  rcases List.eq_nil_or_concat' text with rfl | ⟨front, c, rfl⟩
  · rfl
  · have hc : c = '\n' := h c (by simp)
    subst hc
    rw [lines, piecesAt_append, piecesAt_nil, length_linesOfPieces_append, length_piecesAt,
      List.count_append, List.count_singleton_self]

theorem mem_of_mem_dropReturn {c : Char} {line : List Char} (h : c ∈ dropReturn line) :
    c ∈ line := by
  unfold dropReturn at h
  split at h
  · exact (List.dropLast_sublist line).subset h
  · exact h

/-- A line is a piece, but for a carriage return at its end. -/
theorem exists_piece_of_mem_linesOfPieces {line : List Char} {pieces : List (List Char)}
    (h : line ∈ linesOfPieces pieces) : ∃ piece ∈ pieces, ∀ c ∈ line, c ∈ piece := by
  fun_induction linesOfPieces pieces with
  | case1 => cases h
  | case2 last hlast => cases h
  | case3 last hlast =>
      rw [List.mem_singleton.mp h]
      exact ⟨last, List.mem_cons_self, fun _ hc => hc⟩
  | case4 piece pieces _ ih =>
      rcases List.mem_cons.mp h with rfl | h
      · exact ⟨piece, List.mem_cons_self, fun _ => mem_of_mem_dropReturn⟩
      · obtain ⟨other, hother, hmem⟩ := ih h
        exact ⟨other, List.mem_cons_of_mem _ hother, hmem⟩

theorem not_mem_of_mem_lines {line text : List Char} (h : line ∈ lines text) : '\n' ∉ line := by
  obtain ⟨piece, hpiece, hmem⟩ := exists_piece_of_mem_linesOfPieces h
  intro hfeed
  exact (mem_of_mem_piecesAt hpiece '\n' (hmem '\n' hfeed)).2 rfl

/-! ## Entries -/

theorem mem_of_mem_consPiece {c d : Char} {piece : List Char} {pieces : List (List Char)}
    (h : piece ∈ consPiece c pieces) (hd : d ∈ piece) : d = c ∨ ∃ other ∈ pieces, d ∈ other := by
  cases pieces with
  | nil =>
      rw [List.mem_singleton.mp h] at hd
      exact .inl (List.mem_singleton.mp hd)
  | cons first others =>
      rcases List.mem_cons.mp h with rfl | h
      · rcases List.mem_cons.mp hd with rfl | hd
        · exact .inl rfl
        · exact .inr ⟨first, List.mem_cons_self, hd⟩
      · exact .inr ⟨piece, List.mem_cons_of_mem _ h, hd⟩

/-- A piece is made of characters of the text, also where the delimiter overlaps
with itself. -/
theorem mem_of_mem_piecesBetween {delimiter text piece : List Char} {skip : Nat}
    (h : piece ∈ piecesBetween delimiter skip text) : ∀ c ∈ piece, c ∈ text := by
  fun_induction piecesBetween delimiter skip text generalizing piece with
  | case1 skip =>
      rw [List.mem_singleton.mp h]
      exact nofun
  | case2 skip d text ih => exact fun c hc => List.mem_cons_of_mem _ (ih h c hc)
  | case3 d text _ ih =>
      rcases List.mem_cons.mp h with rfl | h
      · exact nofun
      · exact fun c hc => List.mem_cons_of_mem _ (ih h c hc)
  | case4 d text _ ih =>
      intro c hc
      rcases mem_of_mem_consPiece h hc with rfl | ⟨other, hother, hc⟩
      · exact List.mem_cons_self
      · exact List.mem_cons_of_mem _ (ih hother c hc)

theorem mem_of_mem_cut {delimiter text piece : List Char} (h : piece ∈ cut delimiter text) :
    ∀ c ∈ piece, c ∈ text := by
  unfold cut at h
  split at h
  · rw [List.mem_singleton.mp h]
    exact fun _ hc => hc
  · exact mem_of_mem_piecesBetween h

/-- No entry goes over the end of a line. -/
theorem oneLine_of_mem_entries {text delimiter entry : String}
    (h : entry ∈ entries text delimiter) : OneLine entry := by
  obtain ⟨trimmedPiece, hmem, rfl⟩ := List.mem_map.mp h
  obtain ⟨piece, hpiece, rfl⟩ := List.mem_map.mp (List.mem_filter.mp hmem).1
  obtain ⟨line, hline, hpiece⟩ := List.mem_flatMap.mp hpiece
  unfold OneLine
  rw [String.toList_ofList]
  intro hfeed
  exact not_mem_of_mem_lines hline (mem_of_mem_cut hpiece '\n' (mem_of_mem_trim hfeed))

end QuerySynth.Text
