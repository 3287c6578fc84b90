import Mathlib.Data.List.Infix
import QuerySynth.Proofs.Text.Lines

/-!
# The normal form of entry files

What the entries of a text are, whatever the delimiter, and which changes of the text
leave them alone.

* A list is that of the entries of some text exactly if each of them is solid, stays on
  one line and has no delimiter in it.  Written one to a line, they are read as the same.
* A delimiter without carriage returns cannot tell a line from the same line with a
  carriage return behind it.  So lines need not be told from the pieces between line
  feeds, and the entries of two texts with a line feed between them are those of the one
  and those of the other.
* A carriage return that is put in front of a line feed belongs to the end of its line.
-/

namespace QuerySynth.Text

variable {c : Char} {delimiter text piece line : List Char} {pieces closed : List (List Char)}

/-! ## Cutting at a delimiter -/

/-- The delimiter does not occur in the text; the empty one counts as nowhere. -/
def Undivided (delimiter text : List Char) : Prop := delimiter ≠ [] → ¬ delimiter <:+: text

theorem Undivided.mono {part : List Char} (h : Undivided delimiter text) (hpart : part <:+: text) :
    Undivided delimiter part :=
  fun hne hinside => h hne (hinside.trans hpart)

theorem piecesBetween_of_opens (h : delimiter <+: c :: text) :
    piecesBetween delimiter 0 (c :: text) =
      [] :: piecesBetween delimiter (delimiter.length - 1) text := by
  rw [piecesBetween, if_pos (List.isPrefixOf_iff_prefix.mpr h)]

theorem piecesBetween_of_not_opens (h : ¬ delimiter <+: c :: text) :
    piecesBetween delimiter 0 (c :: text) = consPiece c (piecesBetween delimiter 0 text) := by
  rw [piecesBetween, if_neg (fun hopens => h (List.isPrefixOf_iff_prefix.mp hopens))]

theorem exists_piecesBetween_eq_cons (delimiter : List Char) (skip : Nat) (text : List Char) :
    ∃ first others, piecesBetween delimiter skip text = first :: others ∧
      first <+: text.drop skip := by
  fun_induction piecesBetween delimiter skip text with
  | case1 skip => exact ⟨[], [], rfl, List.nil_prefix⟩
  | case2 skip c text ih => exact ih
  | case3 c text hopens ih => exact ⟨[], _, rfl, List.nil_prefix⟩
  | case4 c text hopens ih =>
      obtain ⟨first, others, heq, hfirst⟩ := ih
      rw [heq]
      exact ⟨c :: first, others, rfl, List.cons_prefix_cons.mpr ⟨rfl, hfirst⟩⟩

/-- An occurrence inside of a piece would be one that opens there in the text. -/
theorem not_infix_of_mem_piecesBetween {skip : Nat} (hne : delimiter ≠ [])
    (h : piece ∈ piecesBetween delimiter skip text) : ¬ delimiter <:+: piece := by
  have hnil : ¬ delimiter <:+: [] := fun hinside => hne (List.infix_nil.mp hinside)
  fun_induction piecesBetween delimiter skip text generalizing piece with
  | case1 skip =>
      rw [List.mem_singleton.mp h]
      exact hnil
  | case2 skip c text ih => exact ih h
  | case3 c text hopens ih =>
      rcases List.mem_cons.mp h with rfl | h
      · exact hnil
      · exact ih h
  | case4 c text hopens ih =>
      obtain ⟨first, others, heq, hfirst⟩ := exists_piecesBetween_eq_cons delimiter 0 text
      rw [heq] at h ih
      rcases List.mem_cons.mp h with rfl | h
      · rw [List.infix_cons_iff, not_or]
        refine ⟨fun hpiece => hopens ?_, ih List.mem_cons_self⟩
        exact List.isPrefixOf_iff_prefix.mpr
          (hpiece.trans (List.cons_prefix_cons.mpr ⟨rfl, hfirst⟩))
      · exact ih (List.mem_cons_of_mem _ h)

theorem undivided_of_mem_cut (h : piece ∈ cut delimiter text) : Undivided delimiter piece := by
  intro hne
  rw [cut, if_neg (by simpa using hne)] at h
  exact not_infix_of_mem_piecesBetween hne h

theorem piecesBetween_of_absent (h : ¬ delimiter <:+: text) :
    piecesBetween delimiter 0 text = [text] := by
  induction text with
  | nil => rfl
  | cons c text ih =>
      rw [List.infix_cons_iff, not_or] at h
      rw [piecesBetween_of_not_opens h.1, ih h.2]
      rfl

theorem cut_of_undivided (h : Undivided delimiter text) : cut delimiter text = [text] := by
  by_cases hne : delimiter = []
  · rw [cut, if_pos (by simpa using hne)]
  · rw [cut, if_neg (by simpa using hne), piecesBetween_of_absent (h hne)]

/-! ## A character behind the text -/

/-- The second list is the first with the character behind its last piece. -/
def Closes (c : Char) (pieces closed : List (List Char)) : Prop :=
  ∃ front last, pieces = front ++ [last] ∧ closed = front ++ [last ++ [c]]

theorem Closes.cons (h : Closes c pieces closed) (piece : List Char) :
    Closes c (piece :: pieces) (piece :: closed) := by
  obtain ⟨front, last, rfl, rfl⟩ := h
  exact ⟨piece :: front, last, rfl, rfl⟩

theorem Closes.consPiece {d : Char} (h : Closes c pieces closed) :
    Closes c (consPiece d pieces) (consPiece d closed) := by
  obtain ⟨front, last, rfl, rfl⟩ := h
  cases front with
  | nil => exact ⟨[], d :: last, rfl, rfl⟩
  | cons first front => exact ⟨(d :: first) :: front, last, rfl, rfl⟩

/-- A character that is not in the delimiter neither makes nor hides an occurrence. -/
theorem closes_piecesBetween {skip : Nat} (hne : delimiter ≠ []) (hc : c ∉ delimiter)
    (hskip : skip ≤ text.length) :
    Closes c (piecesBetween delimiter skip text) (piecesBetween delimiter skip (text ++ [c])) := by
  -- an occurrence that opens the longer text ends before the character
  have hshorter : ∀ rest, delimiter <+: rest ++ [c] → delimiter <+: rest := by
    intro rest h
    rcases List.prefix_concat_iff.mp h with heq | h
    · exact absurd (by simp [heq]) hc
    · exact h
  fun_induction piecesBetween delimiter skip text with
  | case1 skip =>
      have hzero : skip = 0 := Nat.le_zero.mp hskip
      have hnone : ¬ delimiter <+: [c] := fun h => hne (List.prefix_nil.mp (hshorter [] h))
      rw [hzero, List.nil_append, piecesBetween_of_not_opens hnone]
      exact ⟨[], [], rfl, rfl⟩
  | case2 skip d text ih => exact ih (Nat.le_of_succ_le_succ hskip)
  | case3 d text hopens ih =>
      have hshort : delimiter <+: d :: text := List.isPrefixOf_iff_prefix.mp hopens
      have hlong : delimiter <+: d :: (text ++ [c]) :=
        hshort.trans (List.prefix_append (d :: text) [c])
      have hlength := hshort.length_le
      rw [List.length_cons] at hlength
      rw [List.cons_append, piecesBetween_of_opens hlong]
      exact (ih (by omega)).cons []
  | case4 d text hopens ih =>
      have hlong : ¬ delimiter <+: d :: (text ++ [c]) :=
        fun h => hopens (List.isPrefixOf_iff_prefix.mpr (hshorter (d :: text) h))
      rw [List.cons_append, piecesBetween_of_not_opens hlong]
      exact (ih (Nat.zero_le _)).consPiece

theorem closes_cut (hc : c ∉ delimiter) (text : List Char) :
    Closes c (cut delimiter text) (cut delimiter (text ++ [c])) := by
  by_cases hne : delimiter = []
  · rw [cut, cut, if_pos (by simpa using hne), if_pos (by simpa using hne)]
    exact ⟨[], text, rfl, rfl⟩
  · rw [cut, cut, if_neg (by simpa using hne), if_neg (by simpa using hne)]
    exact closes_piecesBetween hne hc (Nat.zero_le _)

theorem trim_concat_of_isBlank (h : isBlank c = true) (text : List Char) :
    trim (text ++ [c]) = trim text := by
  rw [trim, trim, trimStart, trimStart, List.dropWhile_append]
  split
  · next hempty =>
    rw [List.isEmpty_iff.mp hempty, List.dropWhile_cons_of_pos h]
    rfl
  · rw [trimEnd_eq_rdropWhile, trimEnd_eq_rdropWhile, List.rdropWhile_concat_pos isBlank _ c h]

theorem Closes.trimmed_eq (hc : isBlank c = true) (h : Closes c pieces closed) :
    trimmed closed = trimmed pieces := by
  obtain ⟨front, last, rfl, rfl⟩ := h
  rw [trimmed_append, trimmed_append]
  simp [trimmed, trim_concat_of_isBlank hc]

/-! ## Lines -/

/-- The entries of one line. -/
def lineEntries (delimiter line : List Char) : List (List Char) := trimmed (cut delimiter line)

theorem trimmed_flatMap (texts : List (List Char)) (read : List Char → List (List Char)) :
    trimmed (texts.flatMap read) = texts.flatMap fun text => trimmed (read text) := by
  simp [trimmed, List.map_flatMap, List.filter_flatMap]

theorem entriesOf_eq_flatMap (text delimiter : List Char) :
    entriesOf text delimiter = (lines text).flatMap (lineEntries delimiter) :=
  trimmed_flatMap _ _

theorem lineEntries_nil (delimiter : List Char) : lineEntries delimiter [] = [] := by
  have hcut : cut delimiter [] = [[]] := by
    unfold cut
    split <;> rfl
  rw [lineEntries, hcut]
  rfl

theorem lineEntries_dropReturn (h : '\r' ∉ delimiter) (line : List Char) :
    lineEntries delimiter (dropReturn line) = lineEntries delimiter line := by
  unfold dropReturn
  split
  · next hlast =>
    obtain ⟨front, rfl⟩ := List.getLast?_eq_some_iff.mp hlast
    rw [List.dropLast_concat]
    exact ((closes_cut h front).trimmed_eq (by decide)).symm
  · rfl

/-- To a delimiter without carriage returns, lines are the pieces between line feeds. -/
theorem flatMap_linesOfPieces (h : '\r' ∉ delimiter) (pieces : List (List Char)) :
    (linesOfPieces pieces).flatMap (lineEntries delimiter) =
      pieces.flatMap (lineEntries delimiter) := by
  fun_induction linesOfPieces pieces with
  | case1 => rfl
  | case2 last hlast =>
      rw [List.isEmpty_iff.mp hlast, List.flatMap_singleton, lineEntries_nil]
      rfl
  | case3 last hlast => rfl
  | case4 line pieces _ ih =>
      rw [List.flatMap_cons, List.flatMap_cons, ih, lineEntries_dropReturn h]

theorem entriesOf_append (h : '\r' ∉ delimiter) (a b : List Char) :
    entriesOf (a ++ '\n' :: b) delimiter = entriesOf a delimiter ++ entriesOf b delimiter := by
  simp only [entriesOf_eq_flatMap, lines, flatMap_linesOfPieces h, piecesAt_append,
    List.flatMap_append]

/-! ## Entries written one to a line -/

/-- The text can be an entry: there is something in it, no blank at either end, no line
feed and no delimiter. -/
structure IsEntry (delimiter entry : List Char) : Prop where
  solid : Solid entry
  oneLine : '\n' ∉ entry
  undivided : Undivided delimiter entry

theorem trim_isInfix (text : List Char) : trim text <:+: text :=
  (List.rdropWhile_prefix isBlank _).isInfix.trans (List.dropWhile_suffix isBlank).isInfix

theorem isEntry_of_mem_entriesOf {entry : List Char} (h : entry ∈ entriesOf text delimiter) :
    IsEntry delimiter entry := by
  rw [entriesOf_eq_flatMap] at h
  obtain ⟨line, hline, h⟩ := List.mem_flatMap.mp h
  obtain ⟨hmem, hsome⟩ := List.mem_filter.mp h
  obtain ⟨piece, hpiece, rfl⟩ := List.mem_map.mp hmem
  refine ⟨?_, ?_, (undivided_of_mem_cut hpiece).mono (trim_isInfix piece)⟩
  · exact (trim_eq_nil_or_solid piece).resolve_left (by simpa using hsome)
  · exact fun hfeed => not_mem_of_mem_lines hline (mem_of_mem_cut hpiece _ (mem_of_mem_trim hfeed))

/-- A carriage return is a blank, so no solid line ends in one. -/
theorem dropReturn_of_solid (h : Solid line) : dropReturn line = line := by
  obtain ⟨front, c, hcloses, hc⟩ := h.closes
  rw [dropReturn, if_neg]
  rw [hcloses, List.getLast?_concat, Option.some.injEq]
  rintro rfl
  exact absurd hc (by decide)

theorem linesOfPieces_of_solid (h : ∀ piece ∈ pieces, Solid piece) :
    linesOfPieces pieces = pieces := by
  fun_induction linesOfPieces pieces with
  | case1 => rfl
  | case2 last hlast => exact absurd (List.isEmpty_iff.mp hlast) (h last List.mem_cons_self).ne_nil
  | case3 last hlast => rfl
  | case4 line pieces _ ih =>
      obtain ⟨hline, hpieces⟩ := List.forall_mem_cons.mp h
      rw [dropReturn_of_solid hline, ih hpieces]

theorem entriesOf_intercalate {texts : List (List Char)}
    (h : ∀ text ∈ texts, IsEntry delimiter text) :
    entriesOf (['\n'].intercalate texts) delimiter = texts := by
  by_cases hne : texts = []
  · subst hne
    rfl
  · rw [entriesOf_eq_flatMap, lines,
      piecesAt_intercalate hne fun text htext => (h text htext).oneLine,
      linesOfPieces_of_solid fun text htext => (h text htext).solid]
    have hline : ∀ text ∈ texts, lineEntries delimiter text = [text] := by
      intro text htext
      rw [lineEntries, cut_of_undivided (h text htext).undivided,
        trimmed_of_solid (h text htext).solid]
    rw [List.flatMap_congr hline, List.flatMap_singleton']

/-- The lists of entries of texts are the lists of what can be an entry. -/
theorem exists_entriesOf_eq_iff {texts : List (List Char)} :
    (∃ text, entriesOf text delimiter = texts) ↔ ∀ text ∈ texts, IsEntry delimiter text := by
  constructor
  · rintro ⟨text, rfl⟩
    exact fun entry => isEntry_of_mem_entriesOf
  · exact fun h => ⟨_, entriesOf_intercalate h⟩

/-! ## Line ends of two characters -/

/-- The text with a carriage return in front of every line feed. -/
def returnsBeforeFeeds (text : List Char) : List Char :=
  text.flatMap fun c => if c = '\n' then ['\r', '\n'] else [c]

/-- Each piece but the last gets a carriage return behind it. -/
theorem exists_piecesAt_returnsBeforeFeeds (text : List Char) :
    ∃ front last, piecesAt '\n' text = front ++ [last] ∧
      piecesAt '\n' (returnsBeforeFeeds text) = front.map (· ++ ['\r']) ++ [last] := by
  induction text with
  | nil => exact ⟨[], [], rfl, rfl⟩
  | cons c text ih =>
      obtain ⟨front, last, heq, hreturns⟩ := ih
      by_cases hc : c = '\n'
      · subst hc
        have hopen : returnsBeforeFeeds ('\n' :: text) =
            '\r' :: '\n' :: returnsBeforeFeeds text := rfl
        rw [hopen, piecesAt_cons_self, piecesAt_cons_of_ne (by decide), piecesAt_cons_self, heq,
          hreturns]
        exact ⟨[] :: front, last, rfl, rfl⟩
      · have hopen : returnsBeforeFeeds (c :: text) = c :: returnsBeforeFeeds text := by
          simp [returnsBeforeFeeds, hc]
        rw [hopen, piecesAt_cons_of_ne hc, piecesAt_cons_of_ne hc, heq, hreturns]
        cases front with
        | nil => exact ⟨[], c :: last, rfl, rfl⟩
        | cons first front => exact ⟨(c :: first) :: front, last, rfl, rfl⟩

theorem lines_returnsBeforeFeeds (h : '\r' ∉ text) :
    lines (returnsBeforeFeeds text) = lines text := by
  obtain ⟨front, last, heq, hreturns⟩ := exists_piecesAt_returnsBeforeFeeds text
  have hdrop : front.map (dropReturn ∘ (· ++ ['\r'])) = front.map dropReturn := by
    refine List.map_congr_left fun piece hpiece => ?_
    have hplain : piece.getLast? ≠ some '\r' := by
      intro hlast
      have hmem : piece ∈ piecesAt '\n' text := by simp [heq, hpiece]
      exact h (mem_of_mem_piecesAt hmem _ (List.mem_of_getLast? hlast)).1
    simp [dropReturn, hplain]
  rw [lines, lines, heq, hreturns, linesOfPieces_concat, linesOfPieces_concat, List.map_map, hdrop]

/-! ## Texts -/

/-- The text with line ends of two characters. -/
def withReturns (text : String) : String := String.ofList (returnsBeforeFeeds text.toList)

theorem toList_intercalate_entries (text delimiter : String) :
    ("\n".intercalate (entries text delimiter)).toList =
      ['\n'].intercalate (entriesOf text.toList delimiter.toList) := by
  have htexts : (entries text delimiter).map String.toList =
      entriesOf text.toList delimiter.toList := by
    simp [entries, Function.comp_def]
  rw [String.toList_intercalate, htexts]
  rfl

/-- Whatever the text and the delimiter, each entry is one that is read alone as itself,
and so are all of them, one to a line.  A line feed between two texts keeps their entries
apart, and it does not matter whether lines end in one character or in two. -/
theorem entries_normalForm :
    (∀ text delimiter : String,
      (∀ entry ∈ entries text delimiter, IsEntry delimiter.toList entry.toList) ∧
        entries ("\n".intercalate (entries text delimiter)) delimiter = entries text delimiter) ∧
    (∀ delimiter : String, '\r' ∉ delimiter.toList → ∀ a b : String,
      entries (a ++ "\n" ++ b) delimiter = entries a delimiter ++ entries b delimiter) ∧
    ∀ text delimiter : String, '\r' ∉ text.toList →
      entries (withReturns text) delimiter = entries text delimiter := by
  refine ⟨fun text delimiter => ⟨?_, ?_⟩, ?_, ?_⟩
  · intro entry hentry
    obtain ⟨characters, hmem, rfl⟩ := List.mem_map.mp hentry
    rw [String.toList_ofList]
    exact isEntry_of_mem_entriesOf hmem
  · rw [entries, toList_intercalate_entries,
      entriesOf_intercalate fun _ => isEntry_of_mem_entriesOf]
    rfl
  · intro delimiter hreturn a b
    have htext : (a ++ "\n" ++ b).toList = a.toList ++ '\n' :: b.toList := by simp
    rw [entries, htext, entriesOf_append hreturn, List.map_append]
    rfl
  · intro text delimiter hreturn
    rw [entries, withReturns, String.toList_ofList, entriesOf, lines_returnsBeforeFeeds hreturn]
    rfl

/-- A delimiter that overlaps with itself, and line ends of both sorts; and how a
delimiter with a carriage return can hide in a line end. -/
theorem entries_overlapping_normalForm :
    entries "baaab \n a aa\r\nc" "aa" = ["b", "ab", "a", "c"] ∧
      IsEntry "aa".toList "ab".toList ∧
      entries ("\n".intercalate ["b", "ab", "a", "c"]) "aa" = ["b", "ab", "a", "c"] ∧
      entries ("baaab" ++ "\n" ++ "c") "aa" = ["b", "ab"] ++ ["c"] ∧
      entries (withReturns "baaab\nc") "aa" = ["b", "ab", "c"] ∧
      entries "xy\r" "y\r" = ["x"] ∧ entries ("xy\r" ++ "\n" ++ "") "y\r" = ["xy"] := by
  have hloose : entries "baaab \n a aa\r\nc" "aa" = ["b", "ab", "a", "c"] := by rfl
  have hfront : entries "baaab" "aa" = ["b", "ab"] := by rfl
  have hback : entries "c" "aa" = ["c"] := by rfl
  refine ⟨hloose, ?_, ?_, ?_, ?_, rfl, rfl⟩
  · exact (entries_normalForm.1 "baaab" "aa").1 "ab" (by simp [hfront])
  · rw [← hloose]
    exact (entries_normalForm.1 _ _).2
  · rw [entries_normalForm.2.1 "aa" (by decide), hfront, hback]
  · exact entries_normalForm.2.2 _ _ (by decide)

end QuerySynth.Text
